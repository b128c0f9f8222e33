/-
**The channel a client keeps.**

A rule of the channel affinity setting takes a value from a request, and the channel that served
the request is kept in a cache for the next one with the same value.  The key is the rule's name,
the model, the group and the value, those of them that the rule includes, joined with colons; it is
written with the namespace in front and read without it.  Neither the joining nor the reading keeps
different requests apart: what counts are the pieces between the colons, as they are written and as
they are read.

Main definitions:

* `NewApi.matchRule` — the rule a request matches and the value it is known by;
* `NewApi.getPreferredChannelByAffinity`, `NewApi.recordChannelAffinity` — reading and keeping a
  channel;
* `NewApi.AffinityMatch.tuple` — what a request is to be known by;
* `NewApi.segments`, `NewApi.readSegments` — the pieces of a key as it is written and as it is
  read;
* `NewApi.Apart` — two requests never see each other's channels.

Main results:

* `NewApi.toList_readKey`, `NewApi.toList_writeKey` — the two keys of a request, from its pieces;
* `NewApi.affinity_apart` — **two requests are kept apart exactly when their pieces differ**, as
  written and as read;
* `NewApi.affinity_crosses` — a colon in a value, and a value that begins with one.
-/

import NewApi.HybridCache

set_option autoImplicit false

namespace NewApi

/-! ### Rules and requests -/

structure ChannelAffinityKeySource where
  type : String
  key : String
  path : String

structure ChannelAffinityRule where
  name : String
  modelRegex : List String
  pathRegex : List String
  userAgentInclude : List String
  keySources : List ChannelAffinityKeySource
  valueRegex : String
  includeUsingGroup : Bool
  includeModelName : Bool
  includeRuleName : Bool

structure ChannelAffinitySetting where
  enabled : Bool
  switchOnSuccess : Bool
  rules : List ChannelAffinityRule

/-- A value of the body, as `gjson` finds it. -/
structure GjsonResult where
  scalar : Bool
  string : String
  raw : String

/-- What is read of a request. -/
structure AffinityRequest where
  modelName : String
  usingGroup : String
  path : String
  userAgent : String
  getInt : String → ℤ
  getString : String → String
  header : String → String
  gjson : String → Option GjsonResult

/-- Regular expressions and the lower case of a text. -/
structure TextMatching where
  compiles : String → Bool
  matchString : String → String → Bool
  toLower : String → String

section Matching

variable (env : TextMatching)

def matchAnyRegexCached (patterns : List String) (s : String) : Bool :=
  if patterns = [] ∨ s = "" then false
  else patterns.any fun pattern =>
    pattern ≠ "" && env.compiles pattern && env.matchString pattern s

def matchAnyIncludeFold (patterns : List String) (s : String) : Bool :=
  if patterns = [] ∨ s = "" then false
  else patterns.any fun p =>
    trimSpace p ≠ "" && contains (env.toLower s) (env.toLower (trimSpace p))

def extractChannelAffinityValue (req : AffinityRequest) (src : ChannelAffinityKeySource) : String :=
  if src.type = "context_int" then
    if src.key = "" then ""
    else if req.getInt src.key ≤ 0 then "" else toString (req.getInt src.key).toNat
  else if src.type = "context_string" then
    if src.key = "" then "" else trimSpace (req.getString src.key)
  else if src.type = "request_header" then
    if src.key = "" then "" else trimSpace (req.header src.key)
  else if src.type = "gjson" then
    if src.path = "" then ""
    else
      match req.gjson src.path with
      | none => ""
      | some res => trimSpace (if res.scalar then res.string else res.raw)
  else ""

/-- The first value that is not empty. -/
def affinityValue (req : AffinityRequest) : List ChannelAffinityKeySource → String
  | [] => ""
  | src :: srcs =>
    let value := extractChannelAffinityValue req src
    if value ≠ "" then value else affinityValue req srcs

/-- The rule a request matches and the value it is known by. -/
structure AffinityMatch where
  rule : ChannelAffinityRule
  modelName : String
  usingGroup : String
  value : String

/-- The first rule that a request matches. -/
def matchRule (req : AffinityRequest) : List ChannelAffinityRule → Option AffinityMatch
  | [] => none
  | rule :: rules =>
    if ¬ matchAnyRegexCached env rule.modelRegex req.modelName then matchRule req rules
    else if rule.pathRegex ≠ [] ∧ ¬ matchAnyRegexCached env rule.pathRegex req.path then
      matchRule req rules
    else if rule.userAgentInclude ≠ [] ∧
        ¬ matchAnyIncludeFold env rule.userAgentInclude req.userAgent then
      matchRule req rules
    else
      let value := affinityValue req rule.keySources
      if value = "" then matchRule req rules
      else if rule.valueRegex ≠ "" ∧ ¬ matchAnyRegexCached env [rule.valueRegex] value then
        matchRule req rules
      else some ⟨rule, req.modelName, req.usingGroup, value⟩

end Matching

/-! ### Keys -/

/-- The parts of a key. -/
def affinityParts (rule : ChannelAffinityRule) (modelName usingGroup value : String) :
    List String :=
  (if rule.includeRuleName ∧ rule.name ≠ "" then [rule.name] else []) ++
    (if rule.includeModelName ∧ modelName ≠ "" then [modelName] else []) ++
    (if rule.includeUsingGroup ∧ usingGroup ≠ "" then [usingGroup] else []) ++ [value]

def buildChannelAffinityCacheKeySuffix (rule : ChannelAffinityRule)
    (modelName usingGroup value : String) : String :=
  joinWith ':' (affinityParts rule modelName usingGroup value)

def AffinityMatch.parts (m : AffinityMatch) : List String :=
  affinityParts m.rule m.modelName m.usingGroup m.value

def AffinityMatch.cacheKeySuffix (m : AffinityMatch) : String :=
  buildChannelAffinityCacheKeySuffix m.rule m.modelName m.usingGroup m.value

def AffinityMatch.cacheKeyFull (m : AffinityMatch) : String :=
  channelAffinityNamespace.name ++ ":" ++ m.cacheKeySuffix

/-- What a request is to be known by: a part that the rule does not include counts as empty. -/
def AffinityMatch.tuple (m : AffinityMatch) : String × String × String × String :=
  (if m.rule.includeRuleName then m.rule.name else "",
    if m.rule.includeModelName then m.modelName else "",
    if m.rule.includeUsingGroup then m.usingGroup else "", m.value)

/-! ### Reading and keeping a channel -/

/-- The cache of the channels, in the one place or in the other. -/
inductive AffinityCache where
  | redis (s : RedisStore)
  | memory (m : MemoryStore ℤ)

section Cache

variable (env : TextMatching) (codec : ValueCodec ℤ) (hot : HotCache)

def AffinityCache.get (cache : AffinityCache) (key : String) : CacheResult ℤ :=
  match cache with
  | .redis s => (redisStep channelAffinityNamespace codec s ⟨.get key, [], []⟩).2
  | .memory m => (memoryStep channelAffinityNamespace hot m ⟨.get key, [], []⟩).2

def AffinityCache.set (cache : AffinityCache) (key : String) (channelID : ℤ) : AffinityCache :=
  match cache with
  | .redis s =>
    .redis (redisStep channelAffinityNamespace codec s ⟨.setWithTTL key channelID, [], []⟩).1
  | .memory m =>
    .memory (memoryStep channelAffinityNamespace hot m ⟨.setWithTTL key channelID, [], []⟩).1

/-- The channel a request prefers, and the key that is left in its context. -/
def getPreferredChannelByAffinity (setting : ChannelAffinitySetting) (req : AffinityRequest)
    (cache : AffinityCache) : (ℤ × Bool) × Option String :=
  if ¬ setting.enabled then ((0, false), none)
  else
    match matchRule env req setting.rules with
    | none => ((0, false), none)
    | some m =>
      match cache.get codec hot m.cacheKeySuffix with
      | .found (some channelID) none => ((channelID, true), some m.cacheKeyFull)
      | _ => ((0, false), some m.cacheKeyFull)

/-- The channel that served a request is kept under the key in its context: `contextID` is the
channel noted in the context. -/
def recordChannelAffinity (setting : ChannelAffinitySetting) (cacheKey : Option String)
    (contextID channelID : ℤ) (cache : AffinityCache) : AffinityCache :=
  if channelID ≤ 0 ∨ ¬ setting.enabled then cache
  else
    match cacheKey with
    | none => cache
    | some key =>
      if key = "" then cache
      else cache.set codec hot key
        (if setting.switchOnSuccess ∧ 0 < contextID then contextID else channelID)

/-- The key under which the channel of a request is read. -/
def AffinityMatch.readKey (m : AffinityMatch) : String :=
  channelAffinityNamespace.fullKey m.cacheKeySuffix

/-- The key under which the channel of a request is written. -/
def AffinityMatch.writeKey (m : AffinityMatch) : String :=
  channelAffinityNamespace.fullKey m.cacheKeyFull

/-- A request, the setting it is served with and the rule it matches there. -/
structure AffinityCase where
  setting : ChannelAffinitySetting
  req : AffinityRequest
  matched : AffinityMatch
  matches_rule : matchRule env req setting.rules = some matched

/-- Keeping the channel of the first request does not change what the second one prefers. -/
def Unaffected (x y : AffinityCase env) : Prop :=
  ∀ (earlier cache : AffinityCache) (contextID channelID : ℤ),
    (getPreferredChannelByAffinity env codec hot y.setting y.req
      (recordChannelAffinity codec hot x.setting
        (getPreferredChannelByAffinity env codec hot x.setting x.req earlier).2
        contextID channelID cache)).1 =
      (getPreferredChannelByAffinity env codec hot y.setting y.req cache).1

/-- **Two requests never see each other's channels**: the keys under which they are read and
written are different. -/
structure Apart (x y : AffinityCase env) : Prop where
  keys : ∀ k ∈ [x.matched.readKey, x.matched.writeKey],
    k ∉ [y.matched.readKey, y.matched.writeKey]
  left : Unaffected env codec hot x y
  right : Unaffected env codec hot y x

end Cache

/-! ### The pieces of a key -/

/-- The pieces of the parts, between colons. -/
def segments (parts : List String) : List (List Char) :=
  parts.flatMap fun part => part.toList.splitOn ':'

/-- The pieces of the namespace. -/
def namespaceSegments : List (List Char) :=
  ["new-api".toList, "channel_affinity".toList, "v1".toList]

/-- The empty pieces at the beginning are dropped; one piece is left. -/
def dropEmpty : List (List Char) → List (List Char)
  | [] :: s :: l => dropEmpty (s :: l)
  | l => l

/-- The pieces as they are read: without white space at the beginning, and then without the pieces
of the namespace or without empty pieces at the beginning. -/
def readSegments (l : List (List Char)) : List (List Char) :=
  let l := l.modifyHead (·.dropWhile isSpace)
  if namespaceSegments <+: l ∧ l ≠ namespaceSegments then l.drop 3 else dropEmpty l

/-- Neither the pieces of a key as it is written nor those as it is read are pieces of the other
key. -/
def Separated (p q : List String) : Prop :=
  ∀ l ∈ [segments p, readSegments (segments p)], l ∉ [segments q, readSegments (segments q)]

instance (p q : List String) : Decidable (Separated p q) := by
  unfold Separated
  infer_instance

/-! ### Cutting a key -/

/-- A list that does not end in what is trimmed is trimmed at its beginning only. -/
theorem trimList_eq_dropWhile {α : Type*} {p : α → Bool} {l : List α}
    (hlast : ∀ a ∈ l.getLast?, p a = false) : trimList p l = l.dropWhile p := by
  have hrev : ∀ a ∈ (l.dropWhile p).reverse.head?, p a = false := by
    intro a ha
    rw [List.head?_reverse] at ha
    obtain ⟨front, hfront⟩ := List.dropWhile_suffix (l := l) p
    refine hlast a ?_
    rw [← hfront, List.getLast?_append, ha]
    rfl
  rw [trimList, dropWhile_eq_self hrev, List.reverse_reverse]

/-- What is dropped at the beginning of a list is dropped from its first piece. -/
theorem splitOn_dropWhile {α : Type*} [BEq α] [LawfulBEq α] {p : α → Bool} {sep : α}
    (hsep : p sep = false) (l : List α) :
    (l.dropWhile p).splitOn sep = (l.splitOn sep).modifyHead (·.dropWhile p) := by
  induction l with
  | nil => simp
  | cons a l ih =>
    obtain ⟨head, tail, hsplit⟩ := List.exists_cons_of_ne_nil (List.splitOn_ne_nil sep l)
    rw [List.splitOn_cons_eq_if_modifyHead]
    cases ha : p a with
    | true =>
      have hne : ¬ (a == sep) = true := by
        intro heq
        rw [beq_iff_eq.1 heq, hsep] at ha
        cases ha
      rw [List.dropWhile_cons_of_pos ha, ih, if_neg hne, hsplit]
      simp [List.dropWhile_cons_of_pos ha]
    | false =>
      have hnot : ¬ p a = true := by rw [ha]; decide
      rw [List.dropWhile_cons_of_neg hnot, List.splitOn_cons_eq_if_modifyHead, hsplit]
      by_cases heq : (a == sep) = true
      · rw [if_pos heq]
        simp
      · rw [if_neg heq]
        simp [List.dropWhile_cons_of_neg hnot]

/-- Dropping the colons at the beginning drops empty pieces. -/
theorem splitOn_dropWhile_colon (l : List Char) :
    (l.dropWhile (· == ':')).splitOn ':' = dropEmpty (l.splitOn ':') := by
  induction l with
  | nil => simp [dropEmpty]
  | cons c l ih =>
    obtain ⟨head, tail, hsplit⟩ := List.exists_cons_of_ne_nil (List.splitOn_ne_nil ':' l)
    by_cases hc : (c == ':') = true
    · rw [List.dropWhile_cons_of_pos (p := (· == ':')) hc, ih,
        List.splitOn_cons_eq_if_modifyHead, if_pos hc, hsplit, dropEmpty]
    · rw [List.dropWhile_cons_of_neg (p := (· == ':')) hc,
        List.splitOn_cons_eq_if_modifyHead, if_neg hc, hsplit, List.modifyHead_cons, dropEmpty]
      simp

theorem toList_keyPrefix : channelAffinityNamespace.keyPrefix.toList =
    "new-api".toList ++ ':' :: ("channel_affinity".toList ++ ':' :: ("v1".toList ++ [':'])) := by
  decide +kernel

theorem keyPrefix_ne_empty : channelAffinityNamespace.keyPrefix ≠ "" := by
  intro h
  have hnil := toList_keyPrefix
  rw [h] at hnil
  simp at hnil

/-- The pieces after the namespace. -/
theorem splitOn_keyPrefix_append (l : List Char) :
    (channelAffinityNamespace.keyPrefix.toList ++ l).splitOn ':' =
      namespaceSegments ++ l.splitOn ':' := by
  have hnew : ("new-api".toList).splitOn ':' = ["new-api".toList] :=
    List.splitOn_eq_singleton (by simp)
  have haffinity : ("channel_affinity".toList).splitOn ':' = ["channel_affinity".toList] :=
    List.splitOn_eq_singleton (by simp)
  have hversion : ("v1".toList).splitOn ':' = ["v1".toList] :=
    List.splitOn_eq_singleton (by simp)
  rw [toList_keyPrefix]
  simp only [List.append_assoc, List.cons_append, List.nil_append]
  rw [List.splitOn_append_cons_self, List.splitOn_append_cons_self,
    List.splitOn_append_cons_self, hnew, haffinity, hversion]
  rfl

/-- A text begins with the namespace when its pieces do and there is one more. -/
theorem keyPrefix_prefix_iff (l : List Char) :
    channelAffinityNamespace.keyPrefix.toList <+: l ↔
      namespaceSegments <+: l.splitOn ':' ∧ l.splitOn ':' ≠ namespaceSegments := by
  constructor
  · rintro ⟨rest, rfl⟩
    rw [splitOn_keyPrefix_append]
    refine ⟨List.prefix_append _ _, fun h => ?_⟩
    exact List.splitOn_ne_nil ':' rest (List.append_right_eq_self.1 h)
  · rintro ⟨⟨rest, hrest⟩, hne⟩
    have hrestne : rest ≠ [] := by
      rintro rfl
      exact hne (by rw [← hrest, List.append_nil])
    have hl : [':'].intercalate (l.splitOn ':') = l := List.intercalate_splitOn ':'
    rw [← hl, ← hrest, toList_keyPrefix]
    refine ⟨[':'].intercalate rest, ?_⟩
    cases rest with
    | nil => exact absurd rfl hrestne
    | cons a rest => simp [namespaceSegments]

/-! ### The two keys of a request -/

section Keys

variable {env : TextMatching}

theorem getLast?_trimSpace (s : String) :
    ∀ a ∈ (trimSpace s).toList.getLast?, isSpace a = false := by
  rw [toList_trimSpace]
  exact trimList_getLast? isSpace s.toList

theorem isSpace_of_isDigit {c : Char} (h : c.isDigit = true) : isSpace c = false := by
  have hlow : 48 ≤ c.toNat := by
    simp only [Char.isDigit, Bool.and_eq_true, decide_eq_true_eq] at h
    exact h.1
  have hhigh : c.toNat ≤ 57 := by
    simp only [Char.isDigit, Bool.and_eq_true, decide_eq_true_eq] at h
    exact h.2
  simp only [isSpace, Bool.or_eq_false_iff, Bool.and_eq_false_iff, List.contains_eq_mem,
    List.mem_cons, List.not_mem_nil, decide_eq_false_iff_not, or_false, not_or]
  omega

/-- A value does not end in white space. -/
theorem extractChannelAffinityValue_last (req : AffinityRequest) (src : ChannelAffinityKeySource) :
    ∀ a ∈ (extractChannelAffinityValue req src).toList.getLast?, isSpace a = false := by
  have hempty : ∀ a ∈ ("" : String).toList.getLast?, isSpace a = false := by simp
  unfold extractChannelAffinityValue
  split
  · split
    · exact hempty
    · split
      · exact hempty
      · intro a ha
        refine isSpace_of_isDigit ?_
        have hmem := List.mem_of_getLast? ha
        rw [Nat.toString_eq_repr, Nat.toList_repr] at hmem
        exact Nat.isDigit_of_mem_toDigits (by decide) (by decide) hmem
  · split
    · split
      · exact hempty
      · exact getLast?_trimSpace _
    · split
      · split
        · exact hempty
        · exact getLast?_trimSpace _
      · split
        · split
          · exact hempty
          · split
            · exact hempty
            · exact getLast?_trimSpace _
        · exact hempty

/-- The value a request is known by is not empty and does not end in white space. -/
theorem affinityValue_last (req : AffinityRequest) (srcs : List ChannelAffinityKeySource) :
    ∀ a ∈ (affinityValue req srcs).toList.getLast?, isSpace a = false := by
  induction srcs with
  | nil => simp [affinityValue]
  | cons src srcs ih =>
    simp only [affinityValue]
    split
    · exact extractChannelAffinityValue_last req src
    · exact ih

theorem matchRule_value {req : AffinityRequest} {rules : List ChannelAffinityRule}
    {m : AffinityMatch} (h : matchRule env req rules = some m) :
    m.value ≠ "" ∧ ∀ a ∈ m.value.toList.getLast?, isSpace a = false := by
  induction rules with
  | nil => cases h
  | cons rule rules ih =>
    rw [matchRule] at h
    split at h
    · exact ih h
    · split at h
      · exact ih h
      · split at h
        · exact ih h
        · simp only at h
          split at h
          · exact ih h
          · rename_i hvalue
            split at h
            · exact ih h
            · cases h
              exact ⟨hvalue, affinityValue_last req rule.keySources⟩

theorem affinityParts_ne_nil (rule : ChannelAffinityRule) (modelName usingGroup value : String) :
    affinityParts rule modelName usingGroup value ≠ [] := by
  simp [affinityParts]

/-- The pieces of a key are those of its parts. -/
theorem splitOn_cacheKeySuffix (m : AffinityMatch) :
    m.cacheKeySuffix.toList.splitOn ':' = segments m.parts :=
  splitOn_joinWith ':' (affinityParts_ne_nil _ _ _ _)

/-- A key ends with the value. -/
theorem cacheKeySuffix_getLast? {m : AffinityMatch} (hvalue : m.value ≠ "") :
    m.cacheKeySuffix.toList.getLast? = m.value.toList.getLast? := by
  obtain ⟨front, hfront⟩ := toList_joinWith_concat ':'
    ((if m.rule.includeRuleName ∧ m.rule.name ≠ "" then [m.rule.name] else []) ++
      (if m.rule.includeModelName ∧ m.modelName ≠ "" then [m.modelName] else []) ++
      (if m.rule.includeUsingGroup ∧ m.usingGroup ≠ "" then [m.usingGroup] else [])) m.value
  have hne : m.value.toList ≠ [] := fun h => hvalue (toList_eq_nil.1 h)
  rw [AffinityMatch.cacheKeySuffix, buildChannelAffinityCacheKeySuffix, affinityParts, hfront,
    List.getLast?_append_of_ne_nil _ hne]

/-- A text that ends in something else than white space. -/
theorem trimSpace_ne_empty {s : String} (hne : s ≠ "")
    (hlast : ∀ a ∈ s.toList.getLast?, isSpace a = false) : trimSpace s ≠ "" := by
  intro hempty
  have hnil := toList_eq_nil.2 hempty
  rw [toList_trimSpace, trimList_eq_dropWhile hlast] at hnil
  have hl : s.toList ≠ [] := fun h => hne (toList_eq_nil.1 h)
  have hall := List.dropWhile_eq_nil_iff.1 hnil _ (List.getLast_mem hl)
  rw [hlast _ (List.getLast?_eq_some_getLast hl)] at hall
  cases hall

variable {m : AffinityMatch}

/-- **The key under which a channel is written**: the namespace and the pieces. -/
theorem toList_writeKey (hvalue : m.value ≠ "")
    (hlast : ∀ a ∈ m.value.toList.getLast?, isSpace a = false) :
    ∃ rest, m.writeKey.toList = channelAffinityNamespace.keyPrefix.toList ++ rest ∧
      rest.splitOn ':' = segments m.parts := by
  refine ⟨m.cacheKeySuffix.toList, ?_, splitOn_cacheKeySuffix m⟩
  have hfull : m.cacheKeyFull.toList =
      channelAffinityNamespace.keyPrefix.toList ++ m.cacheKeySuffix.toList := by
    rw [AffinityMatch.cacheKeyFull, String.toList_append]
    congr 1
  have hsuffix : m.cacheKeySuffix.toList ≠ [] := by
    intro hnil
    have hempty := cacheKeySuffix_getLast? hvalue
    rw [hnil, List.getLast?_nil] at hempty
    exact hvalue (toList_eq_nil.1 (List.getLast?_eq_none_iff.1 hempty.symm))
  have htrim : trimSpace m.cacheKeyFull = m.cacheKeyFull := by
    rw [trimSpace]
    refine (congrArg String.ofList (trimList_eq_self ?_ ?_)).trans String.ofList_toList
    · intro a ha
      refine channelAffinityNamespace.keyPrefix_head? a ?_
      rw [hfull, toList_keyPrefix] at ha
      rw [toList_keyPrefix]
      exact ha
    · intro a ha
      rw [hfull, List.getLast?_append_of_ne_nil _ hsuffix, cacheKeySuffix_getLast? hvalue] at ha
      exact hlast a ha
  have hbegins : hasPrefix m.cacheKeyFull channelAffinityNamespace.keyPrefix = true := by
    rw [hasPrefix_iff_begins, hfull]
    exact List.prefix_append _ _
  have hne : m.cacheKeyFull ≠ "" := by
    intro hempty
    rw [hempty, toList_keyPrefix] at hfull
    exact absurd hfull (by simp)
  rw [AffinityMatch.writeKey, Namespace.fullKey]
  simp only [htrim, if_neg hne, if_neg keyPrefix_ne_empty, hbegins, if_true]
  exact hfull

/-- **The key under which a channel is read**: the namespace and the pieces as they are read. -/
theorem toList_readKey (hvalue : m.value ≠ "")
    (hlast : ∀ a ∈ m.value.toList.getLast?, isSpace a = false) :
    ∃ rest, m.readKey.toList = channelAffinityNamespace.keyPrefix.toList ++ rest ∧
      rest.splitOn ':' = readSegments (segments m.parts) := by
  have hends : ∀ a ∈ m.cacheKeySuffix.toList.getLast?, isSpace a = false := by
    rw [cacheKeySuffix_getLast? hvalue]
    exact hlast
  have hsuffix : m.cacheKeySuffix ≠ "" := by
    intro hempty
    have hnone := cacheKeySuffix_getLast? hvalue
    rw [hempty, String.toList_empty, List.getLast?_nil] at hnone
    exact hvalue (toList_eq_nil.1 (List.getLast?_eq_none_iff.1 hnone.symm))
  have hpieces : (trimSpace m.cacheKeySuffix).toList.splitOn ':' =
      (segments m.parts).modifyHead (·.dropWhile isSpace) := by
    rw [toList_trimSpace, trimList_eq_dropWhile hends, splitOn_dropWhile isSpace_colon,
      splitOn_cacheKeySuffix]
  have hne := trimSpace_ne_empty hsuffix hends
  have hbeginning := keyPrefix_prefix_iff (trimSpace m.cacheKeySuffix).toList
  rw [hpieces, ← hasPrefix_iff_begins] at hbeginning
  rw [AffinityMatch.readKey, Namespace.fullKey, readSegments]
  simp only [if_neg hne, if_neg keyPrefix_ne_empty]
  by_cases hbegins : hasPrefix (trimSpace m.cacheKeySuffix) channelAffinityNamespace.keyPrefix
  · rw [if_pos hbegins, if_pos (hbeginning.1 hbegins), ← hpieces]
    obtain ⟨rest, hrest⟩ := hasPrefix_iff_begins.1 hbegins
    refine ⟨rest, hrest.symm, ?_⟩
    rw [← hrest, splitOn_keyPrefix_append]
    rfl
  · rw [if_neg hbegins, if_neg fun h => hbegins (hbeginning.2 h), ← hpieces]
    refine ⟨(trimLeft ':' (trimSpace m.cacheKeySuffix)).toList, String.toList_append .., ?_⟩
    rw [trimLeft, String.toList_ofList]
    exact splitOn_dropWhile_colon _

/-- Keys of the namespace are the same when the pieces after it are. -/
theorem key_eq_iff {k k' : String} {l l' : List (List Char)}
    (h : ∃ rest, k.toList = channelAffinityNamespace.keyPrefix.toList ++ rest ∧
      rest.splitOn ':' = l)
    (h' : ∃ rest, k'.toList = channelAffinityNamespace.keyPrefix.toList ++ rest ∧
      rest.splitOn ':' = l') : k = k' ↔ l = l' := by
  obtain ⟨rest, hk, rfl⟩ := h
  obtain ⟨rest', hk', rfl⟩ := h'
  rw [← String.toList_inj, hk, hk', List.append_cancel_left_eq, splitOn_inj]

/-- Two pairs have nothing in common. -/
theorem forall_pair_notMem {α : Type*} {a b c d : α} :
    (∀ k ∈ [a, b], k ∉ [c, d]) ↔ ¬ a = c ∧ ¬ a = d ∧ ¬ b = c ∧ ¬ b = d := by
  simp only [List.mem_cons, List.not_mem_nil, or_false, not_or, forall_eq_or_imp, forall_eq,
    and_assoc]

/-- The keys of two requests are different when the pieces of their parts are. -/
theorem keys_apart_iff (x y : AffinityCase env) :
    (∀ k ∈ [x.matched.readKey, x.matched.writeKey],
      k ∉ [y.matched.readKey, y.matched.writeKey]) ↔
      Separated x.matched.parts y.matched.parts := by
  obtain ⟨hx, hxlast⟩ := matchRule_value x.matches_rule
  obtain ⟨hy, hylast⟩ := matchRule_value y.matches_rule
  have hrr := not_congr (key_eq_iff (toList_readKey hx hxlast) (toList_readKey hy hylast))
  have hrw := not_congr (key_eq_iff (toList_readKey hx hxlast) (toList_writeKey hy hylast))
  have hwr := not_congr (key_eq_iff (toList_writeKey hx hxlast) (toList_readKey hy hylast))
  have hww := not_congr (key_eq_iff (toList_writeKey hx hxlast) (toList_writeKey hy hylast))
  rw [Separated, forall_pair_notMem, forall_pair_notMem]
  constructor
  · rintro ⟨h1, h2, h3, h4⟩
    exact ⟨hww.1 h4, hwr.1 h3, hrw.1 h2, hrr.1 h1⟩
  · rintro ⟨h4, h3, h2, h1⟩
    exact ⟨hrr.2 h1, hrw.2 h2, hwr.2 h3, hww.2 h4⟩

end Keys

/-! ### Keeping requests apart -/

section Apart

variable {env : TextMatching} {codec : ValueCodec ℤ} {hot : HotCache}

/-- A value that is set under one key is not found under another, on Redis. -/
theorem redisStep_get_set {n : Namespace} {V : Type*} (codec : ValueCodec V) (s : RedisStore)
    {key key' : String} (value : V) (hne : n.fullKey key' ≠ n.fullKey key) :
    (redisStep n codec (redisStep n codec s ⟨.setWithTTL key value, [], []⟩).1
      ⟨.get key', [], []⟩).2 = (redisStep n codec s ⟨.get key', [], []⟩).2 := by
  have hstore : (redisStep n codec s ⟨.setWithTTL key value, [], []⟩).1 (n.fullKey key') =
      s (n.fullKey key') := by
    simp only [redisStep]
    split
    · rfl
    · split
      · rfl
      · simp only [Function.update_of_ne hne]
  generalize (redisStep n codec s ⟨.setWithTTL key value, [], []⟩).1 = s' at hstore
  simp only [redisStep, hstore]
  by_cases hkey : n.fullKey key' = ""
  · rw [if_pos hkey, if_pos hkey]
  · rw [if_neg hkey, if_neg hkey]
    cases s (n.fullKey key') with
    | none => rfl
    | some raw => cases hdecode : codec.decode raw <;> simp only [hdecode]

theorem memoryStep_get_set {n : Namespace} {V : Type*} (m : MemoryStore V) {key key' : String}
    (value : V) (hne : n.fullKey key' ≠ n.fullKey key) :
    (memoryStep n hot (memoryStep n hot m ⟨.setWithTTL key value, [], []⟩).1
      ⟨.get key', [], []⟩).2 = (memoryStep n hot m ⟨.get key', [], []⟩).2 := by
  have hstore : (memoryStep n hot m ⟨.setWithTTL key value, [], []⟩).1 (n.fullKey key') =
      m (n.fullKey key') := by
    simp only [memoryStep]
    split
    · rfl
    · simp only [Function.update_of_ne hne]
  generalize (memoryStep n hot m ⟨.setWithTTL key value, [], []⟩).1 = m' at hstore
  simp only [memoryStep]
  split
  · rfl
  · rw [hstore]

/-- A channel that is kept under one key is not found under another. -/
theorem AffinityCache.get_set_of_ne (cache : AffinityCache) {key key' : String} (channelID : ℤ)
    (hne : channelAffinityNamespace.fullKey key' ≠ channelAffinityNamespace.fullKey key) :
    (cache.set codec hot key channelID).get codec hot key' = cache.get codec hot key' := by
  cases cache with
  | redis s => exact redisStep_get_set codec s channelID hne
  | memory m => exact memoryStep_get_set m channelID hne

/-- The key that is left in the context of a request. -/
theorem getPreferredChannelByAffinity_key (x : AffinityCase env) (cache : AffinityCache) :
    (getPreferredChannelByAffinity env codec hot x.setting x.req cache).2 =
      if x.setting.enabled then some x.matched.cacheKeyFull else none := by
  rw [getPreferredChannelByAffinity]
  by_cases henabled : x.setting.enabled = true
  · simp only [henabled, not_true, if_false, if_true, x.matches_rule]
    split <;> rfl
  · simp [henabled]

/-- A channel is kept under the key that is written, or not at all. -/
theorem recordChannelAffinity_cases (x : AffinityCase env) (earlier cache : AffinityCache)
    (contextID channelID : ℤ) :
    recordChannelAffinity codec hot x.setting
        (getPreferredChannelByAffinity env codec hot x.setting x.req earlier).2
        contextID channelID cache = cache ∨
      ∃ id, recordChannelAffinity codec hot x.setting
        (getPreferredChannelByAffinity env codec hot x.setting x.req earlier).2
        contextID channelID cache = cache.set codec hot x.matched.cacheKeyFull id := by
  rw [getPreferredChannelByAffinity_key]
  simp only [recordChannelAffinity]
  split
  · exact .inl rfl
  · split
    · exact .inl rfl
    · rename_i key hkey
      split at hkey
      · cases hkey
        split
        · exact .inl rfl
        · exact .inr ⟨_, rfl⟩
      · cases hkey

/-- What a request prefers depends on what is kept under the key it reads. -/
theorem getPreferredChannelByAffinity_congr (y : AffinityCase env) {cache cache' : AffinityCache}
    (h : cache.get codec hot y.matched.cacheKeySuffix =
      cache'.get codec hot y.matched.cacheKeySuffix) :
    getPreferredChannelByAffinity env codec hot y.setting y.req cache =
      getPreferredChannelByAffinity env codec hot y.setting y.req cache' := by
  rw [getPreferredChannelByAffinity, getPreferredChannelByAffinity]
  simp only [y.matches_rule, h]

theorem unaffected_of_ne {x y : AffinityCase env} (hne : y.matched.readKey ≠ x.matched.writeKey) :
    Unaffected env codec hot x y := by
  intro earlier cache contextID channelID
  rcases recordChannelAffinity_cases x earlier cache contextID channelID with h | ⟨id, h⟩
  · rw [h]
  · rw [h, getPreferredChannelByAffinity_congr y (cache.get_set_of_ne id hne)]

variable (codec hot)

/-- **Two requests that are to be told apart never see each other's channels, exactly when the
pieces of their keys differ** — as they are written and as they are read. -/
theorem affinity_apart (x y : AffinityCase env) :
    (x.matched.tuple ≠ y.matched.tuple → Apart env codec hot x y) ↔
      x.matched.tuple = y.matched.tuple ∨ Separated x.matched.parts y.matched.parts := by
  have hkeys := keys_apart_iff x y
  constructor
  · intro h
    by_cases htuple : x.matched.tuple = y.matched.tuple
    · exact .inl htuple
    · exact .inr (hkeys.1 (h htuple).keys)
  · rintro (htuple | hseparated) hne
    · exact absurd htuple hne
    · have hapart := hkeys.2 hseparated
      refine ⟨hapart, unaffected_of_ne ?_, unaffected_of_ne ?_⟩
      · intro heq
        exact hapart x.matched.writeKey (by simp) (by simp [heq])
      · intro heq
        exact hapart x.matched.readKey (by simp) (by simp [heq])

end Apart

/-! ### Two sessions -/

/-- A rule that tells requests apart by a header, and by the model if wanted. -/
def sessionSetting (byModel : Bool) : ChannelAffinitySetting where
  enabled := true
  switchOnSuccess := false
  rules := [⟨"session", ["."], [], [], [⟨"request_header", "Session-Id", ""⟩], "", false, byModel,
    false⟩]

def sessionRequest (modelName value : String) : AffinityRequest where
  modelName := modelName
  usingGroup := "default"
  path := "/v1/chat/completions"
  userAgent := ""
  getInt _ := 0
  getString _ := ""
  header name := if name = "Session-Id" then value else ""
  gjson _ := none

/-- Every text that is not empty matches the pattern of the rule. -/
def anyText : TextMatching where
  compiles _ := true
  matchString _ _ := true
  toLower s := s

/-- Channels are written as decimal numbers. -/
def intCodec : ValueCodec ℤ where
  encode v := .ok (toString v)
  decode s := (trimSpace s).toInt?.elim (.error "invalid syntax") .ok

def sessionCase (byModel : Bool) (modelName value : String)
    (h : (matchRule anyText (sessionRequest modelName value)
      (sessionSetting byModel).rules).isSome) : AffinityCase anyText where
  setting := sessionSetting byModel
  req := sessionRequest modelName value
  matched := (matchRule anyText (sessionRequest modelName value)
    (sessionSetting byModel).rules).get h
  matches_rule := (Option.some_get h).symm

/-- Two sessions are mixed up when the second prefers the channel that is kept for the first. -/
theorem crosses_of_seen {x y : AffinityCase anyText} (htuple : x.matched.tuple ≠ y.matched.tuple)
    (hempty : (getPreferredChannelByAffinity anyText intCodec plainHot y.setting y.req
      (.memory fun _ => none)).1 = (0, false))
    (hkept : (getPreferredChannelByAffinity anyText intCodec plainHot y.setting y.req
      (recordChannelAffinity intCodec plainHot x.setting
        (getPreferredChannelByAffinity anyText intCodec plainHot x.setting x.req
          (.memory fun _ => none)).2 0 7 (.memory fun _ => none))).1 = (7, true)) :
    let preferred := fun (x : AffinityCase anyText) cache =>
      getPreferredChannelByAffinity anyText intCodec plainHot x.setting x.req cache
    let empty : AffinityCache := .memory fun _ => none
    let kept := fun (x : AffinityCase anyText) =>
      recordChannelAffinity intCodec plainHot x.setting (preferred x empty).2 0 7 empty
    x.matched.tuple ≠ y.matched.tuple ∧ (preferred y empty).1 = (0, false) ∧
      (preferred y (kept x)).1 = (7, true) ∧ ¬ Apart anyText intCodec plainHot x y := by
  intro preferred empty kept
  refine ⟨htuple, hempty, hkept, fun h => ?_⟩
  have hsame := h.left empty empty 0 7
  rw [hkept, hempty] at hsame
  exact absurd hsame (by decide)

/-- **A colon in a value reaches another model's session, and a colon before it another
client's**: the channel kept for the one request is what the other prefers. -/
theorem affinity_crosses :
    let preferred := fun (x : AffinityCase anyText) cache =>
      getPreferredChannelByAffinity anyText intCodec plainHot x.setting x.req cache
    let empty : AffinityCache := .memory fun _ => none
    let kept := fun (x : AffinityCase anyText) =>
      recordChannelAffinity intCodec plainHot x.setting (preferred x empty).2 0 7 empty
    let x := sessionCase true "llama3" "8b:x" (by decide +kernel)
    let y := sessionCase true "llama3:8b" "x" (by decide +kernel)
    let v := sessionCase false "llama3" "x" (by decide +kernel)
    let w := sessionCase false "llama3" ":x" (by decide +kernel)
    (x.matched.tuple ≠ y.matched.tuple ∧ (preferred y empty).1 = (0, false) ∧
      (preferred y (kept x)).1 = (7, true) ∧ ¬ Apart anyText intCodec plainHot x y) ∧
    (v.matched.tuple ≠ w.matched.tuple ∧ (preferred w empty).1 = (0, false) ∧
      (preferred w (kept v)).1 = (7, true) ∧ ¬ Apart anyText intCodec plainHot v w) := by
  intro preferred empty kept x y v w
  exact ⟨crosses_of_seen (by decide +kernel) (by decide +kernel) (by decide +kernel),
    crosses_of_seen (by decide +kernel) (by decide +kernel) (by decide +kernel)⟩

end NewApi
