/-
**A cache in Redis or in memory.**

A hybrid cache keeps its values in Redis when that is enabled, and in the memory of the process
otherwise.  Its keys are put into a namespace first.  On Redis the keys of a prefix are found by a
scan with a glob pattern and removed one by one; in memory they are found by comparing prefixes.
Both are maps from full keys to values, as long as no prefix has characters that are special in a
pattern and no key is removed twice in one call.

Main definitions:

* `NewApi.Namespace.fullKey` — the key under which a value is kept;
* `NewApi.redisStep`, `NewApi.memoryStep` — one operation on each of the two;
* `NewApi.Meets` — what an operation is for, on a map from full keys to values;
* `NewApi.CacheAction.Answered` — what the server and the library promise of their answers;
* `NewApi.CacheAction.Plain` — an operation whose prefix is plain and whose keys are not repeated.

Main results:

* `NewApi.Namespace.fullKey_fullKey` — a full key is its own full key;
* `NewApi.hybrid_same` — **both caches do what the operations are for and answer alike**, in every
  run of plain operations, and leave the keys outside the namespace alone;
* `NewApi.hybrid_differ` — a prefix with a star, and a repeated key.
-/

import NewApi.Lib.Glob
import NewApi.Lib.Transition
import NewApi.SeparatedText
import Mathlib.Data.List.DropRight

set_option autoImplicit false

namespace NewApi

/-! ### Namespaces -/

/-- `strings.TrimLeft` with one character. -/
def trimLeft (c : Char) (s : String) : String := String.ofList (s.toList.dropWhile (· == c))

/-- `strings.TrimRight` with one character. -/
def trimRight (c : Char) (s : String) : String := String.ofList (s.toList.rdropWhile (· == c))

structure Namespace where
  name : String
deriving DecidableEq, Repr

/-- What every full key begins with. -/
def Namespace.keyPrefix (n : Namespace) : String :=
  let ns := trimRight ':' (trimSpace n.name)
  if ns = "" then "" else ns ++ ":"

def Namespace.fullKey (n : Namespace) (key : String) : String :=
  let key := trimSpace key
  let p := n.keyPrefix
  if key = "" then ""
  else if p = "" then trimLeft ':' key
  else if hasPrefix key p then key
  else p ++ trimLeft ':' key

def Namespace.matchPattern (n : Namespace) : String := n.keyPrefix ++ "*"

/-- A key of the namespace. -/
def Namespace.Has (n : Namespace) (key : String) : Prop := n.keyPrefix.toList <+: key.toList

instance (n : Namespace) (key : String) : Decidable (n.Has key) := by
  unfold Namespace.Has
  infer_instance

/-! ### Full keys -/

theorem hasPrefix_iff_begins {s p : String} : hasPrefix s p = true ↔ p.toList <+: s.toList :=
  List.isPrefixOf_iff_prefix

theorem toList_trimSpace (s : String) : (trimSpace s).toList = trimList isSpace s.toList := by
  rw [trimSpace, String.toList_ofList]

theorem toList_eq_nil {s : String} : s.toList = [] ↔ s = "" := by
  rw [← String.toList_empty, String.toList_inj]

/-- A trimmed list neither begins nor ends with what has been trimmed. -/
theorem trimList_head? {α : Type*} (p : α → Bool) (l : List α) :
    ∀ a ∈ (trimList p l).head?, p a = false := by
  have h := head?_dropWhile p (trimList p l)
  have hcut : (trimList p l).dropWhile p = trimList p l := by
    have htwice := trimList_trimList p l
    by_contra hne
    have hlen : ((trimList p l).dropWhile p).length < (trimList p l).length := by
      refine lt_of_le_of_ne (List.dropWhile_sublist p).length_le fun heq => hne ?_
      exact (List.dropWhile_sublist p).eq_of_length heq
    have hle : (trimList p (trimList p l)).length ≤ ((trimList p l).dropWhile p).length := by
      have := (List.dropWhile_sublist (l := ((trimList p l).dropWhile p).reverse) p).length_le
      simpa [trimList] using this
    rw [htwice] at hle
    omega
  rwa [hcut] at h

theorem trimList_getLast? {α : Type*} (p : α → Bool) (l : List α) :
    ∀ a ∈ (trimList p l).getLast?, p a = false := by
  intro a ha
  rw [trimList, List.getLast?_reverse] at ha
  exact head?_dropWhile p _ a ha

theorem isSpace_colon : isSpace ':' = false := by decide

/-- The prefix of a namespace does not begin with white space. -/
theorem Namespace.keyPrefix_head? (n : Namespace) :
    ∀ a ∈ n.keyPrefix.toList.head?, isSpace a = false := by
  intro a ha
  simp only [keyPrefix] at ha
  split at ha
  · simp at ha
  · rename_i hne
    have hnil : (trimRight ':' (trimSpace n.name)).toList ≠ [] := fun h => hne (toList_eq_nil.1 h)
    have hprefix : (trimRight ':' (trimSpace n.name)).toList <+: (trimSpace n.name).toList := by
      rw [trimRight, String.toList_ofList]
      exact List.rdropWhile_prefix _ _
    obtain ⟨rest, hrest⟩ := hprefix
    refine trimList_head? isSpace n.name.toList a ?_
    rw [← toList_trimSpace, ← hrest]
    rw [String.toList_append] at ha
    cases hl : (trimRight ':' (trimSpace n.name)).toList with
    | nil => exact absurd hl hnil
    | cons b l =>
      rw [hl] at ha
      simpa using ha

/-- A full key begins with the prefix of the namespace. -/
theorem Namespace.has_fullKey {n : Namespace} {key : String} (hfull : n.fullKey key ≠ "") :
    n.Has (n.fullKey key) := by
  unfold Has
  simp only [fullKey] at hfull ⊢
  by_cases hkey : trimSpace key = ""
  · rw [if_pos hkey] at hfull
    exact absurd rfl hfull
  · rw [if_neg hkey] at hfull ⊢
    by_cases hp : n.keyPrefix = ""
    · rw [hp]
      exact List.nil_prefix
    · rw [if_neg hp] at hfull ⊢
      split
      · rename_i hprefix
        exact hasPrefix_iff_begins.1 hprefix
      · rw [String.toList_append]
        exact List.prefix_append _ _

/-- **A full key is its own full key**, in a namespace that has a name. -/
theorem Namespace.fullKey_fullKey {n : Namespace} (hp : n.keyPrefix ≠ "") (key : String) :
    n.fullKey (n.fullKey key) = n.fullKey key := by
  by_cases hfull : n.fullKey key = ""
  · rw [hfull]
    simp [fullKey]
  have hhas := n.has_fullKey hfull
  -- neither end of a full key is white space
  have htrim : trimSpace (n.fullKey key) = n.fullKey key := by
    rw [trimSpace]
    refine (congrArg String.ofList (trimList_eq_self ?_ ?_)).trans (String.ofList_toList)
    · intro a ha
      refine n.keyPrefix_head? a ?_
      obtain ⟨rest, hrest⟩ := hhas
      rw [← hrest] at ha
      cases hl : n.keyPrefix.toList with
      | nil => exact absurd (toList_eq_nil.1 hl) hp
      | cons b l =>
        rw [hl] at ha
        simpa using ha
    · intro a ha
      simp only [fullKey] at hfull ha
      by_cases hkey : trimSpace key = ""
      · rw [if_pos hkey] at hfull
        exact absurd rfl hfull
      · rw [if_neg hkey, if_neg hp] at ha
        have hlast := trimList_getLast? isSpace key.toList
        rw [← toList_trimSpace] at hlast
        split at ha
        · exact hlast a ha
        · rw [String.toList_append, trimLeft, String.toList_ofList] at ha
          cases hrest : (trimSpace key).toList.dropWhile (· == ':') with
          | nil =>
            rw [hrest, List.append_nil] at ha
            simp only [keyPrefix] at ha hp
            split at ha
            · simp at ha
            · rw [String.toList_append] at ha
              have : ':' = a := by simpa using ha
              rw [← this]
              exact isSpace_colon
          | cons b l =>
            rw [hrest, List.getLast?_append_of_ne_nil _ (by simp)] at ha
            refine hlast a ?_
            obtain ⟨front, hfront⟩ := List.dropWhile_suffix (l := (trimSpace key).toList) (· == ':')
            rw [← hfront, hrest, List.getLast?_append_of_ne_nil _ (by simp)]
            exact ha
  have hkeep : hasPrefix (n.fullKey key) n.keyPrefix = true := hasPrefix_iff_begins.2 hhas
  conv_lhs => rw [fullKey]
  simp only [htrim, if_neg hfull, if_neg hp, hkeep, if_true]

/-! ### The two stores -/

/-- How values are written in Redis. -/
structure ValueCodec (V : Type*) where
  encode : V → Except String String
  decode : String → Except String V

/-- The keys of Redis, all of them, with their values. -/
abbrev RedisStore := String → Option String

/-- The full keys of the memory cache with their values. -/
abbrev MemoryStore (V : Type*) := String → Option V

/-- What the library of the memory cache reports when it removes keys: for keys that are not
repeated, whether each was there. -/
structure HotCache where
  report : (String → Bool) → List String → String → Bool
  report_nodup : ∀ present keys, keys.Nodup → ∀ k ∈ keys, report present keys k = present k

inductive CacheOp (V : Type*) where
  | setWithTTL (key : String) (value : V)
  | get (key : String)
  | keys
  | purge
  | deleteMany (keys : List String)
  | deleteByPrefix (pre : String)

inductive CacheResult (V : Type*) where
  | stored (err : Option String)
  | found (value : Option V) (err : Option String)
  | keys (keys : List String)
  | purged
  | report (res : String → Option Bool)
  | deleted (count : ℕ)

/-- An operation, with the keys a scan of Redis answers and those the memory cache lists. -/
structure CacheAction (V : Type*) where
  op : CacheOp V
  scan : List String
  listed : List String

/-- The keys of a call to `DeleteMany`, as they are removed. -/
def Namespace.fullKeys (n : Namespace) (keys : List String) : List String :=
  (keys.map n.fullKey).filter (· ≠ "")

/-- The beginning of the keys that `DeleteByPrefix` removes. -/
def Namespace.fullPrefix (n : Namespace) (pre : String) : String :=
  let full := n.fullKey pre
  if ":".toList.isSuffixOf full.toList then full else full ++ ":"

/-- The keys are removed one by one, and it is noted for each whether it was there. -/
def unlinkAll : List String → RedisStore → (String → Option Bool) →
    RedisStore × (String → Option Bool)
  | [], s, res => (s, res)
  | k :: keys, s, res =>
    unlinkAll keys (Function.update s k none) (Function.update res k (some (s k).isSome))

section Step

variable {V : Type*} (n : Namespace) (codec : ValueCodec V) (hot : HotCache)

def redisDeleteMany (keys : List String) (s : RedisStore) : RedisStore × (String → Option Bool) :=
  unlinkAll (n.fullKeys keys) s fun _ => none

def memoryDeleteMany (keys : List String) (m : MemoryStore V) :
    MemoryStore V × (String → Option Bool) :=
  (fun k => if k ∈ n.fullKeys keys then none else m k,
    fun k =>
      if k ∈ n.fullKeys keys then
        some (hot.report (fun k => (m k).isSome) (n.fullKeys keys) k)
      else none)

/-- How many of the keys have been reported as removed. -/
def countDeleted (keys : List String) (res : String → Option Bool) : ℕ :=
  ((n.fullKeys keys).dedup.filter fun k => res k = some true).length

/-- One operation on Redis. -/
def redisStep (s : RedisStore) (a : CacheAction V) : RedisStore × CacheResult V :=
  match a.op with
  | .setWithTTL key value =>
    if n.fullKey key = "" then (s, .stored none)
    else
      match codec.encode value with
      | .error e => (s, .stored (some e))
      | .ok raw => (Function.update s (n.fullKey key) (some raw), .stored none)
  | .get key =>
    if n.fullKey key = "" then (s, .found none none)
    else
      match s (n.fullKey key) with
      | none => (s, .found none none)
      | some raw =>
        match codec.decode raw with
        | .error e => (s, .found none (some e))
        | .ok value => (s, .found (some value) none)
  | .keys => (s, .keys a.scan)
  | .purge => if a.scan = [] then (s, .purged) else ((redisDeleteMany n a.scan s).1, .purged)
  | .deleteMany keys =>
    let r := redisDeleteMany n keys s
    (r.1, .report r.2)
  | .deleteByPrefix pre =>
    if n.fullKey pre = "" ∨ a.scan = [] then (s, .deleted 0)
    else
      let r := redisDeleteMany n a.scan s
      (r.1, .deleted (countDeleted n a.scan r.2))

/-- One operation in memory. -/
def memoryStep (m : MemoryStore V) (a : CacheAction V) : MemoryStore V × CacheResult V :=
  match a.op with
  | .setWithTTL key value =>
    if n.fullKey key = "" then (m, .stored none)
    else (Function.update m (n.fullKey key) (some value), .stored none)
  | .get key =>
    if n.fullKey key = "" then (m, .found none none) else (m, .found (m (n.fullKey key)) none)
  | .keys => (m, .keys a.listed)
  | .purge => (fun _ => none, .purged)
  | .deleteMany keys =>
    let r := memoryDeleteMany n hot keys m
    (r.1, .report r.2)
  | .deleteByPrefix pre =>
    let keys := a.listed.filter fun k => hasPrefix k (n.fullPrefix pre)
    if n.fullKey pre = "" ∨ keys = [] then (m, .deleted 0)
    else
      let r := memoryDeleteMany n hot keys m
      (r.1, .deleted (countDeleted n keys r.2))

/-- Two caches that are given the same operations. -/
structure HybridStores (V : Type*) where
  redis : RedisStore
  memory : MemoryStore V

def hybridStep (s : HybridStores V) (a : CacheAction V) : HybridStores V where
  redis := (redisStep n codec s.redis a).1
  memory := (memoryStep n hot s.memory a).1

/-! ### What the operations are for -/

/-- An operation on a map from full keys to values: what it answers and leaves behind. -/
def Meets (m : String → Option V) (op : CacheOp V) (r : CacheResult V)
    (m' : String → Option V) : Prop :=
  match op with
  | .setWithTTL key value => r = .stored none ∧
      m' = if n.fullKey key = "" then m else Function.update m (n.fullKey key) (some value)
  | .get key => r = .found (if n.fullKey key = "" then none else m (n.fullKey key)) none ∧ m' = m
  | .keys => (∃ l, r = .keys l ∧ ∀ k, k ∈ l ↔ (m k).isSome) ∧ m' = m
  | .purge => r = .purged ∧ m' = fun _ => none
  | .deleteMany keys =>
    r = .report (fun k => if k ∈ n.fullKeys keys then some (m k).isSome else none) ∧
      m' = fun k => if k ∈ n.fullKeys keys then none else m k
  | .deleteByPrefix pre =>
    if n.fullKey pre = "" then r = .deleted 0 ∧ m' = m
    else ∃ l : List String, l.Nodup ∧
      (∀ k, k ∈ l ↔ (m k).isSome ∧ (n.fullKey pre ++ ":").toList <+: k.toList) ∧
      r = .deleted l.length ∧ m' = fun k => if k ∈ l then none else m k

/-- Two answers that are alike: keys are listed in any order. -/
def SameResult : CacheResult V → CacheResult V → Prop
  | .keys l, .keys l' => ∀ k, k ∈ l ↔ k ∈ l'
  | r, r' => r = r'

/-- Both caches do what an operation is for and answer alike, and the keys outside the namespace
are left alone. -/
def Agree (s : HybridStores V) (a : CacheAction V) : Prop :=
  SameResult (redisStep n codec s.redis a).2 (memoryStep n hot s.memory a).2 ∧
    Meets n s.memory a.op (memoryStep n hot s.memory a).2 (memoryStep n hot s.memory a).1 ∧
    ∀ k, ¬ n.Has k → (redisStep n codec s.redis a).1 k = s.redis k

/-- What a scan for a pattern answers: the keys there are that match, in any order. -/
def ScanAnswers (s : RedisStore) (pattern : String) (scan : List String) : Prop :=
  ∀ k, k ∈ scan ↔ (s k).isSome ∧ Glob.Matches pattern.toList k.toList

/-- What the memory cache lists: its keys, each once. -/
def ListAnswers (m : MemoryStore V) (listed : List String) : Prop :=
  listed.Nodup ∧ ∀ k, k ∈ listed ↔ (m k).isSome

/-- The server and the library answer as they promise. -/
def CacheAction.Answered (s : HybridStores V) (a : CacheAction V) : Prop :=
  match a.op with
  | .keys => ScanAnswers s.redis n.matchPattern a.scan ∧ ListAnswers s.memory a.listed
  | .purge => ScanAnswers s.redis n.matchPattern a.scan
  | .deleteByPrefix pre => ScanAnswers s.redis (n.fullPrefix pre ++ "*") a.scan ∧
      ListAnswers s.memory a.listed
  | _ => True

/-- A value is read as it has been written, no key is removed twice in one call, by name or by a
scan, and a prefix has no special characters and does not end in a separator. -/
def CacheAction.Plain (a : CacheAction V) : Prop :=
  match a.op with
  | .setWithTTL _ value => ∃ raw, codec.encode value = .ok raw ∧ codec.decode raw = .ok value
  | .deleteMany keys => (n.fullKeys keys).Nodup
  | .deleteByPrefix pre => Glob.Plain (n.fullKey pre).toList ∧
      ¬ ":".toList <:+ (n.fullKey pre).toList ∧ a.scan.Nodup
  | _ => True

end Step

/-! ### Removing keys -/

theorem unlinkAll_store (keys : List String) (s : RedisStore) (res : String → Option Bool) :
    (unlinkAll keys s res).1 = fun k => if k ∈ keys then none else s k := by
  induction keys generalizing s res with
  | nil => simp [unlinkAll]
  | cons key keys ih =>
    rw [unlinkAll, ih]
    funext k
    by_cases hk : k = key
    · subst hk
      simp
    · simp [hk]

/-- Keys that are not repeated are reported as they were. -/
theorem unlinkAll_report {keys : List String} (h : keys.Nodup) (s : RedisStore)
    (res : String → Option Bool) :
    (unlinkAll keys s res).2 = fun k => if k ∈ keys then some (s k).isSome else res k := by
  induction keys generalizing s res with
  | nil => simp [unlinkAll]
  | cons key keys ih =>
    obtain ⟨hkey, hkeys⟩ := List.nodup_cons.1 h
    rw [unlinkAll, ih hkeys]
    funext k
    by_cases hk : k = key
    · subst hk
      simp [hkey]
    · simp [hk]

section Agreement

variable {V : Type*} {n : Namespace} {codec : ValueCodec V} {hot : HotCache}

theorem fullKeys_of_full {keys : List String} (h : ∀ k ∈ keys, n.fullKey k = k ∧ k ≠ "") :
    n.fullKeys keys = keys := by
  have hmap : keys.map n.fullKey = keys := by
    conv_rhs => rw [← List.map_id keys]
    exact List.map_congr_left fun k hk => (h k hk).1
  rw [Namespace.fullKeys, hmap, List.filter_eq_self]
  intro k hk
  simpa using (h k hk).2

/-- Keys that are not repeated and all there are counted in full. -/
theorem countDeleted_eq {keys : List String} {res : String → Option Bool}
    (hfull : n.fullKeys keys = keys) (hnodup : keys.Nodup)
    (hres : ∀ k ∈ keys, res k = some true) : countDeleted n keys res = keys.length := by
  rw [countDeleted, hfull, hnodup.dedup, List.filter_eq_self.2]
  intro k hk
  simpa using hres k hk

/-- The two caches hold the same, and Redis holds something else outside the namespace. -/
structure HybridInv (n : Namespace) (codec : ValueCodec V) (others : RedisStore)
    (s : HybridStores V) : Prop where
  stored : ∀ k v, s.memory k = some v → n.fullKey k = k ∧ n.Has k ∧
    ∃ raw, s.redis k = some raw ∧ codec.decode raw = .ok v
  absent : ∀ k, n.Has k → s.memory k = none → s.redis k = none
  outside : ∀ k, ¬ n.Has k → s.redis k = others k

variable {others : RedisStore} {s : HybridStores V}

theorem HybridInv.ne_empty (h : HybridInv n codec others s) (hp : n.keyPrefix ≠ "") {k : String}
    (hk : (s.memory k).isSome) : n.fullKey k = k ∧ k ≠ "" := by
  obtain ⟨v, hv⟩ := Option.isSome_iff_exists.1 hk
  obtain ⟨hfull, hhas, -⟩ := h.stored k v hv
  refine ⟨hfull, ?_⟩
  rintro rfl
  exact hp (toList_eq_nil.1 (List.prefix_nil.1 hhas))

theorem HybridInv.isSome_iff (h : HybridInv n codec others s) {k : String} (hk : n.Has k) :
    (s.redis k).isSome ↔ (s.memory k).isSome := by
  cases hv : s.memory k with
  | none =>
    rw [h.absent k hk hv]
    simp
  | some v =>
    obtain ⟨-, -, raw, hraw, -⟩ := h.stored k v hv
    rw [hraw]
    rfl

theorem HybridInv.has (h : HybridInv n codec others s) {k : String}
    (hk : (s.memory k).isSome) : n.Has k := by
  obtain ⟨v, hv⟩ := Option.isSome_iff_exists.1 hk
  exact (h.stored k v hv).2.1

/-- A scan for a plain beginning inside the namespace answers the keys that begin with it. -/
theorem HybridInv.mem_scan (h : HybridInv n codec others s) {beginning : String}
    {scan : List String} (hplain : Glob.Plain beginning.toList)
    (hinside : n.keyPrefix.toList <+: beginning.toList)
    (hscan : ScanAnswers s.redis (beginning ++ "*") scan) (k : String) :
    k ∈ scan ↔ (s.memory k).isSome ∧ beginning.toList <+: k.toList := by
  have hpattern : (beginning ++ "*").toList = beginning.toList ++ ['*'] := by
    rw [String.toList_append]
    rfl
  rw [hscan k, hpattern, Glob.matches_plain_star hplain]
  constructor
  · rintro ⟨hredis, hbegins⟩
    exact ⟨(h.isSome_iff (hinside.trans hbegins)).1 hredis, hbegins⟩
  · rintro ⟨hmemory, hbegins⟩
    exact ⟨(h.isSome_iff (hinside.trans hbegins)).2 hmemory, hbegins⟩

/-- The same keys are removed from both caches. -/
theorem HybridInv.remove (h : HybridInv n codec others s) {keys : List String}
    (hkeys : ∀ k ∈ keys, n.Has k) :
    HybridInv n codec others
      { redis := fun k => if k ∈ keys then none else s.redis k
        memory := fun k => if k ∈ keys then none else s.memory k } := by
  refine ⟨?_, ?_, ?_⟩
  · intro k v hv
    simp only at hv ⊢
    by_cases hk : k ∈ keys
    · rw [if_pos hk] at hv
      cases hv
    · rw [if_neg hk] at hv ⊢
      exact h.stored k v hv
  · intro k hhas hnone
    simp only at hnone ⊢
    by_cases hk : k ∈ keys
    · rw [if_pos hk]
    · rw [if_neg hk] at hnone ⊢
      exact h.absent k hhas hnone
  · intro k hhas
    have hk : k ∉ keys := fun hk => hhas (hkeys k hk)
    simp only [if_neg hk]
    exact h.outside k hhas

theorem has_of_mem_fullKeys {keys : List String} {k : String} (hk : k ∈ n.fullKeys keys) :
    n.Has k := by
  obtain ⟨hmem, hne⟩ := List.mem_filter.1 hk
  obtain ⟨key, -, rfl⟩ := List.mem_map.1 hmem
  exact n.has_fullKey (by simpa using hne)

/-! ### One operation -/

theorem HybridInv.set (h : HybridInv n codec others s) (hp : n.keyPrefix ≠ "") {key raw : String}
    {value : V} (hfull : n.fullKey key ≠ "") (hdecode : codec.decode raw = .ok value) :
    HybridInv n codec others
      { redis := Function.update s.redis (n.fullKey key) (some raw)
        memory := Function.update s.memory (n.fullKey key) (some value) } := by
  have hhas := n.has_fullKey hfull
  refine ⟨?_, ?_, ?_⟩
  · intro k v hv
    simp only at hv ⊢
    by_cases hk : k = n.fullKey key
    · subst hk
      rw [Function.update_self] at hv ⊢
      cases hv
      exact ⟨n.fullKey_fullKey hp key, hhas, raw, rfl, hdecode⟩
    · rw [Function.update_of_ne hk] at hv ⊢
      exact h.stored k v hv
  · intro k hkhas hnone
    simp only at hnone ⊢
    by_cases hk : k = n.fullKey key
    · subst hk
      rw [Function.update_self] at hnone
      cases hnone
    · rw [Function.update_of_ne hk] at hnone ⊢
      exact h.absent k hkhas hnone
  · intro k hkhas
    have hk : k ≠ n.fullKey key := by
      rintro rfl
      exact hkhas hhas
    simp only [Function.update_of_ne hk]
    exact h.outside k hkhas

/-- The next states of the two caches, and that they agree. -/
structure StepOk (n : Namespace) (codec : ValueCodec V) (hot : HotCache) (others : RedisStore)
    (s : HybridStores V) (a : CacheAction V) : Prop where
  inv : HybridInv n codec others (hybridStep n codec hot s a)
  agree : Agree n codec hot s a

theorem stepOk_set (h : HybridInv n codec others s) (hp : n.keyPrefix ≠ "") {key : String}
    {value : V} {scan listed : List String} {raw : String} (hencode : codec.encode value = .ok raw)
    (hdecode : codec.decode raw = .ok value) :
    StepOk n codec hot others s ⟨.setWithTTL key value, scan, listed⟩ := by
  by_cases hfull : n.fullKey key = ""
  · have hstep : hybridStep n codec hot s ⟨.setWithTTL key value, scan, listed⟩ = s := by
      simp only [hybridStep, redisStep, memoryStep, if_pos hfull]
    refine ⟨by rwa [hstep], ?_⟩
    simp only [Agree, redisStep, memoryStep, Meets, if_pos hfull]
    exact ⟨rfl, ⟨trivial, trivial⟩, fun _ _ => trivial⟩
  · have hstep : hybridStep n codec hot s ⟨.setWithTTL key value, scan, listed⟩ =
        { redis := Function.update s.redis (n.fullKey key) (some raw)
          memory := Function.update s.memory (n.fullKey key) (some value) } := by
      simp only [hybridStep, redisStep, memoryStep, if_neg hfull, hencode]
    refine ⟨by rw [hstep]; exact h.set hp hfull hdecode, ?_⟩
    simp only [Agree, redisStep, memoryStep, Meets, if_neg hfull, hencode]
    refine ⟨rfl, ⟨trivial, trivial⟩, fun k hk => Function.update_of_ne ?_ _ _⟩
    rintro rfl
    exact hk (n.has_fullKey hfull)

theorem stepOk_get (h : HybridInv n codec others s) {key : String} {scan listed : List String} :
    StepOk n codec hot others s ⟨.get key, scan, listed⟩ := by
  have hmemory : memoryStep n hot s.memory ⟨.get key, scan, listed⟩ =
      (s.memory, .found (if n.fullKey key = "" then none else s.memory (n.fullKey key)) none) := by
    by_cases hfull : n.fullKey key = ""
    · simp only [memoryStep, if_pos hfull]
    · simp only [memoryStep, if_neg hfull]
  have hredis : redisStep n codec s.redis (⟨.get key, scan, listed⟩ : CacheAction V) =
      (s.redis, .found (if n.fullKey key = "" then none else s.memory (n.fullKey key)) none) := by
    by_cases hfull : n.fullKey key = ""
    · simp only [redisStep, if_pos hfull]
    · cases hv : s.memory (n.fullKey key) with
      | none =>
        have hnone := h.absent _ (n.has_fullKey hfull) hv
        simp only [redisStep, if_neg hfull, hnone]
      | some v =>
        obtain ⟨-, -, raw, hraw, hdecode⟩ := h.stored _ v hv
        simp only [redisStep, if_neg hfull, hraw, hdecode]
  have hstep : hybridStep n codec hot s ⟨.get key, scan, listed⟩ = s := by
    rw [hybridStep, hredis, hmemory]
  refine ⟨by rwa [hstep], ?_⟩
  rw [Agree, hredis, hmemory]
  exact ⟨rfl, ⟨rfl, rfl⟩, fun _ _ => rfl⟩

theorem stepOk_keys (h : HybridInv n codec others s) (hplain : Glob.Plain n.keyPrefix.toList)
    {scan listed : List String} (hscan : ScanAnswers s.redis n.matchPattern scan)
    (hlisted : ListAnswers s.memory listed) :
    StepOk n codec hot others s ⟨.keys, scan, listed⟩ := by
  refine ⟨h, ⟨?_, ⟨⟨listed, rfl, hlisted.2⟩, rfl⟩, fun _ _ => rfl⟩⟩
  intro k
  rw [h.mem_scan hplain List.prefix_rfl hscan k, hlisted.2 k]
  exact ⟨And.left, fun hk => ⟨hk, h.has hk⟩⟩

/-- What Redis removes, whether or not there is anything to remove. -/
theorem redisDeleteMany_store {keys : List String} (hfull : n.fullKeys keys = keys)
    (r : RedisStore) : (redisDeleteMany n keys r).1 = fun k => if k ∈ keys then none else r k := by
  rw [redisDeleteMany, unlinkAll_store, hfull]

theorem stepOk_purge (h : HybridInv n codec others s) (hp : n.keyPrefix ≠ "")
    (hplain : Glob.Plain n.keyPrefix.toList) {scan listed : List String}
    (hscan : ScanAnswers s.redis n.matchPattern scan) :
    StepOk n codec hot others s ⟨.purge, scan, listed⟩ := by
  have hmem : ∀ k, k ∈ scan ↔ (s.memory k).isSome := by
    intro k
    rw [h.mem_scan hplain List.prefix_rfl hscan k]
    exact ⟨And.left, fun hk => ⟨hk, h.has hk⟩⟩
  have hhas : ∀ k ∈ scan, n.Has k := fun k hk => h.has ((hmem k).1 hk)
  have hfull : n.fullKeys scan = scan :=
    fullKeys_of_full fun k hk => h.ne_empty hp ((hmem k).1 hk)
  have hredis : redisStep n codec s.redis (⟨.purge, scan, listed⟩ : CacheAction V) =
      (fun k => if k ∈ scan then none else s.redis k, .purged) := by
    simp only [redisStep]
    split
    · rename_i hnil
      simp [hnil]
    · rw [redisDeleteMany_store hfull]
  have hmemory : (fun _ => none : MemoryStore V) =
      fun k => if k ∈ scan then none else s.memory k := by
    funext k
    by_cases hk : k ∈ scan
    · rw [if_pos hk]
    · rw [if_neg hk]
      exact (Option.not_isSome_iff_eq_none.1 ((hmem k).not.1 hk)).symm
  refine ⟨?_, ?_⟩
  · rw [hybridStep, hredis]
    simp only [memoryStep, hmemory]
    exact h.remove hhas
  · rw [Agree, hredis]
    refine ⟨rfl, ⟨rfl, rfl⟩, fun k hk => if_neg ?_⟩
    exact fun hmem' => hk (hhas k hmem')

theorem stepOk_deleteMany (h : HybridInv n codec others s) {keys scan listed : List String}
    (hnodup : (n.fullKeys keys).Nodup) :
    StepOk n codec hot others s ⟨.deleteMany keys, scan, listed⟩ := by
  have hhas : ∀ k ∈ n.fullKeys keys, n.Has k := fun k hk => has_of_mem_fullKeys hk
  have hreport : (redisDeleteMany n keys s.redis).2 =
      fun k => if k ∈ n.fullKeys keys then some (s.memory k).isSome else none := by
    rw [redisDeleteMany, unlinkAll_report hnodup]
    funext k
    by_cases hk : k ∈ n.fullKeys keys
    · rw [if_pos hk, if_pos hk, Bool.eq_iff_iff.2 (h.isSome_iff (hhas k hk))]
    · rw [if_neg hk, if_neg hk]
  have hmemory : (memoryDeleteMany n hot keys s.memory).2 =
      fun k => if k ∈ n.fullKeys keys then some (s.memory k).isSome else none := by
    funext k
    simp only [memoryDeleteMany]
    by_cases hk : k ∈ n.fullKeys keys
    · rw [if_pos hk, if_pos hk, hot.report_nodup _ _ hnodup k hk]
    · rw [if_neg hk, if_neg hk]
  have hstore : (redisDeleteMany n keys s.redis).1 =
      fun k => if k ∈ n.fullKeys keys then none else s.redis k := by
    rw [redisDeleteMany, unlinkAll_store]
  refine ⟨?_, ?_⟩
  · simp only [hybridStep, redisStep, memoryStep, hstore]
    exact h.remove hhas
  · simp only [Agree, redisStep, memoryStep, hreport, hmemory, hstore]
    refine ⟨rfl, ⟨rfl, rfl⟩, fun k hk => if_neg ?_⟩
    exact fun hmem => hk (hhas k hmem)

theorem stepOk_deleteByPrefix (h : HybridInv n codec others s) (hp : n.keyPrefix ≠ "")
    {pre : String} {scan listed : List String} (hplain : Glob.Plain (n.fullKey pre).toList)
    (hsep : ¬ ":".toList <:+ (n.fullKey pre).toList) (hnodup : scan.Nodup)
    (hscan : ScanAnswers s.redis (n.fullPrefix pre ++ "*") scan)
    (hlisted : ListAnswers s.memory listed) :
    StepOk n codec hot others s ⟨.deleteByPrefix pre, scan, listed⟩ := by
  by_cases hfull : n.fullKey pre = ""
  · have hstep : hybridStep n codec hot s ⟨.deleteByPrefix pre, scan, listed⟩ = s := by
      simp only [hybridStep, redisStep, memoryStep, hfull, true_or, if_true]
    refine ⟨by rwa [hstep], ?_⟩
    simp only [Agree, redisStep, memoryStep, Meets, hfull, true_or, if_true]
    exact ⟨rfl, ⟨trivial, trivial⟩, fun _ _ => trivial⟩
  have hbeginning : n.fullPrefix pre = n.fullKey pre ++ ":" := by
    rw [Namespace.fullPrefix]
    refine if_neg fun hsuffix => hsep ?_
    exact List.isSuffixOf_iff_suffix.1 hsuffix
  have hbeginning' : (n.fullKey pre ++ ":").toList = (n.fullKey pre).toList ++ [':'] := by
    rw [String.toList_append]
    rfl
  have hplain' : Glob.Plain (n.fullKey pre ++ ":").toList := by
    rw [hbeginning']
    intro c hc
    rcases List.mem_append.1 hc with hc | hc
    · exact hplain c hc
    · rw [List.mem_singleton.1 hc]
      rfl
  have hinside : n.keyPrefix.toList <+: (n.fullKey pre ++ ":").toList := by
    rw [hbeginning']
    exact (n.has_fullKey hfull).trans (List.prefix_append _ _)
  rw [hbeginning] at hscan
  have hmem : ∀ k, k ∈ scan ↔
      (s.memory k).isSome ∧ (n.fullKey pre ++ ":").toList <+: k.toList :=
    h.mem_scan hplain' hinside hscan
  let keys := listed.filter fun k => hasPrefix k (n.fullPrefix pre)
  have hkeys : ∀ k, k ∈ keys ↔ k ∈ scan := by
    intro k
    rw [List.mem_filter, hlisted.2 k, hasPrefix_iff_begins, hbeginning, hmem k]
  have hkeysNodup : keys.Nodup := hlisted.1.filter _
  have hlength : scan.length = keys.length :=
    ((List.perm_ext_iff_of_nodup hnodup hkeysNodup).2 fun k => (hkeys k).symm).length_eq
  have hthere : ∀ k ∈ scan, n.fullKey k = k ∧ k ≠ "" :=
    fun k hk => h.ne_empty hp ((hmem k).1 hk).1
  have hscanFull : n.fullKeys scan = scan := fullKeys_of_full hthere
  have hkeysFull : n.fullKeys keys = keys :=
    fullKeys_of_full fun k hk => hthere k ((hkeys k).1 hk)
  have hhas : ∀ k ∈ scan, n.Has k := fun k hk => h.has ((hmem k).1 hk).1
  -- each cache reports all the keys it removes
  have hredis : redisStep n codec s.redis (⟨.deleteByPrefix pre, scan, listed⟩ : CacheAction V) =
      (fun k => if k ∈ scan then none else s.redis k, .deleted scan.length) := by
    simp only [redisStep, hfull, false_or]
    split
    · rename_i hnil
      simp [hnil]
    · rw [redisDeleteMany_store hscanFull, countDeleted_eq hscanFull hnodup]
      intro k hk
      rw [redisDeleteMany, hscanFull, unlinkAll_report hnodup]
      simp only [if_pos hk]
      rw [(h.isSome_iff (hhas k hk)).2 ((hmem k).1 hk).1]
  have hmemory : memoryStep n hot s.memory ⟨.deleteByPrefix pre, scan, listed⟩ =
      (fun k => if k ∈ keys then none else s.memory k, .deleted keys.length) := by
    simp only [memoryStep, hfull, false_or]
    split
    · rename_i hnil
      have hnil : keys = [] := hnil
      simp [hnil]
    · have hcount : countDeleted n keys (memoryDeleteMany n hot keys s.memory).2 =
          keys.length := by
        refine countDeleted_eq hkeysFull hkeysNodup fun k hk => ?_
        simp only [memoryDeleteMany, hkeysFull, if_pos hk]
        rw [hot.report_nodup _ _ hkeysNodup k hk, ((hmem k).1 ((hkeys k).1 hk)).1]
      have hstore : (memoryDeleteMany n hot keys s.memory).1 =
          fun k => if k ∈ keys then none else s.memory k := by
        simp only [memoryDeleteMany, hkeysFull]
      exact Prod.ext hstore (congrArg CacheResult.deleted hcount)
  have hsame : (fun k => if k ∈ keys then none else s.memory k) =
      fun k => if k ∈ scan then none else s.memory k := by
    funext k
    exact if_congr (hkeys k) rfl rfl
  refine ⟨?_, ?_⟩
  · rw [hybridStep, hredis, hmemory, hsame]
    exact h.remove hhas
  · rw [Agree, hredis, hmemory]
    refine ⟨congrArg CacheResult.deleted hlength, ?_, fun k hk => if_neg ?_⟩
    · simp only [Meets, if_neg hfull]
      exact ⟨keys, hkeysNodup, fun k => (hkeys k).trans (hmem k), rfl, rfl⟩
    · exact fun hmem' => hk (hhas k hmem')

/-- **One plain operation** leaves the caches alike, if the server and the library answer as they
promise. -/
theorem HybridInv.step (h : HybridInv n codec others s) (hp : n.keyPrefix ≠ "")
    (hplain : Glob.Plain n.keyPrefix.toList) {a : CacheAction V} (hanswered : a.Answered n s)
    (ha : a.Plain n codec) : StepOk n codec hot others s a := by
  obtain ⟨op, scan, listed⟩ := a
  cases op with
  | setWithTTL key value =>
    obtain ⟨raw, hencode, hdecode⟩ := ha
    exact stepOk_set h hp hencode hdecode
  | get key => exact stepOk_get h
  | keys => exact stepOk_keys h hplain hanswered.1 hanswered.2
  | purge => exact stepOk_purge h hp hplain hanswered
  | deleteMany keys => exact stepOk_deleteMany h ha
  | deleteByPrefix pre =>
    obtain ⟨hpre, hsep, hnodup⟩ := ha
    exact stepOk_deleteByPrefix h hp hpre hsep hnodup hanswered.1 hanswered.2

/-! ### Runs -/

/-- Two empty caches, and a Redis server that holds something else outside the namespace. -/
def HybridStores.init (others : RedisStore) : HybridStores V where
  redis := others
  memory _ := none

theorem hybridInv_init (hothers : ∀ k, n.Has k → others k = none) :
    HybridInv n codec others (.init others) where
  stored k v h := by cases h
  absent k hk _ := hothers k hk
  outside k _ := rfl

/-- **The hybrid cache means the same on both backends**, in every run of plain operations from
empty caches: each operation does what it is for on both, they answer alike, and the keys of
Redis outside the namespace are left alone. -/
theorem hybrid_same (n : Namespace) (codec : ValueCodec V) (hot : HotCache) (others : RedisStore)
    (hp : n.keyPrefix ≠ "") (hplain : Glob.Plain n.keyPrefix.toList)
    (hothers : ∀ k, n.Has k → others k = none) (actions : List (CacheAction V))
    (hactions : Transition.Along (hybridStep n codec hot)
      (fun s a => a.Answered n s ∧ a.Plain n codec) (.init others) actions) :
    Transition.Along (hybridStep n codec hot) (fun s a => Agree n codec hot s a) (.init others)
        actions ∧
      ∀ k, ¬ n.Has k →
        (Transition.run (hybridStep n codec hot) (.init others) actions).redis k = others k := by
  have hstep : ∀ (s : HybridStores V) (a : CacheAction V), HybridInv n codec others s →
      a.Answered n s ∧ a.Plain n codec → HybridInv n codec others (hybridStep n codec hot s a) := by
    intro s a hs ha
    exact (hs.step hp hplain ha.1 ha.2 : StepOk n codec hot others s a).inv
  have hagree : ∀ (s : HybridStores V) (a : CacheAction V), HybridInv n codec others s →
      a.Answered n s ∧ a.Plain n codec → Agree n codec hot s a := by
    intro s a hs ha
    exact (hs.step hp hplain ha.1 ha.2).agree
  refine ⟨Transition.along_of_invariant hstep hagree (hybridInv_init hothers) hactions, ?_⟩
  exact (Transition.run_invariant hstep (hybridInv_init hothers) hactions).outside

end Agreement

/-- Texts are written as they are. -/
def stringCodec : ValueCodec String where
  encode v := .ok v
  decode s := .ok s

/-- A library that reports of every key whether it was there. -/
def plainHot : HotCache where
  report present _ k := present k
  report_nodup _ _ _ _ _ := rfl

def channelAffinityNamespace : Namespace := ⟨"new-api:channel_affinity:v1"⟩

/-- A value is set, read and removed. -/
theorem hybrid_same_once :
    let actions := [⟨.setWithTTL "a" "1", [], []⟩, ⟨.get "a", [], []⟩,
      (⟨.deleteMany ["a", "b"], [], []⟩ : CacheAction String)]
    Transition.Along (hybridStep channelAffinityNamespace stringCodec plainHot)
        (fun s a => Agree channelAffinityNamespace stringCodec plainHot s a)
        (.init fun _ => none) actions ∧
      ∀ k, ¬ channelAffinityNamespace.Has k →
        (Transition.run (hybridStep channelAffinityNamespace stringCodec plainHot)
          (.init fun _ => none) actions).redis k = none := by
  refine hybrid_same channelAffinityNamespace stringCodec plainHot _ (by decide) (by decide)
    (fun _ _ => rfl) _ ?_
  simp only [Transition.along_cons, Transition.along_nil, and_true]
  refine ⟨⟨trivial, "1", rfl, rfl⟩, ⟨trivial, trivial⟩, trivial, ?_⟩
  show (channelAffinityNamespace.fullKeys ["a", "b"]).Nodup
  decide

/-- How many keys an operation says it has removed. -/
def CacheResult.count {V : Type*} : CacheResult V → Option ℕ
  | .deleted n => some n
  | _ => none

/-- What an operation reports of a key. -/
def CacheResult.reported {V : Type*} (k : String) : CacheResult V → Option Bool
  | .report res => res k
  | _ => none

/-- **A prefix with a star removes other keys** on Redis, **and a repeated key is reported as not
there**: the key of the first is none of the prefix's, but a scan answers it, and the key of the
second is there. -/
theorem hybrid_differ :
    let n := channelAffinityNamespace
    let stored := hybridStep n stringCodec plainHot (.init fun _ => none)
      ⟨.setWithTTL "ab:x" "1", [], []⟩
    let byStar : CacheAction String :=
      ⟨.deleteByPrefix "a*", [n.fullKey "ab:x"], [n.fullKey "ab:x"]⟩
    let repeated : CacheAction String := ⟨.deleteMany ["ab:x", "ab:x"], [], []⟩
    Glob.Matches (n.fullPrefix "a*" ++ "*").toList (n.fullKey "ab:x").toList ∧
      ¬ (n.fullKey "a*" ++ ":").toList <+: (n.fullKey "ab:x").toList ∧
      (redisStep n stringCodec stored.redis byStar).2.count = some 1 ∧
      (memoryStep n plainHot stored.memory byStar).2.count = some 0 ∧
      (stored.redis (n.fullKey "ab:x")).isSome ∧
      (redisStep n stringCodec stored.redis repeated).2.reported (n.fullKey "ab:x") =
        some false := by
  decide +kernel

end NewApi
