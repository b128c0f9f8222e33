/-
**The cache of compiled billing expressions.**

Compiled expressions are kept in a map under the digest of their text, together with the names
they use.  The map is replaced by an empty one when it is full and when billing rules are updated.
`UsedVars` looks an expression up, compiles and stores it if it is not there, and then looks it up
again: in between, another goroutine may have replaced the map.  The token counts of a settlement
depend on its answer, because a count is taken out of the total only if the expression prices it.
Each critical section is a step of its own here.

Main definitions:

* `NewApi.ExprCompiler` — the expression language, which is a library;
* `NewApi.ExprSystem`, `NewApi.exprStep` — the map and the calls, and one critical section;
* `NewApi.buildTieredTokenParams` — the token counts an expression is run with;
* `NewApi.Transparent` — every answer is the one of the expression it was asked for.

Main results:

* `NewApi.ExprInv.step` — every entry of the map is compiled from the expression of its digest;
* `NewApi.cache_transparent` — **the cache is transparent exactly in the runs in which an entry is
  still there when `UsedVars` looks it up again**;
* `NewApi.cache_not_transparent` — a run in which it is not, and what that costs.
-/

import NewApi.Common
import NewApi.Lib.Transition

set_option autoImplicit false

namespace NewApi

/-! ### Expressions -/

/-- A node of a compiled expression: an identifier, or anything else. -/
inductive ExprNode where
  | identifier (value : String)
  | other
deriving DecidableEq, Repr

/-- The expression language: a program for a version and a text, and the nodes of a program in the
order they are visited.  An empty text is not an expression. -/
structure ExprCompiler (Program : Type*) where
  compile : ℤ → String → Except String Program
  nodes : Program → List ExprNode
  compile_empty : ∃ err, compile 1 "" = .error err

def defaultExprVersion : ℤ := 1

def maxCacheSize : ℕ := 256

/-- The version and the body of an expression. -/
def parseExprVersion (exprStr : String) : ℤ × String :=
  if hasPrefix exprStr "v1:" then (1, String.ofList (exprStr.toList.drop 3))
  else (defaultExprVersion, exprStr)

section Compiler

variable {Program : Type*} (compiler : ExprCompiler Program)

/-- The program of an expression. -/
def compileExpr (exprStr : String) : Except String Program :=
  let (version, body) := parseExprVersion exprStr
  match compiler.compile version body with
  | .error err => .error ("expr compile error: " ++ err)
  | .ok prog => .ok prog

/-- The names a program uses. -/
def extractUsedVars (prog : Program) : List String :=
  (compiler.nodes prog).filterMap fun node =>
    match node with
    | .identifier value => some value
    | .other => none

theorem compileExpr_empty : ∃ err, compileExpr compiler "" = .error err := by
  obtain ⟨err, herr⟩ := compiler.compile_empty
  have hparse : parseExprVersion "" = (1, "") := by decide
  refine ⟨"expr compile error: " ++ err, ?_⟩
  rw [compileExpr, hparse]
  simp only [herr]

end Compiler

/-! ### Token counts -/

/-- The usage an upstream has reported, as far as token counts are derived from it. -/
structure TieredUsage where
  promptTokens : ℤ
  completionTokens : ℤ
  cachedTokens : ℤ
  cachedCreationTokens : ℤ
  promptImageTokens : ℤ
  promptAudioTokens : ℤ
  completionImageTokens : ℤ
  completionAudioTokens : ℤ
  usageSemantic : String
  claudeCacheCreation5mTokens : ℤ
  claudeCacheCreation1hTokens : ℤ
deriving DecidableEq, Repr

structure TokenParams where
  p : ℤ
  c : ℤ
  len : ℤ
  cr : ℤ
  cc : ℤ
  cc1h : ℤ
  img : ℤ
  imgO : ℤ
  ai : ℤ
  ao : ℤ
deriving DecidableEq, Repr

/-- Take a count out of a total if the name that prices it is used; without a set of names, none
is. -/
def exclude (usedVars : Option (List String)) (name : String) (count total : ℤ) : ℤ :=
  if (usedVars.getD []).contains name then total - count else total

def buildTieredTokenParams (usage : TieredUsage) (isClaudeUsageSemantic : Bool)
    (usedVars : Option (List String)) : TokenParams :=
  let anthropic := usage.usageSemantic = "anthropic"
  let cc1h := if anthropic then usage.claudeCacheCreation1hTokens else 0
  let cc5m := if anthropic then usage.claudeCacheCreation5mTokens else usage.cachedCreationTokens
  let cr := usage.cachedTokens
  let inputLen :=
    if isClaudeUsageSemantic then usage.promptTokens + cr + cc5m + cc1h else usage.promptTokens
  let p :=
    if isClaudeUsageSemantic then usage.promptTokens
    else
      exclude usedVars "ai" usage.promptAudioTokens <|
        exclude usedVars "img" usage.promptImageTokens <|
          exclude usedVars "cc1h" cc1h <|
            exclude usedVars "cc" cc5m <|
              exclude usedVars "cr" cr usage.promptTokens
  let c :=
    if isClaudeUsageSemantic then usage.completionTokens
    else
      exclude usedVars "ao" usage.completionAudioTokens <|
        exclude usedVars "img_o" usage.completionImageTokens usage.completionTokens
  { p := if p < 0 then 0 else p
    c := if c < 0 then 0 else c
    len := inputLen
    cr := cr
    cc := cc5m
    cc1h := cc1h
    img := usage.promptImageTokens
    imgO := usage.completionImageTokens
    ai := usage.promptAudioTokens
    ao := usage.completionAudioTokens }

/-! ### The cache and the calls -/

structure CachedEntry (Program : Type*) where
  prog : Program
  usedVars : List String
  version : ℤ

/-- The map, with at most one entry for a digest. -/
abbrev ExprCache (Program : Type*) := List (String × CachedEntry Program)

/-- An entry is stored; a full map is replaced by an empty one first. -/
def ExprCache.store {Program : Type*} (hash : String) (entry : CachedEntry Program)
    (cache : ExprCache Program) : ExprCache Program :=
  let cache := if maxCacheSize ≤ cache.length then [] else cache
  (hash, entry) :: cache.filter fun c => c.1 ≠ hash

/-- A call: an expression is compiled to be run, its names are asked for, or the map is cleared. -/
inductive ExprCall where
  | compile (exprStr : String)
  | usedVars (exprStr : String)
  | invalidate
deriving DecidableEq, Repr

def ExprCall.exprStr : ExprCall → String
  | .compile exprStr => exprStr
  | .usedVars exprStr => exprStr
  | .invalidate => ""

/-- How far a call has come: it looks an expression up, or looks it up again in order to compile
it, or has compiled it and stores it, or looks up what it has stored; and what it has answered. -/
inductive ExprState (Program : Type*) where
  | start
  | checking
  | storing (prog : Program)
  | reading
  | compiled (result : Except String Program)
  | vars (result : Option (List String))
  | cleared

structure ExprSystem (ι Program : Type*) where
  cache : ExprCache Program
  state : ι → ExprState Program

section Step

variable {ι Program : Type*} [DecidableEq ι] (compiler : ExprCompiler Program)
  (exprHash : String → String) (calls : ι → ExprCall)

/-- The call `i` has come to `state`. -/
def ExprSystem.goTo (i : ι) (state : ExprState Program) (s : ExprSystem ι Program) :
    ExprSystem ι Program :=
  { s with state := Function.update s.state i state }

/-- The entry of a program. -/
def cachedEntry (exprStr : String) (prog : Program) : CachedEntry Program where
  prog := prog
  usedVars := extractUsedVars compiler prog
  version := (parseExprVersion exprStr).1

/-- The next critical section of a call. -/
def exprStep (s : ExprSystem ι Program) (i : ι) : ExprSystem ι Program :=
  let exprStr := (calls i).exprStr
  let hash := exprHash exprStr
  match s.state i with
  | .start =>
    match calls i with
    | .compile _ =>
      match s.cache.lookup hash with
      | some entry => s.goTo i (.compiled (.ok entry.prog))
      | none =>
        match compileExpr compiler exprStr with
        | .error err => s.goTo i (.compiled (.error err))
        | .ok prog => s.goTo i (.storing prog)
    | .usedVars _ =>
      if exprStr = "" then s.goTo i (.vars none)
      else
        match s.cache.lookup hash with
        | some entry => s.goTo i (.vars (some entry.usedVars))
        | none => s.goTo i .checking
    | .invalidate => { cache := [], state := Function.update s.state i .cleared }
  | .checking =>
    match s.cache.lookup hash with
    | some _ => s.goTo i .reading
    | none =>
      match compileExpr compiler exprStr with
      | .error _ => s.goTo i (.vars none)
      | .ok prog => s.goTo i (.storing prog)
  | .storing prog =>
    { cache := ExprCache.store hash (cachedEntry compiler exprStr prog) s.cache
      state := Function.update s.state i
        (match calls i with
        | .usedVars _ => .reading
        | _ => .compiled (.ok prog)) }
  | .reading => s.goTo i (.vars ((s.cache.lookup hash).map (·.usedVars)))
  | _ => s

/-- Before any call, with an empty map. -/
def ExprSystem.init : ExprSystem ι Program where
  cache := []
  state _ := .start

/-- An answer to the call `i` is the one of its expression: a program is compiled from it, and the
names are those the program uses, so that the token counts are as well. -/
def Answers (i : ι) (state : ExprState Program) : Prop :=
  (∀ result, state = .compiled result → result = compileExpr compiler (calls i).exprStr) ∧
    ∀ result, state = .vars result →
      ∀ prog, compileExpr compiler (calls i).exprStr = .ok prog →
        result = some (extractUsedVars compiler prog) ∧
        ∀ usage isClaudeUsageSemantic,
          buildTieredTokenParams usage isClaudeUsageSemantic result =
            buildTieredTokenParams usage isClaudeUsageSemantic
              (some (extractUsedVars compiler prog))

/-- Every answer is the one of the expression it was asked for. -/
def Transparent (s : ExprSystem ι Program) : Prop := ∀ i, Answers compiler calls i (s.state i)

/-- What a call looks up again is still there. -/
def StillCached (s : ExprSystem ι Program) (i : ι) : Prop :=
  match s.state i with
  | .reading => (s.cache.lookup (exprHash (calls i).exprStr)).isSome
  | _ => True

instance (s : ExprSystem ι Program) (i : ι) : Decidable (StillCached exprHash calls s i) := by
  unfold StillCached
  split <;> infer_instance

end Step

/-! ### Entries -/

section Entries

variable {ι Program : Type*} [DecidableEq ι] {compiler : ExprCompiler Program}
  {exprHash : String → String} {calls : ι → ExprCall} {s : ExprSystem ι Program}

/-- What holds of the map and the calls in every run. -/
structure ExprInv (compiler : ExprCompiler Program) (exprHash : String → String)
    (calls : ι → ExprCall) (s : ExprSystem ι Program) : Prop where
  /-- An entry is compiled from the expression of one of the calls. -/
  entries : ∀ c ∈ s.cache, ∃ i, exprHash (calls i).exprStr = c.1 ∧
    compileExpr compiler (calls i).exprStr = .ok c.2.prog ∧
    c.2.usedVars = extractUsedVars compiler c.2.prog
  storing : ∀ i prog, s.state i = .storing prog →
    compileExpr compiler (calls i).exprStr = .ok prog
  /-- Only an expression that compiles is looked up again. -/
  reading : ∀ i, s.state i = .reading →
    ∃ prog, compileExpr compiler (calls i).exprStr = .ok prog

theorem mem_store {hash : String} {entry : CachedEntry Program} {cache : ExprCache Program}
    {c : String × CachedEntry Program} (h : c ∈ ExprCache.store hash entry cache) :
    c = (hash, entry) ∨ c ∈ cache := by
  rcases List.mem_cons.1 h with heq | hmem
  · exact .inl heq
  · have hc := (List.mem_filter.1 hmem).1
    split at hc
    · cases hc
    · exact .inr hc

omit [DecidableEq ι] in
/-- **What a call finds is compiled from its expression**, if no two digests agree. -/
theorem ExprInv.of_lookup (h : ExprInv compiler exprHash calls s)
    (hinj : ∀ i j, exprHash (calls i).exprStr = exprHash (calls j).exprStr →
      (calls i).exprStr = (calls j).exprStr)
    {i : ι} {entry : CachedEntry Program}
    (hlookup : s.cache.lookup (exprHash (calls i).exprStr) = some entry) :
    compileExpr compiler (calls i).exprStr = .ok entry.prog ∧
      entry.usedVars = extractUsedVars compiler entry.prog := by
  obtain ⟨l₁, l₂, hl, -⟩ := List.lookup_eq_some_iff.1 hlookup
  have hmem : (exprHash (calls i).exprStr, entry) ∈ s.cache := by
    rw [hl]
    exact List.mem_append_right _ List.mem_cons_self
  obtain ⟨j, hhash, hprog, hvars⟩ := h.entries _ hmem
  rw [← hinj j i hhash]
  exact ⟨hprog, hvars⟩

theorem ExprInv.of_update {s' : ExprSystem ι Program} {i : ι} {state : ExprState Program}
    (h : ExprInv compiler exprHash calls s) (hstate : s'.state = Function.update s.state i state)
    (hentries : ∀ c ∈ s'.cache, ∃ i, exprHash (calls i).exprStr = c.1 ∧
      compileExpr compiler (calls i).exprStr = .ok c.2.prog ∧
      c.2.usedVars = extractUsedVars compiler c.2.prog)
    (hstoring : ∀ prog, state = .storing prog →
      compileExpr compiler (calls i).exprStr = .ok prog)
    (hreading : state = .reading → ∃ prog, compileExpr compiler (calls i).exprStr = .ok prog) :
    ExprInv compiler exprHash calls s' := by
  refine ⟨hentries, ?_, ?_⟩
  · intro j prog hj
    rw [hstate] at hj
    by_cases hne : j = i
    · subst hne
      rw [Function.update_self] at hj
      exact hstoring prog hj
    · rw [Function.update_of_ne hne] at hj
      exact h.storing j prog hj
  · intro j hj
    rw [hstate] at hj
    by_cases hne : j = i
    · subst hne
      rw [Function.update_self] at hj
      exact hreading hj
    · rw [Function.update_of_ne hne] at hj
      exact h.reading j hj

/-- One call goes on: the answers are right afterwards exactly if its own is. -/
theorem transparent_update {s' : ExprSystem ι Program} {i : ι} {state : ExprState Program}
    (h : Transparent compiler calls s) (hstate : s'.state = Function.update s.state i state) :
    Transparent compiler calls s' ↔ Answers compiler calls i state := by
  constructor
  · intro h'
    have hi := h' i
    rwa [hstate, Function.update_self] at hi
  · intro hi j
    rw [hstate]
    by_cases hne : j = i
    · subst hne
      rwa [Function.update_self]
    · rw [Function.update_of_ne hne]
      exact h j

/-! ### One critical section -/

/-- A state a call comes to that is neither a program to store nor an entry to look up again. -/
def ExprState.isOpen : ExprState Program → Bool
  | .storing _ => true
  | .reading => true
  | _ => false

/-- What one critical section can do. -/
inductive ExprMove (compiler : ExprCompiler Program) (exprHash : String → String)
    (calls : ι → ExprCall) (s : ExprSystem ι Program) (i : ι) : ExprSystem ι Program → Prop
  | stay (hstate : s.state i ≠ .reading) : ExprMove compiler exprHash calls s i s
  | answer (state : ExprState Program) (hstate : s.state i ≠ .reading)
      (hopen : state.isOpen = false) (hanswers : Answers compiler calls i state) :
      ExprMove compiler exprHash calls s i (s.goTo i state)
  | found (prog : Program) (hstate : s.state i ≠ .reading)
      (hprog : compileExpr compiler (calls i).exprStr = .ok prog) :
      ExprMove compiler exprHash calls s i (s.goTo i .reading)
  | compile (prog : Program) (hstate : s.state i ≠ .reading)
      (hprog : compileExpr compiler (calls i).exprStr = .ok prog) :
      ExprMove compiler exprHash calls s i (s.goTo i (.storing prog))
  | clear (hstate : s.state i ≠ .reading) : ExprMove compiler exprHash calls s i
      { cache := [], state := Function.update s.state i .cleared }
  | store (prog : Program) (state : ExprState Program) (hstate : s.state i = .storing prog)
      (hnext : state = .reading ∨ state = .compiled (.ok prog)) :
      ExprMove compiler exprHash calls s i
        { cache := ExprCache.store (exprHash (calls i).exprStr)
            (cachedEntry compiler (calls i).exprStr prog) s.cache
          state := Function.update s.state i state }
  | read (hstate : s.state i = .reading) : ExprMove compiler exprHash calls s i
      (s.goTo i (.vars ((s.cache.lookup (exprHash (calls i).exprStr)).map (·.usedVars))))

omit [DecidableEq ι] in
theorem answers_compiled {i : ι} {result : Except String Program}
    (h : result = compileExpr compiler (calls i).exprStr) :
    Answers compiler calls i (.compiled result) := by
  refine ⟨fun result' hresult => ?_, nofun⟩
  cases hresult
  exact h

omit [DecidableEq ι] in
theorem answers_vars {i : ι} {prog : Program}
    (h : compileExpr compiler (calls i).exprStr = .ok prog) :
    Answers compiler calls i (.vars (some (extractUsedVars compiler prog))) := by
  refine ⟨nofun, fun result hresult prog' hprog => ?_⟩
  cases hresult
  rw [h] at hprog
  cases hprog
  exact ⟨rfl, fun _ _ => rfl⟩

omit [DecidableEq ι] in
/-- No names are the right answer for what is not an expression. -/
theorem answers_none {i : ι} {err : String}
    (h : compileExpr compiler (calls i).exprStr = .error err) :
    Answers compiler calls i (.vars none) := by
  refine ⟨nofun, fun result _ prog hprog => ?_⟩
  rw [h] at hprog
  cases hprog

/-- **One critical section of a call does one of these things.** -/
theorem ExprInv.exprStep_move (h : ExprInv compiler exprHash calls s)
    (hinj : ∀ i j, exprHash (calls i).exprStr = exprHash (calls j).exprStr →
      (calls i).exprStr = (calls j).exprStr) (i : ι) :
    ExprMove compiler exprHash calls s i (exprStep compiler exprHash calls s i) := by
  unfold exprStep
  cases hstate : s.state i with
  | start =>
    have hnot : s.state i ≠ .reading := by
      rw [hstate]
      nofun
    generalize hexpr : (calls i).exprStr = exprStr
    cases calls i with
    | compile _ =>
      simp only
      cases hlookup : s.cache.lookup (exprHash exprStr) with
      | some entry =>
        rw [← hexpr] at hlookup
        exact .answer _ hnot rfl (answers_compiled (h.of_lookup hinj hlookup).1.symm)
      | none =>
        cases hprog : compileExpr compiler exprStr with
        | error err =>
          rw [← hexpr] at hprog
          exact .answer _ hnot rfl (answers_compiled hprog.symm)
        | ok prog =>
          rw [← hexpr] at hprog
          exact .compile prog hnot hprog
    | usedVars _ =>
      simp only
      split
      · rename_i hempty
        obtain ⟨err, herr⟩ := compileExpr_empty compiler
        rw [← hempty, ← hexpr] at herr
        exact .answer _ hnot rfl (answers_none herr)
      · cases hlookup : s.cache.lookup (exprHash exprStr) with
        | some entry =>
          rw [← hexpr] at hlookup
          obtain ⟨hprog, hvars⟩ := h.of_lookup hinj hlookup
          simp only [hvars]
          exact .answer _ hnot rfl (answers_vars hprog)
        | none =>
          refine .answer _ hnot rfl ⟨?_, ?_⟩
          · intro _ hresult
            cases hresult
          · intro _ hresult
            cases hresult
    | invalidate => exact .clear hnot
  | checking =>
    have hnot : s.state i ≠ .reading := by
      rw [hstate]
      nofun
    simp only
    cases hlookup : s.cache.lookup (exprHash (calls i).exprStr) with
    | some entry => exact .found entry.prog hnot (h.of_lookup hinj hlookup).1
    | none =>
      cases hprog : compileExpr compiler (calls i).exprStr with
      | error err => exact .answer _ hnot rfl (answers_none hprog)
      | ok prog => exact .compile prog hnot hprog
  | storing prog =>
    refine .store prog _ hstate ?_
    cases calls i with
    | compile exprStr => exact .inr rfl
    | usedVars exprStr => exact .inl rfl
    | invalidate => exact .inr rfl
  | reading => exact .read hstate
  | compiled result => exact .stay (by rw [hstate]; nofun)
  | vars result => exact .stay (by rw [hstate]; nofun)
  | cleared => exact .stay (by rw [hstate]; nofun)

/-- **Every entry is compiled from the expression of its digest**, whatever the calls do. -/
theorem ExprInv.step (h : ExprInv compiler exprHash calls s)
    (hinj : ∀ i j, exprHash (calls i).exprStr = exprHash (calls j).exprStr →
      (calls i).exprStr = (calls j).exprStr) (i : ι) :
    ExprInv compiler exprHash calls (exprStep compiler exprHash calls s i) := by
  generalize hs' : exprStep compiler exprHash calls s i = s'
  have hmove : ExprMove compiler exprHash calls s i s' := hs' ▸ h.exprStep_move hinj i
  cases hmove with
  | stay hstate => exact h
  | answer state hstate hopen hanswers =>
    refine h.of_update rfl h.entries ?_ ?_
    · rintro prog rfl
      cases hopen
    · rintro rfl
      cases hopen
  | found prog hstate hprog => exact h.of_update rfl h.entries nofun fun _ => ⟨prog, hprog⟩
  | compile prog hstate hprog =>
    refine h.of_update rfl h.entries ?_ nofun
    intro prog' heq
    cases heq
    exact hprog
  | clear hstate => exact h.of_update rfl nofun nofun nofun
  | store prog state hstate hnext =>
    have hprog := h.storing i prog hstate
    refine h.of_update rfl ?_ ?_ fun _ => ⟨prog, hprog⟩
    · intro c hc
      rcases mem_store hc with rfl | hmem
      · exact ⟨i, rfl, hprog, rfl⟩
      · exact h.entries c hmem
    · rintro prog' rfl
      rcases hnext with hnext | hnext <;> cases hnext
  | read hstate => exact h.of_update rfl h.entries nofun nofun

/-- **The answers stay right exactly if what is looked up again is still there.** -/
theorem ExprInv.transparent_step (h : ExprInv compiler exprHash calls s)
    (hinj : ∀ i j, exprHash (calls i).exprStr = exprHash (calls j).exprStr →
      (calls i).exprStr = (calls j).exprStr) (ht : Transparent compiler calls s) (i : ι) :
    Transparent compiler calls (exprStep compiler exprHash calls s i) ↔
      StillCached exprHash calls s i := by
  generalize hs' : exprStep compiler exprHash calls s i = s'
  have hmove : ExprMove compiler exprHash calls s i s' := hs' ▸ h.exprStep_move hinj i
  have hquiet : s.state i ≠ .reading → StillCached exprHash calls s i := by
    intro hne
    unfold StillCached
    split
    · rename_i hstate
      exact absurd hstate hne
    · trivial
  have hsilent : ∀ {state : ExprState Program}, (∀ result, state ≠ .compiled result) →
      (∀ result, state ≠ .vars result) → Answers compiler calls i state := by
    intro state hcompiled hvars
    exact ⟨fun result heq => absurd heq (hcompiled result), fun result heq => absurd heq (hvars result)⟩
  cases hmove with
  | stay hstate => exact iff_of_true ht (hquiet hstate)
  | answer state hstate hopen hanswers =>
    exact iff_of_true ((transparent_update ht rfl).2 hanswers) (hquiet hstate)
  | found prog hstate hprog | compile prog hstate hprog | clear hstate =>
    exact iff_of_true ((transparent_update ht rfl).2 (hsilent nofun nofun)) (hquiet hstate)
  | store prog state hstate hnext =>
    have hnot : s.state i ≠ .reading := by
      rw [hstate]
      nofun
    refine iff_of_true ((transparent_update ht rfl).2 ?_) (hquiet hnot)
    rcases hnext with rfl | rfl
    · exact hsilent nofun nofun
    · exact answers_compiled (h.storing i prog hstate).symm
  | read hstate =>
    obtain ⟨prog, hprog⟩ := h.reading i hstate
    rw [transparent_update ht rfl, StillCached, hstate]
    simp only
    cases hlookup : s.cache.lookup (exprHash (calls i).exprStr) with
    | none =>
      refine iff_of_false ?_ (by simp)
      intro hanswers
      obtain ⟨hnone, -⟩ := hanswers.2 none rfl prog hprog
      cases hnone
    | some entry =>
      obtain ⟨hentry, hvars⟩ := h.of_lookup hinj hlookup
      refine iff_of_true ?_ rfl
      simp only [Option.map_some, hvars]
      exact answers_vars hentry

omit [DecidableEq ι] in
theorem exprInv_init : ExprInv compiler exprHash calls (ExprSystem.init : ExprSystem ι Program) where
  entries := nofun
  storing i prog h := by cases h
  reading i h := by cases h

/-- **The cache is transparent exactly if what is looked up again is still there**: for any calls,
any order of their critical sections and digests that do not agree by accident, every answer given
in the run is the one of its expression if and only if no other call replaces the map between the
two look-ups of `UsedVars`. -/
theorem cache_transparent (compiler : ExprCompiler Program) (exprHash : String → String)
    (calls : ι → ExprCall)
    (hinj : ∀ i j, exprHash (calls i).exprStr = exprHash (calls j).exprStr →
      (calls i).exprStr = (calls j).exprStr) (run : List ι) :
    (∀ n, Transparent compiler calls
      (Transition.run (exprStep compiler exprHash calls) .init (run.take n))) ↔
      Transition.Along (exprStep compiler exprHash calls) (StillCached exprHash calls) .init run := by
  have hinv : ∀ (s : ExprSystem ι Program) (i : ι), ExprInv compiler exprHash calls s →
      ExprInv compiler exprHash calls (exprStep compiler exprHash calls s i) :=
    fun s i hs => hs.step hinj i
  refine Transition.forall_take_iff_along hinv ?_ exprInv_init ?_
  · intro s i hs ht
    exact hs.transparent_step hinj ht i
  · intro i
    refine ⟨fun result h => ?_, fun result h => ?_⟩
    · cases h
    · cases h

end Entries

/-- Expressions that are their own programs, with the names of the one below. -/
def textCompiler : ExprCompiler String where
  compile _ body := if body = "" then .error "unexpected token EOF" else .ok body
  nodes prog :=
    if prog = "p * 2 + cr * 1" then
      [.identifier "p", .other, .other, .identifier "cr", .other, .other, .other]
    else [.other]
  compile_empty := ⟨_, rfl⟩

/-- The digests of that expression and of the empty text. -/
def textHash (exprStr : String) : String :=
  if exprStr = "p * 2 + cr * 1" then
    "f8af502020b8926d13a6413c4ac4d4ef13378281f4150120167fd87182e271ee"
  else if exprStr = "" then "e3b0c44298fc1c149afbf4c8996fb92427ae41e4649b934ca495991b7852b855"
  else exprStr

/-- A settlement asks for the names of its expression while the rules are saved. -/
def savedCalls : Bool → ExprCall
  | false => .usedVars "p * 2 + cr * 1"
  | true => .invalidate

/-- The rules are saved after the settlement has been answered. -/
theorem cache_transparent_later :
    Transparent textCompiler savedCalls (Transition.run
      (exprStep textCompiler textHash savedCalls) .init
      ([false, false, false, false, true].take 5)) :=
  (cache_transparent textCompiler textHash savedCalls (by decide) _).2 (by decide) 5

/-- A hundred tokens, sixty of them from a cache. -/
def cachedUsage : TieredUsage where
  promptTokens := 100
  completionTokens := 10
  cachedTokens := 60
  cachedCreationTokens := 0
  promptImageTokens := 0
  promptAudioTokens := 0
  completionImageTokens := 0
  completionAudioTokens := 0
  usageSemantic := "openai"
  claudeCacheCreation5mTokens := 0
  claudeCacheCreation1hTokens := 0

/-- The names a call has been told. -/
def answeredVars (state : ExprState String) : Option (Option (List String)) :=
  match state with
  | .vars result => some result
  | _ => none

/-- **The names are lost** when the rules are saved between the two look-ups, and the tokens from
the cache are then priced twice. -/
theorem cache_not_transparent :
    answeredVars ((Transition.run (exprStep textCompiler textHash savedCalls) .init
      [false, false, false, true, false]).state false) = some none ∧
    answeredVars ((Transition.run (exprStep textCompiler textHash savedCalls) .init
      [false, false, false, false, true]).state false) = some (some ["p", "cr"]) ∧
    (buildTieredTokenParams cachedUsage false none).p = 100 ∧
    (buildTieredTokenParams cachedUsage false (some ["p", "cr"])).p = 40 := by
  decide

end NewApi
