/-
**Tokens and users in Redis.**

A token or a user is kept in Redis as a hash with a field for each field of the structure.  A fill
writes all fields and the time the hash is kept, in one transaction.  An increment or a change of
one field first asks how long the hash is still kept, and if there is one it writes the field and
the same time again, in a transaction of its own.

Between the two the hash may be gone.  The transaction then makes a new one with this field alone,
which is read without an error as a token or user whose other fields are zero.  And the time is
asked in whole seconds, rounded to the nearest, and counts from the transaction on, so that
updates can keep a hash alive for ever.

Main definitions:

* `RedisHash`, `CacheSystem` — a hash, and the server with the updates that are under way;
* `CacheSystem.step` — a fill, the two halves of an update, a deletion, and the passing of time;
* `CompleteAndBounded` — what is asked of a hash;
* `StepInTime` — an update finds the hash, and does not keep it longer.

Main results:

* `completeAndBounded_step` — a step in time keeps hashes complete and their time bounded;
* `cached_complete` — **so does every run of such steps**.
-/

import NewApi.Common
import NewApi.Lib.GoJson

set_option autoImplicit false

namespace NewApi

/-! ### Hashes -/

/-- An update of one field. -/
inductive FieldUpdate where
  | hIncrBy (field : String) (delta : ℤ)
  | hSetField (field value : String)
deriving DecidableEq, Repr

/-- A field after an increment.  A text that is no integer stays. -/
def incremented (delta : ℤ) : Option String → Option String
  | none => some (toString delta)
  | some text =>
    match GoJson.parseInt text with
    | some n => some (toString (n + delta))
    | none => some text

/-- The fields after an update. -/
def FieldUpdate.apply (fields : String → Option String) : FieldUpdate → String → Option String
  | .hIncrBy field delta => Function.update fields field (incremented delta (fields field))
  | .hSetField field value => Function.update fields field (some value)

/-- What a hash was filled with, when, and the updates since. -/
structure HashFill where
  data : String → String
  time : ℤ
  updates : List FieldUpdate := []

/-- The fields of a fill with the updates since. -/
def HashFill.fields (fill : HashFill) : String → Option String :=
  fill.updates.foldl FieldUpdate.apply fun field => some (fill.data field)

/-- A hash in Redis with the time at which it expires, in milliseconds.  The fill is that of the last
transaction that wrote all fields, and none if there was none since the hash was made. -/
structure RedisHash where
  fields : String → Option String
  expireAt : Option ℤ
  fill : Option HashFill

/-- An update after its first half: the time to live that it was told, in seconds. -/
structure PendingUpdate where
  update : FieldUpdate
  ttl : ℤ

/-- One key of the server, with the updates of this key that are under way. -/
structure CacheSystem where
  now : ℤ := 0
  hash : Option RedisHash := none
  pending : List PendingUpdate := []

inductive CacheStep where
  | hSetObj (data : String → String)
  | readTTL (update : FieldUpdate)
  | exec (i : ℕ)
  | del
  | advance (milliseconds : ℕ)

namespace CacheSystem

/-- The time to live of the key in seconds, rounded to the nearest; negative if it has none. -/
def ttl (s : CacheSystem) : ℤ :=
  match s.hash with
  | none => -2
  | some hash =>
    match hash.expireAt with
    | none => -1
    | some expireAt => (expireAt - s.now + 500) / 1000

/-- The hash without those that have expired. -/
def live (s : CacheSystem) : CacheSystem :=
  match s.hash with
  | none => s
  | some hash =>
    match hash.expireAt with
    | none => s
    | some expireAt => if expireAt ≤ s.now then { s with hash := none } else s

/-- The transaction of a fill: all fields, and the time they are kept if it is positive. -/
def hSetObj (names : List String) (seconds : ℤ) (data : String → String) (s : CacheSystem) :
    CacheSystem :=
  let old := s.hash.map RedisHash.fields
  let oldExpireAt := s.hash.bind RedisHash.expireAt
  { s with
    hash := some {
      fields := fun field =>
        if field ∈ names then some (data field) else old.bind fun fields => fields field
      expireAt := if seconds > 0 then some (s.now + seconds * 1000) else oldExpireAt
      fill := some { data, time := s.now } } }

/-- The transaction of an update: the field, and the time to live that was read. -/
def exec (p : PendingUpdate) (s : CacheSystem) : CacheSystem :=
  { s with
    hash := some {
      fields :=
        p.update.apply ((s.hash.map RedisHash.fields).getD fun _ => none)
      expireAt := some (s.now + p.ttl * 1000)
      fill := (s.hash.bind RedisHash.fill).map fun fill =>
        { fill with updates := fill.updates ++ [p.update] } } }

/-- A step on a key with the fields `names`, whose hashes are kept `seconds`. -/
def step (names : List String) (seconds : ℤ) (s : CacheSystem) : CacheStep → CacheSystem
  | .hSetObj data => s.hSetObj names seconds data
  | .readTTL update =>
    if s.ttl > 0 then { s with pending := s.pending ++ [⟨update, s.ttl⟩] } else s
  | .exec i =>
    match s.pending[i]? with
    | some p => { s.exec p with pending := s.pending.eraseIdx i }
    | none => s
  | .del => { s with hash := none }
  | .advance milliseconds => { s with now := s.now + milliseconds }.live

/-- A token or a user as it is read: the fields of the hash, if there is one. -/
def hGetObj (s : CacheSystem) : Option (String → Option String) := s.hash.map RedisHash.fields

end CacheSystem

/-! ### What is asked of a hash -/

/-- A hash has all fields of one fill with the updates since, and expires no later than `seconds`
after the fill. -/
structure CompleteAndBounded (names : List String) (seconds : ℤ) (s : CacheSystem) : Prop where
  complete : ∀ hash, s.hash = some hash → ∃ fill, hash.fill = some fill ∧
    ∀ field ∈ names, hash.fields field = fill.fields field
  bounded : ∀ hash, s.hash = some hash → ∃ fill expireAt, hash.fill = some fill ∧
    hash.expireAt = some expireAt ∧ s.now < expireAt ∧ expireAt ≤ fill.time + seconds * 1000

/-- An update finds a hash, and the time it was told does not go beyond that of the hash. -/
def StepInTime (s : CacheSystem) : CacheStep → Prop
  | .exec i => ∀ p, s.pending[i]? = some p → ∃ hash expireAt, s.hash = some hash ∧
      hash.expireAt = some expireAt ∧ s.now + p.ttl * 1000 ≤ expireAt
  | _ => True

/-- Every step of a run is in time. -/
def RunInTime (names : List String) (seconds : ℤ) : CacheSystem → List CacheStep → Prop
  | _, [] => True
  | s, a :: steps => StepInTime s a ∧ RunInTime names seconds (s.step names seconds a) steps

/-! ### Steps -/

section Steps

variable {names : List String} {seconds : ℤ} {s : CacheSystem}

/-- The fields of two hashes that agree in some fields agree in them after an update. -/
theorem FieldUpdate.apply_congr {fields fields' : String → Option String} (update : FieldUpdate)
    {field : String} (h : fields field = fields' field) :
    update.apply fields field = update.apply fields' field := by
  cases update with
  | hSetField key value =>
    by_cases hkey : field = key
    · subst hkey
      simp [FieldUpdate.apply]
    · simp [FieldUpdate.apply, Function.update_of_ne hkey, h]
  | hIncrBy key delta =>
    by_cases hkey : field = key
    · subst hkey
      simp [FieldUpdate.apply, h]
    · simp [FieldUpdate.apply, Function.update_of_ne hkey, h]

theorem HashFill.fields_append (fill : HashFill) (update : FieldUpdate) :
    HashFill.fields { fill with updates := fill.updates ++ [update] } =
      update.apply fill.fields := by
  simp [HashFill.fields, List.foldl_append]

/-- Time that passes takes a hash away or leaves it as it is. -/
theorem live_cases (s : CacheSystem) :
    s.live.hash = none ∨ s.live = s := by
  unfold CacheSystem.live
  split
  · exact Or.inr rfl
  · split
    · exact Or.inr rfl
    · split
      · exact Or.inl rfl
      · exact Or.inr rfl

/-- The times that updates were told are positive. -/
def PendingPositive (s : CacheSystem) : Prop := ∀ p ∈ s.pending, 0 < p.ttl

theorem pendingPositive_step (h : PendingPositive s) (a : CacheStep) :
    PendingPositive (s.step names seconds a) := by
  cases a with
  | hSetObj data => exact h
  | readTTL update =>
    simp only [CacheSystem.step]
    split
    · rename_i hpos
      intro p hp
      rw [List.mem_append, List.mem_singleton] at hp
      rcases hp with hp | rfl
      · exact h p hp
      · exact hpos
    · exact h
  | exec i =>
    simp only [CacheSystem.step]
    split
    · intro p hp
      exact h p (List.mem_of_mem_eraseIdx hp)
    · exact h
  | del => exact h
  | advance milliseconds =>
    have hpending : (CacheSystem.live { s with now := s.now + milliseconds }).pending =
        s.pending := by
      unfold CacheSystem.live
      split
      · rfl
      · split
        · rfl
        · split <;> rfl
    intro p hp
    exact h p (hpending ▸ hp)

/-- **A step in time keeps hashes complete and their time bounded.** -/
theorem completeAndBounded_step (hseconds : 0 < seconds) (h : CompleteAndBounded names seconds s)
    (hpending : PendingPositive s) {a : CacheStep} (hstep : StepInTime s a) :
    CompleteAndBounded names seconds (s.step names seconds a) := by
  cases a with
  | hSetObj data =>
    refine ⟨?_, ?_⟩
    · intro hash hhash
      injection hhash with hhash
      subst hhash
      refine ⟨_, rfl, ?_⟩
      intro field hfield
      simp [HashFill.fields, hfield]
    · intro hash hhash
      injection hhash with hhash
      subst hhash
      refine ⟨_, s.now + seconds * 1000, rfl, if_pos hseconds, ?_, le_refl _⟩
      have hpos : 0 < seconds * 1000 := by omega
      simp only [CacheSystem.step, CacheSystem.hSetObj]
      omega
  | readTTL update =>
    simp only [CacheSystem.step]
    split
    · exact ⟨h.complete, h.bounded⟩
    · exact h
  | exec i =>
    simp only [CacheSystem.step]
    split
    · rename_i p hp
      obtain ⟨hash, expireAt, hhash, hexpire, hle⟩ := hstep p hp
      obtain ⟨fill, hfill, hfields⟩ := h.complete hash hhash
      obtain ⟨fill', expireAt', hfill', hexpire', _, hbound⟩ := h.bounded hash hhash
      rw [hfill, Option.some.injEq] at hfill'
      subst hfill'
      rw [hexpire, Option.some.injEq] at hexpire'
      subst hexpire'
      have hnew : (s.exec p).hash = some {
          fields := p.update.apply hash.fields
          expireAt := some (s.now + p.ttl * 1000)
          fill := some { fill with updates := fill.updates ++ [p.update] } } := by
        simp [CacheSystem.exec, hhash, hfill]
      have hpos := hpending p (List.mem_of_getElem? hp)
      refine ⟨?_, ?_⟩
      · intro hash' hhash'
        rw [show ({ s.exec p with pending := s.pending.eraseIdx i } : CacheSystem).hash =
          (s.exec p).hash from rfl, hnew, Option.some.injEq] at hhash'
        subst hhash'
        refine ⟨_, rfl, ?_⟩
        intro field hfield
        rw [HashFill.fields_append]
        exact p.update.apply_congr (hfields field hfield)
      · intro hash' hhash'
        rw [show ({ s.exec p with pending := s.pending.eraseIdx i } : CacheSystem).hash =
          (s.exec p).hash from rfl, hnew, Option.some.injEq] at hhash'
        subst hhash'
        refine ⟨_, s.now + p.ttl * 1000, rfl, rfl, ?_, hle.trans hbound⟩
        simp only [CacheSystem.exec]
        omega
    · exact h
  | del => exact ⟨by simp [CacheSystem.step], by simp [CacheSystem.step]⟩
  | advance milliseconds =>
    simp only [CacheSystem.step]
    rcases live_cases { s with now := s.now + milliseconds } with hnone | hsame
    · exact ⟨by simp [hnone], by simp [hnone]⟩
    · refine ⟨?_, ?_⟩
      · rw [hsame]
        exact h.complete
      · intro hash hhash
        have hhash' : s.hash = some hash := by
          rw [hsame] at hhash
          exact hhash
        obtain ⟨fill, expireAt, hfill, hexpire, _, hbound⟩ := h.bounded hash hhash'
        refine ⟨fill, expireAt, hfill, hexpire, ?_, hbound⟩
        -- a hash that is still there has not expired
        by_contra hexpired
        have hle : expireAt ≤ s.now + milliseconds := by
          rw [hsame] at hexpired
          exact not_lt.mp hexpired
        have hgone : (CacheSystem.live { s with now := s.now + milliseconds }).hash = none := by
          simp [CacheSystem.live, hhash', hexpire, hle]
        rw [hgone] at hhash
        cases hhash

end Steps

/-! ### Runs -/

theorem completeAndBounded_run {names : List String} {seconds : ℤ} (hseconds : 0 < seconds)
    (steps : List CacheStep) :
    ∀ s : CacheSystem, CompleteAndBounded names seconds s → PendingPositive s →
      RunInTime names seconds s steps →
      CompleteAndBounded names seconds (steps.foldl (CacheSystem.step names seconds) s) := by
  induction steps with
  | nil =>
    intro s h _ _
    exact h
  | cons a steps ih =>
    rintro s h hpending ⟨hstep, hrun⟩
    rw [List.foldl_cons]
    exact ih _ (completeAndBounded_step hseconds h hpending hstep)
      (pendingPositive_step hpending a) hrun

/-- **Along a run whose updates are in time, what is read of a key has all fields of one fill with
the updates since, and no hash is kept longer than it was filled for.** -/
theorem cached_complete {names : List String} {seconds : ℤ} (hseconds : 0 < seconds)
    {steps : List CacheStep} (hrun : RunInTime names seconds {} steps) :
    let s := steps.foldl (CacheSystem.step names seconds) {}
    CompleteAndBounded names seconds s ∧
      ∀ fields, s.hGetObj = some fields →
        ∃ fill : HashFill, ∀ field ∈ names, fields field = fill.fields field := by
  intro s
  have h : CompleteAndBounded names seconds s :=
    completeAndBounded_run hseconds steps {} ⟨by simp, by simp⟩ (by simp [PendingPositive]) hrun
  refine ⟨h, ?_⟩
  intro fields hfields
  obtain ⟨hash, hhash, rfl⟩ := Option.map_eq_some_iff.mp hfields
  obtain ⟨fill, _, hcomplete⟩ := h.complete hash hhash
  exact ⟨fill, hcomplete⟩

/-- A quota is raised while the token is filled again. -/
def raisedInTime : List CacheStep :=
  [.hSetObj fun _ => "1", .advance 20000, .readTTL (.hIncrBy "RemainQuota" 5),
    .hSetObj fun _ => "2", .exec 0]

theorem cached_complete_raised :
    CompleteAndBounded ["Id", "RemainQuota"] 60
      (raisedInTime.foldl (CacheSystem.step ["Id", "RemainQuota"] 60) {}) :=
  (@cached_complete ["Id", "RemainQuota"] 60 (by decide) raisedInTime
    ⟨trivial, trivial, trivial, trivial, by
      intro p hp
      have hp' : p = ⟨.hIncrBy "RemainQuota" 5, 40⟩ := by
        simpa [CacheSystem.step, CacheSystem.ttl, CacheSystem.hSetObj, CacheSystem.live]
          using hp.symm
      subst hp'
      exact ⟨_, 80000, rfl, rfl, by decide⟩, trivial⟩).1

end NewApi
