/-
**Batched updates.**

With batch updates enabled a change of a counter is not written to the database at once.
`addNewRecord` adds it to a map in memory, one map for each type of counter and each with a lock,
and every few seconds one goroutine runs `batchUpdate`: it takes each map away under the map's
lock, puts an empty one in its place, and writes what it has taken after it has released the lock.
Each access to a lock or a map and each write is a step of its own here; the calls of
`addNewRecord` and the rounds of the updater interleave as they like.

The counters are elements of any commutative group, so that what is said holds of integers and of
integers that wrap around alike.

Main definitions:

* `NewApi.QuotaColumns` — the counters in the database;
* `NewApi.BatchSystem` — the database, the maps and locks, and how far everybody has come;
* `NewApi.addNewRecord`, `NewApi.batchUpdate` — one step of a call, and one of the updater;
* `NewApi.BatchSystem.pending`, `NewApi.BatchSystem.inFlight` — what is in a map, and what is in a
  map that has been taken away.

Main results:

* `NewApi.batch_conserves` — **nothing is lost or counted twice, at any moment, and a complete
  round after the last record leaves everything in the database**.
-/

import Mathlib.Data.List.AList
import NewApi.Lib.Ledger
import NewApi.Lib.Transition

set_option autoImplicit false

namespace NewApi

/-! ### Counters -/

inductive BatchUpdateType where
  | userQuota
  | tokenQuota
  | usedQuota
  | channelUsedQuota
  | requestCount
deriving DecidableEq, Repr

/-- The types in the order the updater goes through them. -/
def batchUpdateTypes : List BatchUpdateType :=
  [.userQuota, .tokenQuota, .usedQuota, .channelUsedQuota, .requestCount]

theorem mem_batchUpdateTypes (type : BatchUpdateType) : type ∈ batchUpdateTypes := by
  cases type <;> decide

section Columns

variable {M : Type*} [AddCommGroup M]

/-- The counters in the database, each by the id of its user, token or channel. -/
structure QuotaColumns (M : Type*) where
  userQuota : ℤ → M
  tokenRemainQuota : ℤ → M
  tokenUsedQuota : ℤ → M
  userUsedQuota : ℤ → M
  channelUsedQuota : ℤ → M
  requestCount : ℤ → M

/-- A column after `value` has been added in the row with id `key`. -/
def addAt (column : ℤ → M) (key : ℤ) (value : M) : ℤ → M :=
  Function.update column key (column key + value)

/-- The counter a type of update adds to. -/
def QuotaColumns.value (db : QuotaColumns M) : BatchUpdateType → ℤ → M
  | .userQuota => db.userQuota
  | .tokenQuota => db.tokenRemainQuota
  | .usedQuota => db.userUsedQuota
  | .channelUsedQuota => db.channelUsedQuota
  | .requestCount => db.requestCount

def QuotaColumns.increaseUserQuota (db : QuotaColumns M) (id : ℤ) (quota : M) : QuotaColumns M :=
  { db with userQuota := addAt db.userQuota id quota }

/-- What is added to the quota a token has left is subtracted from the quota it has used. -/
def QuotaColumns.increaseTokenQuota (db : QuotaColumns M) (id : ℤ) (quota : M) : QuotaColumns M :=
  { db with
    tokenRemainQuota := addAt db.tokenRemainQuota id quota
    tokenUsedQuota := addAt db.tokenUsedQuota id (-quota) }

def QuotaColumns.updateUserUsedQuota (db : QuotaColumns M) (id : ℤ) (quota : M) : QuotaColumns M :=
  { db with userUsedQuota := addAt db.userUsedQuota id quota }

def QuotaColumns.updateUserRequestCount (db : QuotaColumns M) (id : ℤ) (count : M) :
    QuotaColumns M :=
  { db with requestCount := addAt db.requestCount id count }

def QuotaColumns.updateChannelUsedQuota (db : QuotaColumns M) (id : ℤ) (quota : M) :
    QuotaColumns M :=
  { db with channelUsedQuota := addAt db.channelUsedQuota id quota }

/-- The write of one entry of a map. -/
def QuotaColumns.write (db : QuotaColumns M) (key : ℤ) (value : M) :
    BatchUpdateType → QuotaColumns M
  | .userQuota => db.increaseUserQuota key value
  | .tokenQuota => db.increaseTokenQuota key value
  | .usedQuota => db.updateUserUsedQuota key value
  | .requestCount => db.updateUserRequestCount key value
  | .channelUsedQuota => db.updateChannelUsedQuota key value

/-- A write adds to the counter of its type and key, and to no other. -/
theorem value_write (db : QuotaColumns M) (key : ℤ) (value : M) (type type' : BatchUpdateType)
    (id : ℤ) : (db.write key value type).value type' id =
      db.value type' id + if type = type' ∧ key = id then value else 0 := by
  have hadd : ∀ column : ℤ → M, addAt column key value id =
      column id + if key = id then value else 0 := by
    intro column
    by_cases hid : key = id
    · subst hid
      simp [addAt]
    · simp [addAt, hid, Function.update_of_ne (Ne.symm hid)]
  cases type <;> cases type' <;>
    simp [QuotaColumns.write, QuotaColumns.value, QuotaColumns.increaseUserQuota,
      QuotaColumns.increaseTokenQuota, QuotaColumns.updateUserUsedQuota,
      QuotaColumns.updateUserRequestCount, QuotaColumns.updateChannelUsedQuota, hadd]

end Columns

/-! ### The maps, the locks and everybody -/

/-- A map of changes that have not been written. -/
abbrev BatchStore (M : Type*) := AList fun _ : ℤ => M

/-- What a map holds for an id. -/
def BatchStore.amount {M : Type*} [Zero M] (store : BatchStore M) (id : ℤ) : M :=
  (store.lookup id).getD 0

/-- The arguments of a call of `addNewRecord`. -/
structure BatchRecord (M : Type*) where
  type : BatchUpdateType
  id : ℤ
  value : M
deriving DecidableEq, Repr

/-- How far a call of `addNewRecord` has come: it has the lock, it has looked the id up, it has
written the map, or it has returned. -/
inductive Recorder (M : Type*) where
  | start
  | locked
  | loaded (old : Option M)
  | stored
  | done
deriving DecidableEq, Repr

/-- How far the updater has come: it sleeps, it looks whether there is anything to write, or it
takes a map away and writes it.  Each state has the type at hand and those still to come. -/
inductive Updater (M : Type*) where
  | sleeping
  | checking (type : BatchUpdateType) (rest : List BatchUpdateType)
  | looking (type : BatchUpdateType) (rest : List BatchUpdateType)
  | looked (type : BatchUpdateType) (rest : List BatchUpdateType) (hasData : Bool)
  | draining (type : BatchUpdateType) (rest : List BatchUpdateType)
  | taking (type : BatchUpdateType) (rest : List BatchUpdateType)
  | taken (type : BatchUpdateType) (rest : List BatchUpdateType) (store : BatchStore M)
  | swapped (type : BatchUpdateType) (rest : List BatchUpdateType) (store : BatchStore M)
  | writing (type : BatchUpdateType) (rest : List BatchUpdateType) (store : BatchStore M)

/-- The database, the maps, the holders of their locks, the calls and the updater.  A lock is held
by a call or by the updater (`some none`).  `added` are the calls that have put their record into a
map and `rounds` the rounds that are over; the program keeps neither. -/
structure BatchSystem (ι M : Type*) where
  database : QuotaColumns M
  stores : BatchUpdateType → BatchStore M
  holder : BatchUpdateType → Option (Option ι)
  recorder : ι → Recorder M
  updater : Updater M
  added : List ι
  rounds : ℕ

section Steps

variable {ι M : Type*} [DecidableEq ι] [AddCommGroup M]

namespace BatchSystem

def acquire (type : BatchUpdateType) (who : Option ι) (s : BatchSystem ι M) : BatchSystem ι M :=
  { s with holder := Function.update s.holder type (some who) }

def release (type : BatchUpdateType) (s : BatchSystem ι M) : BatchSystem ι M :=
  { s with holder := Function.update s.holder type none }

def record (i : ι) (state : Recorder M) (s : BatchSystem ι M) : BatchSystem ι M :=
  { s with recorder := Function.update s.recorder i state }

def update (state : Updater M) (s : BatchSystem ι M) : BatchSystem ι M :=
  { s with updater := state }

def setStore (type : BatchUpdateType) (store : BatchStore M) (s : BatchSystem ι M) :
    BatchSystem ι M :=
  { s with stores := Function.update s.stores type store }

/-- The call `i` puts its record into the map: `value` is what the map then holds for the id. -/
def put (i : ι) (r : BatchRecord M) (value : M) (s : BatchSystem ι M) : BatchSystem ι M :=
  { s with
    stores := Function.update s.stores r.type ((s.stores r.type).insert r.id value)
    recorder := Function.update s.recorder i .stored
    added := s.added ++ [i] }

/-- The entry with id `key` of a map that has been taken away is written. -/
def write (type : BatchUpdateType) (rest : List BatchUpdateType) (store : BatchStore M) (key : ℤ)
    (value : M) (s : BatchSystem ι M) : BatchSystem ι M :=
  { s with
    database := s.database.write key value type
    updater := .writing type rest (store.erase key) }

/-- The round is over. -/
def finish (s : BatchSystem ι M) : BatchSystem ι M :=
  { s with updater := .sleeping, rounds := s.rounds + 1 }

/-- Look at the next type; the round is over if there is none. -/
def check (s : BatchSystem ι M) : List BatchUpdateType → BatchSystem ι M
  | [] => s.finish
  | type :: rest => s.update (.checking type rest)

/-- Drain the next type; the round is over if there is none. -/
def drain (s : BatchSystem ι M) : List BatchUpdateType → BatchSystem ι M
  | [] => s.finish
  | type :: rest => s.update (.draining type rest)

/-- What the map of a type holds for an id. -/
def pending (s : BatchSystem ι M) (type : BatchUpdateType) (id : ℤ) : M :=
  (s.stores type).amount id

/-- What a map that has been taken away holds for an id. -/
def inFlight (s : BatchSystem ι M) (type : BatchUpdateType) (id : ℤ) : M :=
  match s.updater with
  | .swapped type' _ store => if type' = type then store.amount id else 0
  | .writing type' _ store => if type' = type then store.amount id else 0
  | _ => 0

end BatchSystem

/-- The next step of a call of `addNewRecord`. -/
def addNewRecord (records : ι → BatchRecord M) (s : BatchSystem ι M) (i : ι) : BatchSystem ι M :=
  let r := records i
  match s.recorder i with
  | .start => if s.holder r.type = none then (s.acquire r.type (some i)).record i .locked else s
  | .locked => s.record i (.loaded ((s.stores r.type).lookup r.id))
  | .loaded old =>
    match old with
    | none => s.put i r r.value
    | some v => s.put i r (v + r.value)
  | .stored => (s.release r.type).record i .done
  | .done => s

/-- The next step of the updater.  The entries of a map come in no particular order: `key` is the
one that is written next. -/
def batchUpdate (s : BatchSystem ι M) (key : ℤ) : BatchSystem ι M :=
  match s.updater with
  | .sleeping => s.check batchUpdateTypes
  | .checking type rest =>
    if s.holder type = none then (s.acquire type none).update (.looking type rest) else s
  | .looking type rest => s.update (.looked type rest (decide (0 < (s.stores type).keys.length)))
  | .looked type rest hasData =>
    if hasData then (s.release type).drain batchUpdateTypes else (s.release type).check rest
  | .draining type rest =>
    if s.holder type = none then (s.acquire type none).update (.taking type rest) else s
  | .taking type rest => s.update (.taken type rest (s.stores type))
  | .taken type rest store => (s.setStore type ∅).update (.swapped type rest store)
  | .swapped type rest store => (s.release type).update (.writing type rest store)
  | .writing type rest store =>
    if store.keys = [] then s.drain rest
    else
      match store.lookup key with
      | none => s
      | some value => s.write type rest store key value

/-- Somebody's next step. -/
inductive BatchAction (ι : Type*) where
  | record (i : ι)
  | update (key : ℤ)
deriving DecidableEq, Repr

def batchStep (records : ι → BatchRecord M) (s : BatchSystem ι M) :
    BatchAction ι → BatchSystem ι M
  | .record i => addNewRecord records s i
  | .update key => batchUpdate s key

/-- Nothing has been recorded yet. -/
def BatchSystem.start (ι : Type*) (db : QuotaColumns M) : BatchSystem ι M where
  database := db
  stores _ := ∅
  holder _ := none
  recorder _ := .start
  updater := .sleeping
  added := []
  rounds := 0

end Steps

/-! ### The locks and what is read under them -/

/-- A call that has the lock of its type. -/
def Recorder.Holds {M : Type*} : Recorder M → Prop
  | .locked | .loaded _ | .stored => True
  | .start | .done => False

/-- A call that has put its record into the map. -/
def Recorder.Recorded {M : Type*} : Recorder M → Prop
  | .stored | .done => True
  | .start | .locked | .loaded _ => False

/-- The updater has the lock of a type. -/
def Updater.Holds {M : Type*} (type : BatchUpdateType) : Updater M → Prop
  | .looking type' _ | .looked type' _ _ | .taking type' _ | .taken type' _ _
  | .swapped type' _ _ => type' = type
  | .sleeping | .checking _ _ | .draining _ _ | .writing _ _ _ => False

section Conserves

variable {ι M : Type*} [DecidableEq ι] [AddCommGroup M]
variable {records : ι → BatchRecord M} {db : QuotaColumns M} {s : BatchSystem ι M}

/-- What the calls that have put their records into a map come to for a type and an id. -/
def BatchSystem.recorded (records : ι → BatchRecord M) (s : BatchSystem ι M)
    (type : BatchUpdateType) (id : ℤ) : M :=
  Accounts.sumFor (type, id)
    (s.added.map fun i => (((records i).type, (records i).id), (records i).value))

/-- What holds at every moment. -/
structure BatchInv (records : ι → BatchRecord M) (db : QuotaColumns M) (s : BatchSystem ι M) :
    Prop where
  /-- A lock somebody has taken is theirs. -/
  call : ∀ i, (s.recorder i).Holds → s.holder (records i).type = some (some i)
  round : ∀ type, s.updater.Holds type → s.holder type = some none
  /-- What has been read under a lock still holds. -/
  loaded : ∀ i old, s.recorder i = .loaded old →
    old = (s.stores (records i).type).lookup (records i).id
  taken : ∀ type rest store, s.updater = .taken type rest store → store = s.stores type
  /-- Each call records once. -/
  once : s.added.Nodup ∧ ∀ i, i ∈ s.added ↔ (s.recorder i).Recorded
  conserved : ∀ type id, s.database.value type id + s.pending type id + s.inFlight type id =
    db.value type id + s.recorded records type id

theorem amount_empty (id : ℤ) : BatchStore.amount (∅ : BatchStore M) id = 0 := by
  simp [BatchStore.amount]

theorem amount_of_keys_eq_nil {store : BatchStore M} (h : store.keys = []) (id : ℤ) :
    store.amount id = 0 := by
  have hnot : id ∉ store := by
    rw [AList.mem_keys, h]
    exact List.not_mem_nil
  rw [BatchStore.amount, AList.lookup_eq_none.2 hnot, Option.getD_none]

/-- What is written of a map that has been taken away is no longer in it. -/
theorem amount_erase {store : BatchStore M} {key : ℤ} {value : M}
    (h : store.lookup key = some value) (id : ℤ) :
    (if key = id then value else 0) + BatchStore.amount (store.erase key) id = store.amount id := by
  by_cases hid : key = id
  · subst hid
    simp [BatchStore.amount, h]
  · simp [BatchStore.amount, AList.lookup_erase_ne (Ne.symm hid), hid]

/-- A record is in the map, added to what was there. -/
theorem pending_put (i : ι) (r : BatchRecord M) (type : BatchUpdateType) (id : ℤ) :
    (s.put i r (s.pending r.type r.id + r.value)).pending type id =
      s.pending type id + if r.type = type ∧ r.id = id then r.value else 0 := by
  by_cases htype : r.type = type
  · subst htype
    by_cases hid : r.id = id
    · subst hid
      simp [BatchSystem.put, BatchSystem.pending, BatchStore.amount]
    · simp [BatchSystem.put, BatchSystem.pending, BatchStore.amount, hid,
        AList.lookup_insert_ne (Ne.symm hid)]
  · simp [BatchSystem.put, BatchSystem.pending, htype, Ne.symm htype]

theorem recorded_put (i : ι) (value : M) (type : BatchUpdateType) (id : ℤ) :
    (s.put i (records i) value).recorded records type id = s.recorded records type id +
      if (records i).type = type ∧ (records i).id = id then (records i).value else 0 := by
  simp only [BatchSystem.recorded, BatchSystem.put, List.map_append, List.map_cons, List.map_nil,
    Accounts.sumFor_append]
  congr 1
  by_cases heq : (records i).type = type ∧ (records i).id = id
  · obtain ⟨rfl, rfl⟩ := heq
    simp
  · rw [if_neg heq]
    exact Accounts.sumFor_of_ne _ fun hkey => heq (Prod.mk.inj hkey)

omit [DecidableEq ι] in
theorem batchInv_start : BatchInv records db (.start ι db) where
  call _ h := h.elim
  round _ h := h.elim
  loaded _ _ h := by cases h
  taken _ _ _ h := by cases h
  once := ⟨List.nodup_nil, fun i => ⟨fun h => absurd h List.not_mem_nil, fun h => h.elim⟩⟩
  conserved type id := by
    simp [BatchSystem.start, BatchSystem.pending, BatchSystem.inFlight, BatchSystem.recorded,
      amount_empty]

namespace BatchInv

omit [DecidableEq ι] in
theorem acquire (h : BatchInv records db s) {type : BatchUpdateType} (who : Option ι)
    (hfree : s.holder type = none) : BatchInv records db (s.acquire type who) where
  call i hi := by
    have hne : (records i).type ≠ type := by
      rintro rfl
      rw [h.call i hi] at hfree
      cases hfree
    exact (Function.update_of_ne hne _ _).trans (h.call i hi)
  round type' hu := by
    have hne : type' ≠ type := by
      rintro rfl
      rw [h.round _ hu] at hfree
      cases hfree
    exact (Function.update_of_ne hne _ _).trans (h.round type' hu)
  loaded := h.loaded
  taken := h.taken
  once := h.once
  conserved := h.conserved

omit [DecidableEq ι] in
theorem release (h : BatchInv records db s) {type : BatchUpdateType}
    (hcalls : ∀ i, (records i).type = type → ¬ (s.recorder i).Holds)
    (hround : ¬ s.updater.Holds type) : BatchInv records db (s.release type) where
  call i hi := by
    have hne : (records i).type ≠ type := fun heq => hcalls i heq hi
    exact (Function.update_of_ne hne _ _).trans (h.call i hi)
  round type' hu := by
    have hne : type' ≠ type := by
      rintro rfl
      exact hround hu
    exact (Function.update_of_ne hne _ _).trans (h.round type' hu)
  loaded := h.loaded
  taken := h.taken
  once := h.once
  conserved := h.conserved

/-- A call goes on, and its record is in the map as before. -/
theorem record (h : BatchInv records db s) {i : ι} {state : Recorder M}
    (hholds : state.Holds → s.holder (records i).type = some (some i))
    (hloaded : ∀ old, state = .loaded old →
      old = (s.stores (records i).type).lookup (records i).id)
    (hrecorded : state.Recorded ↔ (s.recorder i).Recorded) :
    BatchInv records db (s.record i state) where
  call j hj := by
    by_cases hji : j = i
    · subst hji
      exact hholds (by simpa [BatchSystem.record] using hj)
    · exact h.call j (by simpa [BatchSystem.record, hji] using hj)
  round := h.round
  loaded j old hj := by
    by_cases hji : j = i
    · subst hji
      exact hloaded old (by simpa [BatchSystem.record] using hj)
    · exact h.loaded j old (by simpa [BatchSystem.record, hji] using hj)
  taken := h.taken
  once := by
    refine ⟨h.once.1, fun j => ?_⟩
    by_cases hji : j = i
    · subst hji
      simpa [BatchSystem.record, hrecorded] using h.once.2 j
    · simpa [BatchSystem.record, hji] using h.once.2 j
  conserved := h.conserved

omit [DecidableEq ι] in
/-- The updater goes on, with as much in flight as before. -/
theorem update (h : BatchInv records db s) {state : Updater M}
    (hround : ∀ type, state.Holds type → s.holder type = some none)
    (htaken : ∀ type rest store, state = .taken type rest store → store = s.stores type)
    (hflight : ∀ type id, (s.update state).inFlight type id = s.inFlight type id) :
    BatchInv records db (s.update state) where
  call := h.call
  round := hround
  loaded := h.loaded
  taken := htaken
  once := h.once
  conserved type id := by
    rw [hflight type id]
    exact h.conserved type id

/-- A call puts its record into the map. -/
theorem put (h : BatchInv records db s) {i : ι} {old : Option M}
    (hstate : s.recorder i = .loaded old) :
    BatchInv records db (s.put i (records i) (old.getD 0 + (records i).value)) := by
  have hheld : s.holder (records i).type = some (some i) :=
    h.call i (by rw [hstate]; trivial)
  have hold : old.getD 0 = s.pending (records i).type (records i).id := by
    rw [h.loaded i old hstate]
    rfl
  refine ⟨?_, h.round, ?_, ?_, ?_, ?_⟩
  · intro j hj
    by_cases hji : j = i
    · rw [hji]
      exact hheld
    · exact h.call j (by simpa [BatchSystem.put, hji] using hj)
  · intro j old' hj
    by_cases hji : j = i
    · subst hji
      simp [BatchSystem.put] at hj
    · have hread : s.recorder j = .loaded old' := by simpa [BatchSystem.put, hji] using hj
      have hne : (records j).type ≠ (records i).type := by
        -- only `i` has the lock of its type
        intro heq
        have hcall := h.call j (by rw [hread]; trivial)
        rw [heq, hheld] at hcall
        exact hji (Option.some.inj (Option.some.inj hcall)).symm
      rw [h.loaded j old' hread]
      simp [BatchSystem.put, hne]
  · intro type rest store hu
    have hround := h.round type (by rw [show s.updater = .taken type rest store from hu]; rfl)
    have hne : type ≠ (records i).type := by
      rintro rfl
      rw [hheld] at hround
      cases hround
    rw [h.taken type rest store hu]
    simp [BatchSystem.put, hne]
  · have hnew : i ∉ s.added := by
      rw [h.once.2 i, hstate]
      exact id
    refine ⟨List.nodup_append.2 ⟨h.once.1, List.nodup_singleton i, ?_⟩, fun j => ?_⟩
    · intro a ha b hb
      rintro rfl
      rw [List.mem_singleton] at hb
      exact hnew (hb ▸ ha)
    · by_cases hji : j = i
      · subst hji
        simp [BatchSystem.put, Recorder.Recorded]
      · simpa [BatchSystem.put, hji] using h.once.2 j
  · intro type id
    have hconserved := h.conserved type id
    have hdatabase : (s.put i (records i) (old.getD 0 + (records i).value)).database =
        s.database := rfl
    have hflight : (s.put i (records i) (old.getD 0 + (records i).value)).inFlight type id =
        s.inFlight type id := rfl
    rw [recorded_put, hdatabase, hflight, hold, pending_put, ← add_assoc (db.value type id),
      ← hconserved]
    abel

omit [DecidableEq ι] in
/-- The updater takes the map of a type away. -/
theorem swap (h : BatchInv records db s) {type : BatchUpdateType} {rest : List BatchUpdateType}
    {store : BatchStore M} (hstate : s.updater = .taken type rest store) :
    BatchInv records db ((s.setStore type ∅).update (.swapped type rest store)) := by
  have hheld : s.holder type = some none := h.round type (by rw [hstate]; rfl)
  obtain rfl : store = s.stores type := h.taken type rest store hstate
  refine ⟨h.call, ?_, ?_, ?_, h.once, ?_⟩
  · intro type' hu
    obtain rfl : type = type' := hu
    exact hheld
  · intro j old hj
    have hne : (records j).type ≠ type := by
      -- a call that has read the map has its lock
      intro heq
      have hcall := h.call j (by rw [show s.recorder j = .loaded old from hj]; trivial)
      rw [heq, hheld] at hcall
      cases hcall
    rw [h.loaded j old hj]
    simp [BatchSystem.update, BatchSystem.setStore, hne]
  · intro type' rest' store' hu
    cases hu
  · intro type' id
    have hconserved := h.conserved type' id
    have hflight : s.inFlight type' id = 0 := by simp [BatchSystem.inFlight, hstate]
    rw [hflight, add_zero] at hconserved
    refine Eq.trans ?_ hconserved
    -- what was in the map is in flight
    by_cases htype : type = type'
    · subst htype
      simp [BatchSystem.pending, BatchSystem.inFlight, BatchSystem.update, BatchSystem.setStore,
        amount_empty]
    · simp [BatchSystem.pending, BatchSystem.inFlight, BatchSystem.update, BatchSystem.setStore,
        htype, Ne.symm htype]

omit [DecidableEq ι] in
/-- The updater writes an entry. -/
theorem write (h : BatchInv records db s) {type : BatchUpdateType} {rest : List BatchUpdateType}
    {store : BatchStore M} {key : ℤ} {value : M} (hstate : s.updater = .writing type rest store)
    (hkey : store.lookup key = some value) :
    BatchInv records db (s.write type rest store key value) := by
  refine ⟨h.call, fun _ hu => hu.elim, h.loaded, ?_, h.once, ?_⟩
  · intro type' rest' store' hu
    cases hu
  · intro type' id
    have hconserved := h.conserved type' id
    refine Eq.trans ?_ hconserved
    have hwrite := value_write s.database key value type type' id
    have herase := amount_erase hkey id
    simp only [BatchSystem.write, BatchSystem.inFlight, BatchSystem.pending, hstate, hwrite]
    by_cases htype : type = type'
    · simp only [htype, true_and, if_true, ← herase]
      abel
    · simp [htype]

end BatchInv

/-- **A step of a call keeps the invariant.** -/
theorem addNewRecord_inv (h : BatchInv records db s) (i : ι) :
    BatchInv records db (addNewRecord records s i) := by
  unfold addNewRecord
  cases hstate : s.recorder i with
  | start =>
    simp only
    split
    · rename_i hfree
      refine (h.acquire (some i) hfree).record ?_ ?_ ?_
      · intro _
        exact Function.update_self ..
      · intro old hold
        cases hold
      · change Recorder.Recorded .locked ↔ (s.recorder i).Recorded
        rw [hstate]
        exact Iff.rfl
    · exact h
  | locked =>
    refine h.record ?_ ?_ ?_
    · intro _
      exact h.call i (by rw [hstate]; trivial)
    · intro old hold
      cases hold
      rfl
    · rw [hstate]
      exact Iff.rfl
  | loaded old =>
    have hput := h.put hstate
    cases old with
    | none => simpa using hput
    | some v => simpa using hput
  | stored =>
    have hdone : BatchInv records db (s.record i .done) := by
      refine h.record (fun hold => hold.elim) ?_ ?_
      · intro old hold
        cases hold
      · rw [hstate]
        exact Iff.rfl
    have hheld := h.call i (by rw [hstate]; trivial)
    refine hdone.release ?_ ?_
    · intro j htype hj
      have hij : j = i := by
        by_contra hji
        have hcall := h.call j (by simpa [BatchSystem.record, hji] using hj)
        rw [htype, hheld] at hcall
        exact hji (Option.some.inj (Option.some.inj hcall)).symm
      subst hij
      simp [BatchSystem.record, Recorder.Holds] at hj
    · intro hround
      have hholder := h.round _ hround
      rw [hheld] at hholder
      cases hholder
  | done => exact h

omit [DecidableEq ι] in
/-- The updater has nothing in flight and goes to a state in which it has no lock. -/
theorem BatchInv.goTo (h : BatchInv records db s) (hflight : ∀ type id, s.inFlight type id = 0)
    {state : Updater M} (hround : ∀ type, ¬ state.Holds type)
    (hafter : ∀ type id, (s.update state).inFlight type id = 0) :
    BatchInv records db (s.update state) := by
  refine h.update (fun type hu => absurd hu (hround type)) ?_ ?_
  · rintro type rest store rfl
    exact absurd rfl (hround type)
  · intro type id
    rw [hafter, hflight]

omit [DecidableEq ι] in
theorem BatchInv.finish (h : BatchInv records db s) (hflight : ∀ type id, s.inFlight type id = 0) :
    BatchInv records db s.finish := by
  have hsleep : BatchInv records db (s.update .sleeping) :=
    h.goTo hflight (fun _ hu => hu) fun _ _ => rfl
  exact ⟨hsleep.call, hsleep.round, hsleep.loaded, hsleep.taken, hsleep.once, hsleep.conserved⟩

omit [DecidableEq ι] in
theorem BatchInv.check (h : BatchInv records db s) (hflight : ∀ type id, s.inFlight type id = 0)
    (types : List BatchUpdateType) : BatchInv records db (s.check types) := by
  cases types with
  | nil => exact h.finish hflight
  | cons type rest => exact h.goTo hflight (fun _ hu => hu) fun _ _ => rfl

omit [DecidableEq ι] in
theorem BatchInv.drain (h : BatchInv records db s) (hflight : ∀ type id, s.inFlight type id = 0)
    (types : List BatchUpdateType) : BatchInv records db (s.drain types) := by
  cases types with
  | nil => exact h.finish hflight
  | cons type rest => exact h.goTo hflight (fun _ hu => hu) fun _ _ => rfl

omit [DecidableEq ι] in
/-- The updater gives up a lock it has and goes to a state in which it has none. -/
theorem BatchInv.unlock (h : BatchInv records db s) {type : BatchUpdateType} {state : Updater M}
    (hheld : s.updater.Holds type) (hround : ∀ type, ¬ state.Holds type)
    (hafter : ∀ type id, (s.update state).inFlight type id = s.inFlight type id) :
    BatchInv records db ((s.update state).release type) := by
  have hupdate : BatchInv records db (s.update state) := by
    refine h.update (fun type hu => absurd hu (hround type)) ?_ hafter
    rintro type rest store rfl
    exact absurd rfl (hround type)
  refine hupdate.release ?_ (hround type)
  intro i htype hi
  -- the lock is the updater's, not a call's
  have hcall := h.call i hi
  rw [htype, h.round type hheld] at hcall
  cases hcall

omit [DecidableEq ι] in
/-- **A step of the updater keeps the invariant.** -/
theorem batchUpdate_inv (h : BatchInv records db s) (key : ℤ) :
    BatchInv records db (batchUpdate s key) := by
  unfold batchUpdate
  cases hstate : s.updater with
  | sleeping => exact h.check (fun _ _ => by simp [BatchSystem.inFlight, hstate]) _
  | checking type rest =>
    simp only
    split
    · rename_i hfree
      refine (h.acquire none hfree).update ?_ (fun _ _ _ hu => by cases hu) ?_
      · intro type' hu
        obtain rfl : type = type' := hu
        exact Function.update_self ..
      · intro type' id
        simp [BatchSystem.inFlight, BatchSystem.update, BatchSystem.acquire, hstate]
    · exact h
  | looking type rest =>
    refine h.update ?_ (fun _ _ _ hu => by cases hu) ?_
    · intro type' hu
      exact h.round type' (by rw [hstate]; exact hu)
    · intro type' id
      simp [BatchSystem.inFlight, BatchSystem.update, hstate]
  | looked type rest hasData =>
    have hunlock : BatchInv records db ((s.update .sleeping).release type) := by
      refine h.unlock (by rw [hstate]; rfl) (fun _ hu => hu) fun _ _ => ?_
      simp [BatchSystem.inFlight, BatchSystem.update, hstate]
    simp only
    split
    · exact hunlock.drain (fun _ _ => rfl) batchUpdateTypes
    · have hcheck := hunlock.check (fun _ _ => rfl) rest
      cases rest with
      | nil => exact hcheck
      | cons type' rest => exact hcheck
  | draining type rest =>
    simp only
    split
    · rename_i hfree
      refine (h.acquire none hfree).update ?_ (fun _ _ _ hu => by cases hu) ?_
      · intro type' hu
        obtain rfl : type = type' := hu
        exact Function.update_self ..
      · intro type' id
        simp [BatchSystem.inFlight, BatchSystem.update, BatchSystem.acquire, hstate]
    · exact h
  | taking type rest =>
    refine h.update ?_ ?_ ?_
    · intro type' hu
      exact h.round type' (by rw [hstate]; exact hu)
    · intro type' rest' store hu
      cases hu
      rfl
    · intro type' id
      simp [BatchSystem.inFlight, BatchSystem.update, hstate]
  | taken type rest store => exact h.swap hstate
  | swapped type rest store =>
    have hunlock : BatchInv records db
        ((s.update (.writing type rest store)).release type) := by
      refine h.unlock (by rw [hstate]; rfl) (fun _ hu => hu) fun _ _ => ?_
      simp [BatchSystem.inFlight, BatchSystem.update, hstate]
    exact hunlock
  | writing type rest store =>
    simp only
    split
    · rename_i hempty
      refine h.drain (fun type' id => ?_) rest
      simp [BatchSystem.inFlight, hstate, amount_of_keys_eq_nil hempty]
    · cases hkey : store.lookup key with
      | none => exact h
      | some value => exact h.write hstate hkey

theorem batchStep_inv (h : BatchInv records db s) (a : BatchAction ι) :
    BatchInv records db (batchStep records s a) := by
  cases a with
  | record i => exact addNewRecord_inv h i
  | update key => exact batchUpdate_inv h key

end Conserves

/-! ### A complete round -/

section Round

variable {ι M : Type*} [DecidableEq ι] [AddCommGroup M]
variable {records : ι → BatchRecord M} {s : BatchSystem ι M} {r : ℕ}

/-- The maps of all types but these hold nothing. -/
def BatchSystem.EmptyBut (types : List BatchUpdateType) (s : BatchSystem ι M) : Prop :=
  ∀ type, type ∉ types → ∀ id, s.pending type id = 0

/-- What the updater has found or left empty in this round. -/
def BatchSystem.Swept (s : BatchSystem ι M) : Prop :=
  match s.updater with
  | .sleeping => True
  | .checking type rest | .looking type rest | .draining type rest | .taking type rest
  | .taken type rest _ => s.EmptyBut (type :: rest)
  | .looked type rest hasData => s.EmptyBut (type :: rest) ∧ (hasData = false → s.EmptyBut rest)
  | .swapped _ rest _ | .writing _ rest _ => s.EmptyBut rest

/-- In round `r` the maps the updater has been at are empty, and afterwards all are, as long as
nothing is recorded. -/
structure RoundInv (r : ℕ) (s : BatchSystem ι M) : Prop where
  le : r ≤ s.rounds
  during : s.rounds = r → s.Swept
  after : r < s.rounds → s.EmptyBut []

omit [DecidableEq ι] in
theorem emptyBut_all : s.EmptyBut batchUpdateTypes := fun type htype =>
  absurd (mem_batchUpdateTypes type) htype

omit [DecidableEq ι] in
/-- A map that holds nothing can be left out. -/
theorem BatchSystem.EmptyBut.tail {type : BatchUpdateType} {rest : List BatchUpdateType}
    (h : s.EmptyBut (type :: rest)) (hempty : ∀ id, s.pending type id = 0) : s.EmptyBut rest := by
  intro type' hrest
  by_cases heq : type' = type
  · rw [heq]
    exact hempty
  · refine h type' fun hmem => ?_
    rcases List.mem_cons.1 hmem with h' | h'
    · exact heq h'
    · exact hrest h'

omit [DecidableEq ι] in
theorem pending_setStore_empty (type : BatchUpdateType) (id : ℤ) :
    (s.setStore type ∅).pending type id = 0 := by
  simp [BatchSystem.pending, BatchSystem.setStore, amount_empty]

omit [DecidableEq ι] in
theorem BatchSystem.EmptyBut.setStore_empty {types : List BatchUpdateType}
    (h : s.EmptyBut types) (type : BatchUpdateType) : (s.setStore type ∅).EmptyBut types := by
  intro type' htype id
  by_cases heq : type' = type
  · rw [heq]
    exact pending_setStore_empty type id
  · have hpending : (s.setStore type ∅).pending type' id = s.pending type' id := by
      simp [BatchSystem.pending, BatchSystem.setStore, heq]
    rw [hpending]
    exact h type' htype id

namespace RoundInv

omit [DecidableEq ι] in
/-- Only the updater and the number of rounds matter, and what is empty. -/
theorem mono {s' : BatchSystem ι M} (h : RoundInv r s)
    (hempty : ∀ types, s.EmptyBut types → s'.EmptyBut types) (hupdater : s'.updater = s.updater)
    (hrounds : s'.rounds = s.rounds) : RoundInv r s' := by
  refine ⟨hrounds ▸ h.le, fun hr => ?_, fun hr => hempty _ (h.after (hrounds ▸ hr))⟩
  have hswept := h.during (hrounds ▸ hr)
  unfold BatchSystem.Swept at hswept ⊢
  rw [hupdater]
  cases hu : s.updater with
  | sleeping => trivial
  | looked type rest hasData =>
    rw [hu] at hswept
    exact ⟨hempty _ hswept.1, fun hdata => hempty _ (hswept.2 hdata)⟩
  | _ =>
    rw [hu] at hswept
    exact hempty _ hswept

omit [DecidableEq ι] in
theorem congr {s' : BatchSystem ι M} (h : RoundInv r s) (hstores : s'.stores = s.stores)
    (hupdater : s'.updater = s.updater) (hrounds : s'.rounds = s.rounds) : RoundInv r s' := by
  refine h.mono (fun types hempty type htype id => ?_) hupdater hrounds
  rw [BatchSystem.pending, hstores]
  exact hempty type htype id

omit [DecidableEq ι] in
theorem setStore_empty (h : RoundInv r s) (type : BatchUpdateType) :
    RoundInv r (s.setStore type ∅) :=
  h.mono (fun _ hempty => hempty.setStore_empty type) rfl rfl

omit [DecidableEq ι] in
theorem goTo (h : RoundInv r s) {state : Updater M}
    (hswept : s.rounds = r → (s.update state).Swept) : RoundInv r (s.update state) :=
  ⟨h.le, hswept, h.after⟩

omit [DecidableEq ι] in
theorem finish (h : RoundInv r s) (hempty : s.rounds = r → s.EmptyBut []) :
    RoundInv r s.finish := by
  have hle := h.le
  refine ⟨Nat.le_succ_of_le hle, fun _ => trivial, fun _ => ?_⟩
  rcases Nat.eq_or_lt_of_le hle with heq | hlt
  · exact hempty heq.symm
  · exact h.after hlt

omit [DecidableEq ι] in
theorem check (h : RoundInv r s) {types : List BatchUpdateType}
    (hempty : s.rounds = r → s.EmptyBut types) : RoundInv r (s.check types) := by
  cases types with
  | nil => exact h.finish hempty
  | cons type rest => exact h.goTo hempty

omit [DecidableEq ι] in
theorem drain (h : RoundInv r s) {types : List BatchUpdateType}
    (hempty : s.rounds = r → s.EmptyBut types) : RoundInv r (s.drain types) := by
  cases types with
  | nil => exact h.finish hempty
  | cons type rest => exact h.goTo hempty

end RoundInv

omit [DecidableEq ι] in
/-- A step of the updater keeps what it has swept. -/
theorem batchUpdate_round (h : RoundInv r s) (key : ℤ) : RoundInv r (batchUpdate s key) := by
  have hduring := h.during
  unfold BatchSystem.Swept at hduring
  unfold batchUpdate
  cases hstate : s.updater with
  | sleeping => exact h.check fun _ => emptyBut_all
  | checking type rest =>
    rw [hstate] at hduring
    simp only
    split
    · have hacquire : RoundInv r (s.acquire type none) := h.congr rfl rfl rfl
      exact hacquire.goTo hduring
    · exact h
  | looking type rest =>
    rw [hstate] at hduring
    refine h.goTo fun hr => ⟨hduring hr, fun hdata => (hduring hr).tail ?_⟩
    have hkeys : (s.stores type).keys = [] := by
      simpa using hdata
    exact amount_of_keys_eq_nil hkeys
  | looked type rest hasData =>
    rw [hstate] at hduring
    have hrelease : RoundInv r (s.release type) := h.congr rfl rfl rfl
    cases hasData with
    | true => exact hrelease.drain fun _ => emptyBut_all
    | false => exact hrelease.check fun hr => (hduring hr).2 rfl
  | draining type rest =>
    rw [hstate] at hduring
    simp only
    split
    · have hacquire : RoundInv r (s.acquire type none) := h.congr rfl rfl rfl
      exact hacquire.goTo hduring
    · exact h
  | taking type rest =>
    rw [hstate] at hduring
    exact h.goTo hduring
  | taken type rest store =>
    rw [hstate] at hduring
    have hempty : RoundInv r (s.setStore type ∅) := h.setStore_empty type
    refine hempty.goTo fun hr => ?_
    -- the map of this type has been swapped for an empty one
    exact ((hduring hr).setStore_empty type).tail (pending_setStore_empty type)
  | swapped type rest store =>
    rw [hstate] at hduring
    have hrelease : RoundInv r (s.release type) := h.congr rfl rfl rfl
    exact hrelease.goTo hduring
  | writing type rest store =>
    rw [hstate] at hduring
    simp only
    split
    · exact h.drain hduring
    · cases hkey : store.lookup key with
      | none => exact h
      | some value => exact ⟨h.le, hduring, h.after⟩

omit [DecidableEq ι] [AddCommGroup M] in
@[simp] theorem added_check (types : List BatchUpdateType) : (s.check types).added = s.added := by
  cases types <;> rfl

omit [DecidableEq ι] [AddCommGroup M] in
@[simp] theorem added_drain (types : List BatchUpdateType) : (s.drain types).added = s.added := by
  cases types <;> rfl

omit [DecidableEq ι] in
/-- The updater records nothing. -/
theorem added_batchUpdate (key : ℤ) : (batchUpdate s key).added = s.added := by
  unfold batchUpdate
  cases s.updater with
  | looked type rest hasData =>
    cases hasData with
    | true => exact added_drain batchUpdateTypes
    | false => exact added_check rest
  | sleeping => exact added_check batchUpdateTypes
  | writing type rest store =>
    simp only
    split
    · exact added_drain rest
    · cases store.lookup key <;> rfl
  | checking type rest =>
    simp only
    split <;> rfl
  | draining type rest =>
    simp only
    split <;> rfl
  | _ => rfl

/-- What a step records it adds at the end, and a step that records nothing leaves the maps to the
updater. -/
theorem batchStep_added (records : ι → BatchRecord M) (s : BatchSystem ι M) (a : BatchAction ι) :
    (∃ i, (batchStep records s a).added = s.added ++ [i]) ∨
      (batchStep records s a).added = s.added ∧
        ∀ r, RoundInv r s → RoundInv r (batchStep records s a) := by
  cases a with
  | update key =>
    exact .inr ⟨added_batchUpdate key, fun r h => batchUpdate_round h key⟩
  | record i =>
    simp only [batchStep, addNewRecord]
    cases hstate : s.recorder i with
    | start =>
      refine .inr ?_
      simp only
      split
      · exact ⟨rfl, fun r h => h.congr rfl rfl rfl⟩
      · exact ⟨rfl, fun r h => h⟩
    | locked => exact .inr ⟨rfl, fun r h => h.congr rfl rfl rfl⟩
    | loaded old =>
      refine .inl ⟨i, ?_⟩
      cases old <;> rfl
    | stored => exact .inr ⟨rfl, fun r h => h.congr rfl rfl rfl⟩
    | done => exact .inr ⟨rfl, fun r h => h⟩

theorem run_added (records : ι → BatchRecord M) (s : BatchSystem ι M)
    (actions : List (BatchAction ι)) :
    ∃ l, (Transition.run (batchStep records) s actions).added = s.added ++ l := by
  induction actions generalizing s with
  | nil => exact ⟨[], (List.append_nil _).symm⟩
  | cons a actions ih =>
    obtain ⟨l, hl⟩ := ih (batchStep records s a)
    rcases batchStep_added records s a with ⟨i, hi⟩ | ⟨hsame, _⟩
    · refine ⟨i :: l, ?_⟩
      rw [Transition.run_cons, hl, hi, List.append_assoc, List.singleton_append]
    · exact ⟨l, by rw [Transition.run_cons, hl, hsame]⟩

/-- While nothing is recorded, what the updater has swept stays empty. -/
theorem run_round (h : RoundInv r s) {actions : List (BatchAction ι)}
    (hadded : (Transition.run (batchStep records) s actions).added = s.added) :
    RoundInv r (Transition.run (batchStep records) s actions) := by
  induction actions generalizing s with
  | nil => exact h
  | cons a actions ih =>
    rw [Transition.run_cons] at hadded ⊢
    rcases batchStep_added records s a with ⟨i, hi⟩ | ⟨hsame, hround⟩
    · -- the record would still be there at the end
      obtain ⟨l, hl⟩ := run_added records (batchStep records s a) actions
      rw [hadded, hi, List.append_assoc] at hl
      have hlength := congrArg List.length hl
      simp only [List.length_append, List.length_singleton] at hlength
      omega
    · exact ih (hround r h) (hadded.trans hsame.symm)

/-- **Batched updates lose and duplicate nothing.**  At every moment of every run what is in the
database, in the maps and in flight is what was in the database and what has been recorded, each
call of `addNewRecord` once; and when a round begins and ends while nothing is recorded, it is all
in the database. -/
theorem batch_conserves (records : ι → BatchRecord M) (db : QuotaColumns M)
    (actions : List (BatchAction ι)) :
    let s := Transition.run (batchStep records) (.start ι db) actions
    (s.added.Nodup ∧ ∀ i, i ∈ s.added ↔ (s.recorder i).Recorded) ∧
      (∀ type id, s.database.value type id + s.pending type id + s.inFlight type id =
        db.value type id + s.recorded records type id) ∧
      ∀ actions', let s' := Transition.run (batchStep records) s actions'
        s'.added = s.added → s.updater = .sleeping → s'.updater = .sleeping →
          s.rounds < s'.rounds → ∀ type id,
            s'.database.value type id = db.value type id + s.recorded records type id := by
  intro s
  have hstep : ∀ s a, BatchInv records db s → BatchInv records db (batchStep records s a) :=
    fun _ a h => batchStep_inv h a
  have hinv : BatchInv records db s :=
    Transition.run_invariant_always hstep batchInv_start actions
  refine ⟨hinv.once, hinv.conserved, ?_⟩
  intro actions' s' hadded hbefore hafter hrounds type id
  have hinv' : BatchInv records db s' :=
    Transition.run_invariant_always hstep hinv actions'
  have hround : RoundInv s.rounds s := by
    refine ⟨le_rfl, fun _ => ?_, fun hlt => absurd hlt (lt_irrefl _)⟩
    simp [BatchSystem.Swept, hbefore]
  have hround' : RoundInv s.rounds s' := run_round hround hadded
  have hpending : s'.pending type id = 0 := hround'.after hrounds type List.not_mem_nil id
  have hflight : s'.inFlight type id = 0 := by simp [BatchSystem.inFlight, hafter]
  have hrecorded : s'.recorded records type id = s.recorded records type id := by
    simp only [BatchSystem.recorded, hadded]
  have hconserved := hinv'.conserved type id
  rwa [hpending, hflight, add_zero, add_zero, hrecorded] at hconserved

/-- Two calls that record for the same user. -/
def twoRecords (i : Bool) : BatchRecord ℤ :=
  if i then ⟨.userQuota, 1, 5⟩ else ⟨.userQuota, 1, -2⟩

/-- The second call records while the updater writes what the first has recorded. -/
def overlappingRound : List (BatchAction Bool) :=
  List.replicate 4 (BatchAction.record true) ++ List.replicate 8 (BatchAction.update 1) ++
    List.replicate 4 (BatchAction.record false) ++ List.replicate 22 (BatchAction.update 1)

/-- The round that follows writes what the second call has recorded. -/
theorem batch_conserves_overlapping :
    let db : QuotaColumns ℤ := ⟨fun _ => 10, 0, 0, 0, 0, 0⟩
    let s := Transition.run (batchStep twoRecords) (.start Bool db) overlappingRound
    let s' := Transition.run (batchStep twoRecords) s (List.replicate 30 (.update 1))
    s.database.value .userQuota 1 = 15 ∧ s'.database.value .userQuota 1 = 13 := by
  refine ⟨by decide, ?_⟩
  have h := (batch_conserves twoRecords ⟨fun _ => 10, 0, 0, 0, 0, 0⟩ overlappingRound).2.2
    (List.replicate 30 (.update 1)) (by decide) (by rfl) (by rfl) (by decide)
    .userQuota 1
  exact h

end Round

end NewApi
