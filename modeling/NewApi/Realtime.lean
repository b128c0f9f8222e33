/-
**The usage of a realtime session.**

A realtime session runs over two connections, and each has a reader.  What the client sends is
counted; what the upstream sends is counted as well, until the upstream reports the usage of a
response, which then stands for what has been counted.  A usage is charged by a call that takes some
time and can fail.  When one of the readers has stopped, the main function charges what is left, by
up to two calls, and returns the sum.  The other reader goes on meanwhile.

Both readers work on the same objects.  A usage is added to the sum before the call, and taken away
from the objects after it, if it has succeeded.  So what is counted for the client during a call gets
lost, what is left when a call has failed is added to the sum again, and so is what is left when the
main function does not wait for a call, or has charged it when the upstream reports a usage for it.
Apart from this everything is charged once.

An event is counted in one step here.

Main definitions:

* `NewApi.RealtimeUsage` — a usage;
* `NewApi.RealtimeSession`, `NewApi.realtimeStep` — a session with the calls, and its steps.  Next to
  the objects of the program it holds the single usages that have come in and been charged;
* `NewApi.ChargedOnce` — what is to hold when the session has returned;
* `NewApi.RealtimeAction.Undisturbed` — the steps that disturb no call.

Main results:

* `NewApi.realtime_charged_once` — **undisturbed sessions charge everything once**;
* `NewApi.failed_call_charged_twice` — a session whose call fails.
-/

import Mathlib
import NewApi.Lib.Transition

set_option autoImplicit false

namespace NewApi

/-! ### Usages -/

/-- The counts of a usage that are added up. -/
@[ext]
structure RealtimeUsage where
  totalTokens : ℤ
  inputTokens : ℤ
  outputTokens : ℤ
  inputCachedTokens : ℤ
  inputTextTokens : ℤ
  inputAudioTokens : ℤ
  outputTextTokens : ℤ
  outputAudioTokens : ℤ
deriving DecidableEq, Repr

namespace RealtimeUsage

instance instZero : Zero RealtimeUsage := ⟨⟨0, 0, 0, 0, 0, 0, 0, 0⟩⟩

instance instAdd : Add RealtimeUsage where
  add u v :=
    { totalTokens := u.totalTokens + v.totalTokens
      inputTokens := u.inputTokens + v.inputTokens
      outputTokens := u.outputTokens + v.outputTokens
      inputCachedTokens := u.inputCachedTokens + v.inputCachedTokens
      inputTextTokens := u.inputTextTokens + v.inputTextTokens
      inputAudioTokens := u.inputAudioTokens + v.inputAudioTokens
      outputTextTokens := u.outputTextTokens + v.outputTextTokens
      outputAudioTokens := u.outputAudioTokens + v.outputAudioTokens }

@[simp] theorem totalTokens_add (u v : RealtimeUsage) :
    (u + v).totalTokens = u.totalTokens + v.totalTokens := rfl

@[simp] theorem totalTokens_zero : (0 : RealtimeUsage).totalTokens = 0 := rfl

instance instAddCommMonoid : AddCommMonoid RealtimeUsage where
  add_assoc u v w := by
    ext <;> exact add_assoc _ _ _
  zero_add u := by
    ext <;> exact zero_add _
  add_zero u := by
    ext <;> exact add_zero _
  add_comm u v := by
    ext <;> exact add_comm _ _
  nsmul := nsmulRec

/-- Tokens that go to the model. -/
def input (textToken audioToken : ℕ) : RealtimeUsage :=
  ⟨textToken + audioToken, textToken + audioToken, 0, 0, textToken, audioToken, 0, 0⟩

/-- Tokens that come from the model. -/
def output (textToken audioToken : ℕ) : RealtimeUsage :=
  ⟨textToken + audioToken, 0, textToken + audioToken, 0, 0, 0, textToken, audioToken⟩

end RealtimeUsage

/-- A single usage: that of a response the upstream has reported, or that of an event that has been
counted.  They are numbered. -/
structure RealtimeItem where
  number : ℕ
  upstream : Bool
  usage : RealtimeUsage
deriving DecidableEq, Repr

/-- A call that charges a usage, with its result if it has returned.  The last calls are final. -/
structure WssCall where
  usage : RealtimeUsage
  result : Option Bool
  final : Bool
deriving DecidableEq, Repr

/-! ### A session -/

/-- Where the reader of the upstream is: between two messages, or waiting for the charge of a usage
that has been reported or counted; or it has stopped. -/
inductive TargetAt where
  | reading
  | consuming (upstream : Bool)
  | stopped
deriving DecidableEq, Repr

/-- Where the main function is: waiting for the end, in one of the two calls that charge what is left,
or it has returned. -/
inductive EpilogueAt where
  | waiting
  | chargingUsage
  | chargingLocal
  | returned
deriving DecidableEq, Repr

/-- A session.  The last five fields are not in the program: what has come in, what has been added to
the sum, what a reported usage stands for, and what is in `usage` and in `localUsage`. -/
structure RealtimeSession where
  usage : RealtimeUsage := 0
  localUsage : RealtimeUsage := 0
  sumUsage : RealtimeUsage := 0
  clientReading : Bool := true
  target : TargetAt := .reading
  main : EpilogueAt := .waiting
  calls : List WssCall := []
  received : Multiset RealtimeItem := 0
  charged : Multiset RealtimeItem := 0
  covered : Multiset RealtimeItem := 0
  usageItems : Multiset RealtimeItem := 0
  localItems : Multiset RealtimeItem := 0

namespace RealtimeSession

/-- Add a usage to the sum, and call for its charge. -/
def preConsumeUsage (usage : RealtimeUsage) (items : Multiset RealtimeItem) (final : Bool)
    (s : RealtimeSession) : RealtimeSession :=
  { s with
    sumUsage := s.sumUsage + usage
    charged := s.charged + items
    calls := s.calls ++ [⟨usage, none, final⟩] }

/-- Count the tokens of an event. -/
def count (usage : RealtimeUsage) (s : RealtimeSession) : RealtimeSession :=
  let item : RealtimeItem := ⟨s.received.card, false, usage⟩
  let s := { s with localUsage := s.localUsage + usage }
  if usage.totalTokens = 0 then s
  else { s with received := item ::ₘ s.received, localItems := item ::ₘ s.localItems }

/-- The upstream has reported the usage of a response. -/
def report (usage : RealtimeUsage) (s : RealtimeSession) : RealtimeSession :=
  let item : RealtimeItem := ⟨s.received.card, true, usage⟩
  { s with
    usage := s.usage + usage
    received := item ::ₘ s.received
    usageItems := item ::ₘ s.usageItems
    covered := s.covered + s.localItems }

/-- The call of the reader, or of the main function, that has not returned yet has the result `ok`. -/
def answer (final ok : Bool) (s : RealtimeSession) : RealtimeSession :=
  { s with
    calls := s.calls.map fun call =>
      if call.result = none ∧ call.final = final then { call with result := some ok } else call }

/-- Nothing is counted any more. -/
def clearLocal (s : RealtimeSession) : RealtimeSession := { s with localUsage := 0, localItems := 0 }

def clearUsage (s : RealtimeSession) : RealtimeSession := { s with usage := 0, usageItems := 0 }

/-- The second call of the epilogue, for what has been counted and is left. -/
def chargeLocal (s : RealtimeSession) : RealtimeSession :=
  if s.localUsage.totalTokens ≠ 0 then
    { s.preConsumeUsage s.localUsage s.localItems true with main := .chargingLocal }
  else { s with main := .returned }

/-- The epilogue begins: what has been reported and is left is charged first. -/
def epilogue (s : RealtimeSession) : RealtimeSession :=
  if s.usage.totalTokens ≠ 0 then
    { s.preConsumeUsage s.usage s.usageItems true with main := .chargingUsage }
  else s.chargeLocal

end RealtimeSession

/-- A step of a session: a message of the client, or the end of its reader; a message of the upstream,
which is the end of a response with or without a usage or something else, or the end of its reader;
the return of its call; and of the main function the begin of the epilogue, and the return of one of
the last calls. -/
inductive RealtimeAction where
  | clientEvent (textToken audioToken : ℕ)
  | clientStops
  | responseDone (usage : RealtimeUsage)
  | responseDoneUncounted (textToken audioToken : ℕ)
  | targetEvent (textToken audioToken : ℕ)
  | targetStops
  | consumed (ok : Bool)
  | finish
  | finalConsumed (ok : Bool)
deriving DecidableEq, Repr

/-- The message of the upstream while its reader reads. -/
def targetStep (s : RealtimeSession) : RealtimeAction → RealtimeSession
  | .responseDone usage =>
    let s := s.report usage
    { s.preConsumeUsage s.usage s.usageItems false with target := .consuming true }
  | .responseDoneUncounted textToken audioToken =>
    let s := s.count (.input textToken audioToken)
    { s.preConsumeUsage s.localUsage s.localItems false with target := .consuming false }
  | .targetEvent textToken audioToken => s.count (.output textToken audioToken)
  | .targetStops => { s with target := .stopped }
  | _ => s

/-- A step; one that is not possible does nothing.  The readers go on after the main function has
returned. -/
def realtimeStep (s : RealtimeSession) (a : RealtimeAction) : RealtimeSession :=
  match a, s.target with
  | .clientEvent textToken audioToken, _ =>
    if s.clientReading then s.count (.input textToken audioToken) else s
  | .clientStops, _ => { s with clientReading := false }
  | .finish, _ => if s.main = .waiting then s.epilogue else s
  | .finalConsumed ok, _ =>
    match s.main with
    | .chargingUsage => (s.answer true ok).chargeLocal
    | .chargingLocal => { s.answer true ok with main := .returned }
    | _ => s
  | .consumed false, .consuming _ => { s.answer false false with target := .stopped }
  | .consumed true, .consuming true =>
    { (s.answer false true).clearUsage.clearLocal with target := .reading }
  | .consumed true, .consuming false => { (s.answer false true).clearLocal with target := .reading }
  | .consumed _, _ => s
  | a, .reading => targetStep s a
  | _, _ => s

/-- The step disturbs no call: the calls of the readers succeed, while one is going on no event of the
client is counted, and the main function does not begin the epilogue then; and from then on nothing
is counted any more, and no response ends. -/
def RealtimeAction.Undisturbed (s : RealtimeSession) : RealtimeAction → Prop
  | .clientEvent textToken audioToken =>
    textToken + audioToken = 0 ∨
      s.main = .waiting ∧ ∀ upstream, s.target ≠ .consuming upstream
  | .targetEvent textToken audioToken => textToken + audioToken = 0 ∨ s.main = .waiting
  | .responseDone _ => s.main = .waiting
  | .responseDoneUncounted _ _ => s.main = .waiting
  | .consumed ok => ok = true
  | .finish => ∀ upstream, s.target ≠ .consuming upstream
  | _ => True

/-- A call that has succeeded, or is one of the last. -/
def WssCall.Counts (call : WssCall) : Prop := call.result = some true ∨ call.final = true

instance WssCall.decidableCounts : DecidablePred WssCall.Counts := fun _ =>
  inferInstanceAs (Decidable (_ ∨ _))

/-- The sum is the sum of what has been handed on in calls that count, and of what has been charged.
Every reported usage has been charged once, and of what has been counted exactly that which no
reported usage stands for. -/
structure ChargedOnce (s : RealtimeSession) : Prop where
  called : s.sumUsage = ((s.calls.filter (·.Counts)).map (·.usage)).sum
  summed : s.sumUsage = (s.charged.map (·.usage)).sum
  once : ∀ item ∈ s.received, s.charged.count item = if item ∈ s.covered then 0 else 1
  nothingElse : ∀ item ∈ s.charged, item ∈ s.received
  counted : ∀ item ∈ s.covered, item.upstream = false

/-! ### Undisturbed sessions -/

/-- Somewhere between two messages every single usage has been charged, is counted in `localUsage` or
is covered.  While a call is going on, all of them have been charged or are covered. -/
structure RealtimeInv (s : RealtimeSession) : Prop where
  running : s.main = .waiting
  called : s.sumUsage = (s.calls.map (·.usage)).sum
  summed : s.sumUsage = (s.charged.map (·.usage)).sum
  results : ∀ call ∈ s.calls, call.result = some true ∨
    (call.result = none ∧ call.final = false ∧ ∃ upstream, s.target = .consuming upstream)
  numbered : ∀ item ∈ s.received, item.number < s.received.card
  nodup : s.received.Nodup
  counted : ∀ item ∈ s.covered, item.upstream = false
  localCounted : ∀ item ∈ s.localItems, item.upstream = false ∧ 0 < item.usage.totalTokens
  localSum : s.localUsage = (s.localItems.map (·.usage)).sum
  parts : match s.target with
    | .consuming _ => s.charged + s.covered = s.received
    | _ => s.charged + s.localItems + s.covered = s.received
  empty : s.target ≠ .consuming true → s.usage = 0 ∧ s.usageItems = 0

theorem realtimeInv_start : RealtimeInv {} where
  running := rfl
  called := rfl
  summed := rfl
  results := by simp
  numbered := by simp
  nodup := by simp
  counted := by simp
  localCounted := by simp
  localSum := rfl
  parts := rfl
  empty _ := ⟨rfl, rfl⟩

section Invariant

variable {s : RealtimeSession}

theorem count_zero (s : RealtimeSession) : s.count 0 = s := by
  simp [RealtimeSession.count]

theorem count_of_pos (s : RealtimeSession) {usage : RealtimeUsage} (h : 0 < usage.totalTokens) :
    s.count usage = { s with
      localUsage := s.localUsage + usage
      received := ⟨s.received.card, false, usage⟩ ::ₘ s.received
      localItems := ⟨s.received.card, false, usage⟩ ::ₘ s.localItems } := by
  simp [RealtimeSession.count, h.ne']

@[simp] theorem count_target (s : RealtimeSession) (usage : RealtimeUsage) :
    (s.count usage).target = s.target := by
  simp only [RealtimeSession.count]
  split_ifs <;> rfl

/-- Tokens of an event: none, or some. -/
theorem input_cases (textToken audioToken : ℕ) :
    RealtimeUsage.input textToken audioToken = 0 ∨
      0 < (RealtimeUsage.input textToken audioToken).totalTokens := by
  rcases Nat.eq_zero_or_pos (textToken + audioToken) with hzero | hpos
  · obtain ⟨rfl, rfl⟩ : textToken = 0 ∧ audioToken = 0 := by omega
    exact .inl rfl
  · refine .inr ?_
    simp only [RealtimeUsage.input]
    omega

theorem output_cases (textToken audioToken : ℕ) :
    RealtimeUsage.output textToken audioToken = 0 ∨
      0 < (RealtimeUsage.output textToken audioToken).totalTokens := by
  rcases Nat.eq_zero_or_pos (textToken + audioToken) with hzero | hpos
  · obtain ⟨rfl, rfl⟩ : textToken = 0 ∧ audioToken = 0 := by omega
    exact .inl rfl
  · refine .inr ?_
    simp only [RealtimeUsage.output]
    omega

/-- A new item is different from those before it. -/
theorem RealtimeInv.fresh (h : RealtimeInv s) (upstream : Bool) (usage : RealtimeUsage) :
    (⟨s.received.card, upstream, usage⟩ ::ₘ s.received).Nodup ∧
      ∀ item ∈ (⟨s.received.card, upstream, usage⟩ ::ₘ s.received : Multiset RealtimeItem),
        item.number < s.received.card + 1 := by
  constructor
  · rw [Multiset.nodup_cons]
    refine ⟨fun hmem => ?_, h.nodup⟩
    have hlt := h.numbered _ hmem
    simp at hlt
  · intro item hitem
    rcases Multiset.mem_cons.1 hitem with rfl | hold
    · simp
    · exact Nat.lt_succ_of_lt (h.numbered item hold)

/-- Tokens that are counted between two messages. -/
theorem RealtimeInv.count (h : RealtimeInv s) (hidle : ∀ upstream, s.target ≠ .consuming upstream)
    {usage : RealtimeUsage} (husage : usage = 0 ∨ 0 < usage.totalTokens) :
    RealtimeInv (s.count usage) := by
  rcases husage with rfl | hpos
  · rw [count_zero]
    exact h
  · obtain ⟨hnodup, hnumbered⟩ := h.fresh false usage
    rw [count_of_pos s hpos]
    refine ⟨h.running, h.called, h.summed, h.results, ?_, hnodup, h.counted, ?_, ?_, ?_, h.empty⟩
    · simpa using hnumbered
    · intro item hitem
      rcases Multiset.mem_cons.1 hitem with rfl | hold
      · exact ⟨rfl, hpos⟩
      · exact h.localCounted item hold
    · rw [Multiset.map_cons, Multiset.sum_cons, h.localSum, add_comm]
    · have hparts := h.parts
      cases htarget : s.target with
      | consuming upstream => exact absurd htarget (hidle upstream)
      | _ =>
        rw [htarget] at hparts
        simp only at hparts ⊢
        rw [Multiset.add_cons, Multiset.cons_add, hparts]

theorem RealtimeInv.responseDone (h : RealtimeInv s) (hreading : s.target = .reading)
    (usage : RealtimeUsage) : RealtimeInv (targetStep s (.responseDone usage)) := by
  obtain ⟨hnodup, hnumbered⟩ := h.fresh true usage
  obtain ⟨husage, hitems⟩ := h.empty (by rw [hreading]; simp)
  have hparts := h.parts
  simp only [hreading] at hparts
  simp only [targetStep, RealtimeSession.report, RealtimeSession.preConsumeUsage, husage, hitems,
    zero_add]
  refine ⟨h.running, ?_, ?_, ?_, ?_, hnodup, ?_, h.localCounted, h.localSum, ?_, ?_⟩
  · simp [h.called]
  · simp [h.summed]
  · intro call hcall
    rcases List.mem_append.1 hcall with hold | hnew
    · rcases h.results call hold with hok | ⟨_, _, upstream, hconsuming⟩
      · exact .inl hok
      · simp [hreading] at hconsuming
    · obtain rfl := List.mem_singleton.1 hnew
      exact .inr ⟨rfl, rfl, true, rfl⟩
  · simpa using hnumbered
  · intro item hitem
    rcases Multiset.mem_add.1 hitem with hold | hlocal
    · exact h.counted item hold
    · exact (h.localCounted item hlocal).1
  · rw [← hparts]
    simp only [← Multiset.singleton_add]
    abel
  · intro hne
    simp at hne

theorem RealtimeInv.responseDoneUncounted (h : RealtimeInv s) (hreading : s.target = .reading)
    (textToken audioToken : ℕ) :
    RealtimeInv (targetStep s (.responseDoneUncounted textToken audioToken)) := by
  have hcount : RealtimeInv (s.count (.input textToken audioToken)) :=
    h.count (by rw [hreading]; simp) (input_cases textToken audioToken)
  have hreading' : (s.count (.input textToken audioToken)).target = .reading := by
    rw [count_target, hreading]
  simp only [targetStep]
  generalize s.count (.input textToken audioToken) = s at hcount hreading'
  obtain ⟨husage, hitems⟩ := hcount.empty (by rw [hreading']; simp)
  have hparts := hcount.parts
  simp only [hreading'] at hparts
  simp only [RealtimeSession.preConsumeUsage]
  refine ⟨hcount.running, ?_, ?_, ?_, hcount.numbered, hcount.nodup, hcount.counted, hcount.localCounted,
    hcount.localSum, hparts, fun _ => ⟨husage, hitems⟩⟩
  · simp [hcount.called]
  · simp [hcount.summed, hcount.localSum]
  · intro call hcall
    rcases List.mem_append.1 hcall with hold | hnew
    · rcases hcount.results call hold with hok | ⟨_, _, upstream, hconsuming⟩
      · exact .inl hok
      · simp [hreading'] at hconsuming
    · obtain rfl := List.mem_singleton.1 hnew
      exact .inr ⟨rfl, rfl, false, rfl⟩

/-- A call has succeeded, and what has been charged is taken away. -/
theorem RealtimeInv.consumed (h : RealtimeInv s) {upstream : Bool}
    (hconsuming : s.target = .consuming upstream) {usage : RealtimeUsage}
    {usageItems : Multiset RealtimeItem} (husage : usage = 0) (hitems : usageItems = 0) :
    RealtimeInv { s.answer false true with
      usage := usage, usageItems := usageItems, localUsage := 0, localItems := 0
      target := .reading } := by
  have hparts := h.parts
  simp only [hconsuming] at hparts
  refine ⟨h.running, ?_, h.summed, ?_, h.numbered, h.nodup, h.counted, by simp, by simp, ?_,
    fun _ => ⟨husage, hitems⟩⟩
  · have hmap : ∀ call : WssCall, (if call.result = none ∧ call.final = false then
        { call with result := some true } else call).usage = call.usage := by
      intro call
      split_ifs <;> rfl
    simp only [RealtimeSession.answer, List.map_map, Function.comp_def, hmap]
    exact h.called
  · intro call hcall
    simp only [RealtimeSession.answer, List.mem_map] at hcall
    obtain ⟨call', hcall', rfl⟩ := hcall
    rcases h.results call' hcall' with hok | ⟨hnone, hfinal, _⟩
    · exact .inl (by simp [hok])
    · exact .inl (by simp [hnone, hfinal])
  · simpa [RealtimeSession.answer] using hparts

/-- The reader of the upstream has stopped. -/
theorem RealtimeInv.stopped (h : RealtimeInv s) (hreading : s.target = .reading) :
    RealtimeInv { s with target := .stopped } := by
  have hparts := h.parts
  simp only [hreading] at hparts
  refine ⟨h.running, h.called, h.summed, fun call hcall => ?_, h.numbered, h.nodup, h.counted,
    h.localCounted, h.localSum, hparts, fun _ => h.empty (by rw [hreading]; simp)⟩
  rcases h.results call hcall with hok | ⟨_, _, upstream, hconsuming⟩
  · exact .inl hok
  · simp [hreading] at hconsuming

/-- Tokens that have been counted add up to tokens. -/
theorem totalTokens_pos {items : Multiset RealtimeItem}
    (h : ∀ item ∈ items, 0 < item.usage.totalTokens) (hne : items ≠ 0) :
    0 < (items.map fun (item : RealtimeItem) => item.usage).sum.totalTokens := by
  induction items using Multiset.induction_on with
  | empty => exact absurd rfl hne
  | cons item rest ih =>
    have hitem := h item (Multiset.mem_cons_self item rest)
    rw [Multiset.map_cons, Multiset.sum_cons, RealtimeUsage.totalTokens_add]
    by_cases hrest : rest = 0
    · simpa [hrest] using hitem
    · have hpos := ih (fun item hitem => h item (Multiset.mem_cons_of_mem hitem)) hrest
      omega

/-- What has been charged and what is covered are parts of what has come in, and all calls count. -/
theorem chargedOnce_of_parts (hcalled : s.sumUsage = (s.calls.map (·.usage)).sum)
    (hsummed : s.sumUsage = (s.charged.map (·.usage)).sum) (hcalls : ∀ call ∈ s.calls, call.Counts)
    (hnodup : s.received.Nodup) (hcounted : ∀ item ∈ s.covered, item.upstream = false)
    (hparts : s.charged + s.covered = s.received) : ChargedOnce s := by
  refine ⟨?_, hsummed, fun item hitem => ?_, fun item hitem => ?_, hcounted⟩
  · rw [List.filter_eq_self.2 (by simpa using hcalls)]
    exact hcalled
  · have hone := Multiset.count_eq_one_of_mem hnodup hitem
    rw [← hparts, Multiset.count_add] at hone
    split_ifs with hcovered
    · have hpos := Multiset.count_pos.2 hcovered
      omega
    · have hzero := Multiset.count_eq_zero_of_notMem hcovered
      omega
  · rw [← hparts]
    exact Multiset.mem_add.2 (.inl hitem)

/-- The epilogue has begun, and everything has been charged once. -/
structure Ended (s : RealtimeSession) : Prop where
  ended : s.main = .chargingLocal ∨ s.main = .returned
  idle : ∀ upstream, s.target ≠ .consuming upstream
  once : ChargedOnce s

/-- What is left is charged at the end. -/
theorem RealtimeInv.epilogue (h : RealtimeInv s)
    (hidle : ∀ upstream, s.target ≠ .consuming upstream) : Ended s.epilogue := by
  obtain ⟨husage, _⟩ := h.empty (hidle true)
  have hcalls : ∀ call ∈ s.calls, call.Counts := by
    intro call hcall
    rcases h.results call hcall with hok | ⟨_, _, upstream, hconsuming⟩
    · exact .inl hok
    · exact absurd hconsuming (hidle upstream)
  have hparts : s.charged + s.localItems + s.covered = s.received := by
    have hparts := h.parts
    cases htarget : s.target with
    | consuming upstream => exact absurd htarget (hidle upstream)
    | _ =>
      rw [htarget] at hparts
      exact hparts
  simp only [RealtimeSession.epilogue, RealtimeSession.chargeLocal, husage,
    RealtimeUsage.totalTokens_zero, ne_eq, not_true_eq_false, if_false]
  by_cases hsome : s.localUsage.totalTokens ≠ 0
  · rw [if_pos hsome]
    refine ⟨.inl rfl, hidle, chargedOnce_of_parts ?_ ?_ ?_ h.nodup h.counted hparts⟩
    · simp [RealtimeSession.preConsumeUsage, h.called]
    · simp [RealtimeSession.preConsumeUsage, h.summed, h.localSum]
    · intro call hcall
      rcases List.mem_append.1 hcall with hold | hnew
      · exact hcalls call hold
      · obtain rfl := List.mem_singleton.1 hnew
        exact .inr rfl
  · -- nothing is left to be charged
    rw [if_neg hsome]
    have hempty : s.localItems = 0 := by
      by_contra hne
      have hpos := totalTokens_pos (fun item hitem => (h.localCounted item hitem).2) hne
      rw [← h.localSum] at hpos
      omega
    rw [hempty, add_zero] at hparts
    exact ⟨.inr rfl, hidle, chargedOnce_of_parts h.called h.summed hcalls h.nodup h.counted hparts⟩

/-- The last calls count whatever their results are. -/
theorem ChargedOnce.answer (h : ChargedOnce s) (ok : Bool) : ChargedOnce (s.answer true ok) := by
  refine ⟨?_, h.summed, h.once, h.nothingElse, h.counted⟩
  have hsame : ∀ call : WssCall, (if call.result = none ∧ call.final = true then
      { call with result := some ok } else call).usage = call.usage := by
    intro call
    split_ifs <;> rfl
  have hcounts : ∀ call : WssCall, (if call.result = none ∧ call.final = true then
      { call with result := some ok } else call).Counts ↔ call.Counts := by
    intro call
    split_ifs with hfinal
    · exact iff_of_true (.inr hfinal.2) (.inr hfinal.2)
    · exact Iff.rfl
  simp only [RealtimeSession.answer, List.filter_map, List.map_map, Function.comp_def, hsame,
    hcounts]
  exact h.called

/-- A step after the epilogue has begun. -/
theorem Ended.step (h : Ended s) {a : RealtimeAction} (ha : a.Undisturbed s) :
    Ended (realtimeStep s a) := by
  have hmain : s.main ≠ .waiting := by
    rcases h.ended with hmain | hmain <;> simp [hmain]
  have hnone : ∀ {textToken audioToken : ℕ} {P : Prop}, (textToken + audioToken = 0 ∨
      s.main = .waiting ∧ P) → textToken = 0 ∧ audioToken = 0 := by
    intro textToken audioToken P hzero
    have hsum := hzero.resolve_right fun hwaiting => hmain hwaiting.1
    omega
  have hidle := h.idle
  -- only events without tokens are left, and the answers of the last calls
  cases a with
  | clientEvent textToken audioToken =>
    obtain ⟨rfl, rfl⟩ := hnone ha
    have hcount : s.count (.input 0 0) = s := count_zero s
    simp only [realtimeStep, hcount, ite_self]
    exact h
  | clientStops =>
    exact ⟨h.ended, h.idle, h.once.called, h.once.summed, h.once.once, h.once.nothingElse,
      h.once.counted⟩
  | finish =>
    simp only [realtimeStep, if_neg hmain]
    exact h
  | finalConsumed ok =>
    rcases h.ended with hmain | hmain
    · simp only [realtimeStep, hmain]
      have hanswer := h.once.answer ok
      exact ⟨.inr rfl, h.idle, hanswer.called, hanswer.summed, hanswer.once, hanswer.nothingElse,
        hanswer.counted⟩
    · simp only [realtimeStep, hmain]
      exact h
  | consumed ok =>
    obtain rfl : ok = true := ha
    cases htarget : s.target with
    | consuming upstream => exact absurd htarget (hidle upstream)
    | _ => simpa [realtimeStep, htarget] using h
  | responseDone usage => exact absurd ha hmain
  | responseDoneUncounted textToken audioToken => exact absurd ha hmain
  | targetEvent textToken audioToken =>
    obtain ⟨rfl, rfl⟩ := hnone (P := True) (ha.imp_right fun hwaiting => ⟨hwaiting, trivial⟩)
    have hcount : s.count (.output 0 0) = s := count_zero s
    cases htarget : s.target with
    | consuming upstream => exact absurd htarget (hidle upstream)
    | _ => simpa [realtimeStep, htarget, targetStep, hcount] using h
  | targetStops =>
    cases htarget : s.target with
    | consuming upstream => exact absurd htarget (hidle upstream)
    | reading =>
      simp only [realtimeStep, htarget, targetStep]
      exact ⟨h.ended, nofun, h.once.called, h.once.summed, h.once.once, h.once.nothingElse,
        h.once.counted⟩
    | stopped => simpa [realtimeStep, htarget] using h

/-- A step before. -/
theorem RealtimeInv.step (h : RealtimeInv s) {a : RealtimeAction} (ha : a.Undisturbed s) :
    RealtimeInv (realtimeStep s a) ∨ Ended (realtimeStep s a) := by
  cases a with
  | clientEvent textToken audioToken =>
    have hcount : RealtimeInv (s.count (.input textToken audioToken)) := by
      rcases ha with hzero | ⟨_, hidle⟩
      · obtain ⟨rfl, rfl⟩ : textToken = 0 ∧ audioToken = 0 := by omega
        rw [show RealtimeUsage.input 0 0 = 0 from rfl, count_zero]
        exact h
      · exact h.count hidle (input_cases textToken audioToken)
    simp only [realtimeStep]
    split_ifs
    · exact .inl hcount
    · exact .inl h
  | clientStops =>
    exact .inl ⟨h.running, h.called, h.summed, h.results, h.numbered, h.nodup, h.counted,
      h.localCounted, h.localSum, h.parts, h.empty⟩
  | finish =>
    simp only [realtimeStep, if_pos h.running]
    exact .inr (h.epilogue ha)
  | finalConsumed ok =>
    simp only [realtimeStep, h.running]
    exact .inl h
  | consumed ok =>
    obtain rfl : ok = true := ha
    cases htarget : s.target with
    | consuming upstream =>
      cases upstream with
      | true =>
        simp only [realtimeStep, htarget]
        exact .inl (h.consumed htarget rfl rfl)
      | false =>
        -- a call for what was counted: there is no usage of the upstream to clear
        obtain ⟨husage, hitems⟩ := h.empty (by simp [htarget])
        simp only [realtimeStep, htarget]
        exact .inl (h.consumed htarget husage hitems)
    | _ => exact .inl (by simpa [realtimeStep, htarget] using h)
  | responseDone usage =>
    cases htarget : s.target with
    | reading =>
      have hnext := h.responseDone htarget usage
      exact .inl (by simpa [realtimeStep, htarget] using hnext)
    | _ => exact .inl (by simpa [realtimeStep, htarget] using h)
  | responseDoneUncounted textToken audioToken =>
    cases htarget : s.target with
    | reading =>
      have hnext := h.responseDoneUncounted htarget textToken audioToken
      exact .inl (by simpa [realtimeStep, htarget] using hnext)
    | _ => exact .inl (by simpa [realtimeStep, htarget] using h)
  | targetEvent textToken audioToken =>
    cases htarget : s.target with
    | reading =>
      have hnext : RealtimeInv (s.count (.output textToken audioToken)) :=
        h.count (by rw [htarget]; simp) (output_cases textToken audioToken)
      exact .inl (by simpa [realtimeStep, htarget, targetStep] using hnext)
    | _ => exact .inl (by simpa [realtimeStep, htarget] using h)
  | targetStops =>
    cases htarget : s.target with
    | reading =>
      simp only [realtimeStep, htarget, targetStep]
      exact .inl (h.stopped htarget)
    | _ => exact .inl (by simpa [realtimeStep, htarget] using h)

end Invariant

/-- **Undisturbed sessions charge everything once.**  Whatever comes in from the client and from the
upstream, with whatever usages, whenever a reader stops: if no step of the session disturbs a call,
what it returns is the sum of what was charged by calls that count, each usage that was reported has
been charged once, and of what was counted exactly that which no reported usage stands for. -/
theorem realtime_charged_once (as : List RealtimeAction)
    (has : Transition.Along realtimeStep (fun s a => a.Undisturbed s) {} as)
    (hreturned : (Transition.run realtimeStep {} as).main = .returned) :
    ChargedOnce (Transition.run realtimeStep {} as) := by
  have hall : RealtimeInv (Transition.run realtimeStep {} as) ∨
      Ended (Transition.run realtimeStep {} as) := by
    refine @Transition.run_invariant _ _ _ _ (fun s => RealtimeInv s ∨ Ended s) ?_ _ _
      (.inl realtimeInv_start) has
    intro s a h ha
    rcases h with h | h
    · exact h.step ha
    · exact .inr (h.step ha)
  rcases hall with hrunning | hended
  · rw [hrunning.running] at hreturned
    cases hreturned
  · exact hended.once

/-- The upstream reports a usage, and the call that charges it fails: the usage is added to the sum
twice, and charged once. -/
theorem failed_call_charged_twice :
    let usage : RealtimeUsage := ⟨10, 6, 4, 0, 6, 0, 4, 0⟩
    let s := Transition.run realtimeStep {} [.responseDone usage, .consumed false, .finish,
      .finalConsumed true]
    s.main = .returned ∧ s.sumUsage = usage + usage ∧
      s.calls = [⟨usage, some false, false⟩, ⟨usage, some true, true⟩] ∧
      s.charged.count ⟨0, true, usage⟩ = 2 ∧ ¬ ChargedOnce s := by
  intro usage s
  have hcount : s.charged.count ⟨0, true, usage⟩ = 2 := by decide
  refine ⟨by decide, by decide, by decide, hcount, fun honce => ?_⟩
  have hone := honce.once ⟨0, true, usage⟩ (by decide)
  rw [hcount] at hone
  split_ifs at hone
  omega

/-- The client says something, the upstream answers and reports a usage for it, the client goes on and
closes. -/
theorem realtime_charged_once_session :
    let usage : RealtimeUsage := ⟨10, 6, 4, 0, 6, 0, 4, 0⟩
    ChargedOnce (Transition.run realtimeStep {} [.clientEvent 5 0, .targetEvent 4 0,
      .responseDone usage, .consumed true, .clientEvent 3 0, .clientStops, .finish, .targetEvent 0 0,
      .finalConsumed true]) := by
  refine realtime_charged_once _ ⟨.inr ⟨rfl, ?_⟩, .inr rfl, rfl, rfl, .inr ⟨rfl, ?_⟩, trivial, ?_,
    .inl rfl, trivial, trivial⟩ (by decide)
  all_goals
    intro upstream
    cases upstream <;> decide

end NewApi
