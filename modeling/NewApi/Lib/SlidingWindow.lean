/-
**Events in a sliding window of time.**

A limit "at most `n` events in any window of length `d`" is a property of the times of the events.
A limiter decides on each event with what it keeps of the earlier ones; what it has to know is how
many of them are *recent*, that is, less than `d` old.  This module counts events in windows over
any ordered group of times, and says what a limiter has to check for the limit to hold.

Main definitions:

* `SlidingWindow.countIn`, `SlidingWindow.AtMost` — the number of events in a window, and the limit;
* `SlidingWindow.recent` — the number of events that are less than `d` old;
* `SlidingWindow.Kept` — what a queue of the latest events has to keep;
* `SlidingWindow.Exact` — the answers of the limiter that admits an event exactly if fewer than
  `n` admitted ones are recent.

Main results:

* `SlidingWindow.AtMost.concat` — **an event may be added while fewer than `n` are recent**;
* `SlidingWindow.Exact.atMost`, `SlidingWindow.Exact.refused` — **the exact limiter keeps the limit,
  and refuses only what would be one too many**;
* `SlidingWindow.Kept.room`, `SlidingWindow.Kept.room_of_oldest`, `SlidingWindow.Kept.full` — **the
  queue decides as the exact limiter does**: its length and its oldest entry say whether there is
  room.
-/

import Mathlib.Algebra.Order.Group.Defs
import Mathlib.Algebra.Order.Group.Int
import Mathlib.Algebra.Order.Sub.Basic
import Mathlib.Algebra.Order.Group.Unbundled.Basic
import Mathlib.Data.List.Count
import Mathlib.Data.List.Induction

set_option autoImplicit false

namespace SlidingWindow

/-! ### Answers -/

section Admitted

variable {β : Type*}

/-- The times of the admitted events of a log of events and answers. -/
def admitted (log : List (β × Bool)) : List β := (log.filter Prod.snd).map Prod.fst

@[simp] theorem admitted_nil : admitted ([] : List (β × Bool)) = [] := rfl

@[simp] theorem admitted_append (log log' : List (β × Bool)) :
    admitted (log ++ log') = admitted log ++ admitted log' := by
  simp [admitted]

@[simp] theorem admitted_true (t : β) : admitted [(t, true)] = [t] := rfl

@[simp] theorem admitted_false (t : β) : admitted [(t, false)] = [] := rfl

end Admitted

/-! ### Events in a window -/

variable {α : Type*} [AddCommGroup α] [LinearOrder α]

/-- The number of events in the window of length `d` that opens at `t`. -/
def countIn (t d : α) (times : List α) : ℕ := times.countP fun x => t ≤ x ∧ x < t + d

/-- **The limit**: no window of length `d` holds more than `n` events. -/
def AtMost (n : ℕ) (d : α) (times : List α) : Prop := ∀ t, countIn t d times ≤ n

/-- The number of events less than `d` old. -/
def recent (d now : α) (times : List α) : ℕ := times.countP fun x => now - d < x

@[simp] theorem countIn_nil (t d : α) : countIn t d [] = 0 := rfl

@[simp] theorem recent_nil (d now : α) : recent d now [] = 0 := rfl

@[simp] theorem countIn_append (t d : α) (xs ys : List α) :
    countIn t d (xs ++ ys) = countIn t d xs + countIn t d ys := List.countP_append

@[simp] theorem recent_append (d now : α) (xs ys : List α) :
    recent d now (xs ++ ys) = recent d now xs + recent d now ys := List.countP_append

theorem recent_le_length (d now : α) (xs : List α) : recent d now xs ≤ xs.length :=
  List.countP_le_length

variable {d now oldest : α} {xs times queue rest : List α} {n : ℕ} {log : List (α × Bool)}

/-- No event is recent if all are at least `d` old. -/
theorem recent_eq_zero (h : ∀ x ∈ xs, x ≤ now - d) :
    recent d now xs = 0 := by
  apply List.countP_eq_zero.2
  intro x hx
  simpa using h x hx

/-- Only the events after the old ones can be recent. -/
theorem recent_append_of_old (h : ∀ x ∈ xs, x ≤ now - d) (ys : List α) :
    recent d now (xs ++ ys) = recent d now ys := by
  rw [recent_append, recent_eq_zero h, Nat.zero_add]

/-- Every event is recent if all are less than `d` old. -/
theorem recent_eq_length (h : ∀ x ∈ xs, now - d < x) :
    recent d now xs = xs.length := by
  apply List.countP_eq_length.2
  intro x hx
  simpa using h x hx

/-- Of a list from the latest event on, all but the first `n` are old if at most `n` events are
recent. -/
theorem old_of_mem_drop {latest : List α} (hsorted : latest.Pairwise (· ≥ ·))
    (hn : recent d now latest ≤ n) : ∀ x ∈ latest.drop n, x ≤ now - d := by
  intro x hx
  by_contra hnew
  have hsplit := List.take_append_drop n latest
  rw [← hsplit] at hsorted hn
  have htake : ∀ y ∈ latest.take n, now - d < y := by
    intro y hy
    exact (not_le.1 hnew).trans_le ((List.pairwise_append.1 hsorted).2.2 y hy x hx)
  have hlen : (latest.take n).length = n := by
    rw [List.length_take]
    have hpos := List.length_pos_of_mem hx
    rw [List.length_drop] at hpos
    omega
  have hone : 0 < recent d now (latest.drop n) :=
    List.countP_pos_iff.2 ⟨x, hx, by simpa using not_le.1 hnew⟩
  rw [recent_append, recent_eq_length htake] at hn
  omega

@[simp] theorem recent_reverse (d now : α) (xs : List α) :
    recent d now xs.reverse = recent d now xs := List.countP_reverse

theorem atMost_nil (n : ℕ) (d : α) : AtMost n d [] := fun _ => Nat.zero_le _

/-! ### A queue of the latest events -/

/-- A queue keeps what a limiter has to know of the events at `times`: it ends them, it is at most
`n` long, and unless it is full every event before it is at least `d` old. -/
structure Kept (n : ℕ) (d now : α) (queue times : List α) : Prop where
  length_le : queue.length ≤ n
  split : ∃ old, times = old ++ queue ∧ (queue.length < n → ∀ x ∈ old, x ≤ now - d)

/-- Nothing has to be kept of events that are all old. -/
theorem kept_nil (h : ∀ x ∈ times, x ≤ now - d) :
    Kept n d now [] times :=
  ⟨Nat.zero_le n, times, by simp, fun _ => h⟩

/-- A queue that is not full: there is room for an event. -/
theorem Kept.room (h : Kept n d now queue times) (hlt : queue.length < n) :
    recent d now times < n := by
  obtain ⟨old, rfl, hold⟩ := h.split
  rw [recent_append_of_old (hold hlt)]
  exact (recent_le_length d now queue).trans_lt hlt

/-- A queue that is not full takes the next event. -/
theorem Kept.push (h : Kept n d now queue times) (hlt : queue.length < n) :
    Kept n d now (queue ++ [now]) (times ++ [now]) := by
  obtain ⟨old, rfl, hold⟩ := h.split
  refine ⟨?_, old, by simp, fun _ => hold hlt⟩
  rw [List.length_append, List.length_singleton]
  omega

/-- In a full queue the next event takes the place of the oldest. -/
theorem Kept.roll (h : Kept n d now (oldest :: rest) times) (hfull : n ≤ (oldest :: rest).length) :
    Kept n d now (rest ++ [now]) (times ++ [now]) := by
  obtain ⟨old, rfl, -⟩ := h.split
  have hle := h.length_le
  simp only [List.length_cons] at hle hfull
  refine ⟨by simpa using hle, old ++ [oldest], by simp, fun hlt => ?_⟩
  have hlt' : rest.length + 1 < n := by simpa using hlt
  omega

/-- The oldest entry of a queue is old: there is room for an event. -/
theorem Kept.room_of_oldest (h : Kept n d now (oldest :: rest) times)
    (hsorted : times.Pairwise (· ≤ ·)) (hold : oldest ≤ now - d) : recent d now times < n := by
  obtain ⟨old, rfl, -⟩ := h.split
  have hle := h.length_le
  have hbefore : ∀ x ∈ old ++ [oldest], x ≤ now - d := by
    intro x hx
    rcases List.mem_append.1 hx with hx | hx
    · exact ((List.pairwise_append.1 hsorted).2.2 x hx oldest List.mem_cons_self).trans hold
    · rwa [List.mem_singleton.1 hx]
  have hsplit : old ++ oldest :: rest = (old ++ [oldest]) ++ rest := by simp
  rw [hsplit, recent_append_of_old hbefore]
  have hrest := recent_le_length d now rest
  rw [List.length_cons] at hle
  omega

/-- The oldest entry of a full queue is recent: one more event would be too many. -/
theorem Kept.full (h : Kept n d now (oldest :: rest) times) (hfull : n ≤ (oldest :: rest).length)
    (hsorted : times.Pairwise (· ≤ ·)) (hnew : now - d < oldest) : n ≤ recent d now times := by
  obtain ⟨old, rfl, -⟩ := h.split
  have hall : ∀ x ∈ oldest :: rest, now - d < x := by
    intro x hx
    have hqueue := (List.pairwise_append.1 hsorted).2.1
    rcases List.mem_cons.1 hx with rfl | hx
    · exact hnew
    · exact hnew.trans_le ((List.pairwise_cons.1 hqueue).1 x hx)
  rw [recent_append, recent_eq_length hall]
  omega

/-! ### The exact limiter -/

/-- **The exact limiter**: an event is admitted exactly if fewer than `n` admitted ones are
recent. -/
def Exact (n : ℕ) (d : α) (log : List (α × Bool)) : Prop :=
  ∀ earlier t answer later, log = earlier ++ (t, answer) :: later →
    (answer = true ↔ recent d t (admitted earlier) < n)

theorem exact_nil (n : ℕ) (d : α) : Exact n d [] := by
  intro earlier t answer later h
  cases earlier <;> simp at h

/-- One more answer of the exact limiter. -/
theorem Exact.concat {b : Bool} (h : Exact n d log)
    (hb : b = true ↔ recent d now (admitted log) < n) : Exact n d (log ++ [(now, b)]) := by
  intro earlier t answer later hsplit
  rcases List.eq_nil_or_concat later with rfl | ⟨later', last, rfl⟩
  · obtain ⟨rfl, hlast⟩ := List.append_inj' hsplit rfl
    obtain ⟨rfl, rfl⟩ : now = t ∧ b = answer := by simpa using hlast
    exact hb
  · rw [List.concat_eq_append, ← List.cons_append, ← List.append_assoc] at hsplit
    exact h earlier t answer later' (List.append_inj' hsplit rfl).1

/-- The exact limiter refuses only what would be one too many. -/
theorem Exact.refused {t : α} {earlier later : List (α × Bool)} (h : Exact n d log)
    (hsplit : log = earlier ++ (t, false) :: later) : n ≤ recent d t (admitted earlier) := by
  have hfalse := h earlier t false later hsplit
  simpa using hfalse

variable [IsOrderedAddMonoid α]

/-- **An event may be added while fewer than `n` are recent.** -/
theorem AtMost.concat (h : AtMost n d times) (hn : recent d now times < n) :
    AtMost n d (times ++ [now]) := by
  intro t
  rw [countIn_append]
  by_cases hin : t ≤ now ∧ now < t + d
  · -- what the window holds besides the new event is recent
    have hrecent : countIn t d times ≤ recent d now times := by
      apply List.countP_mono_left
      intro x _ hx
      have hx' : t ≤ x ∧ x < t + d := by simpa using hx
      have hopen : now - d < t := sub_lt_iff_lt_add.2 hin.2
      simpa using lt_of_lt_of_le hopen hx'.1
    have hone : countIn t d [now] ≤ 1 := List.countP_le_length
    omega
  · have hnone : countIn t d [now] = 0 := by simp [countIn, hin]
    rw [hnone, Nat.add_zero]
    exact h t

/-- At most `n` events are recent, in a discrete time. -/
theorem AtMost.recent_le {d now : ℤ} {times : List ℤ} (h : AtMost n d times)
    (hpast : ∀ x ∈ times, x ≤ now) : recent d now times ≤ n := by
  refine le_trans ?_ (h (now - d + 1))
  apply List.countP_mono_left
  intro x hx hnew
  have hle := hpast x hx
  simp only [decide_eq_true_eq] at hnew ⊢
  omega

/-- Fewer of fewer events are recent at a later time. -/
theorem recent_le {later : α} {ys : List α} (hle : now ≤ later) (h : xs.Sublist ys) :
    recent d later xs ≤ recent d now ys := by
  refine (List.countP_mono_left fun x _ hx => ?_).trans h.countP_le
  have hx' : later - d < x := by simpa using hx
  simpa using (sub_le_sub_right hle d).trans_lt hx'

/-- What is kept is enough at any later time. -/
theorem Kept.mono {later : α} (h : Kept n d now queue times) (hle : now ≤ later) :
    Kept n d later queue times := by
  obtain ⟨old, hsplit, hold⟩ := h.split
  refine ⟨h.length_le, old, hsplit, fun hlt x hx => ?_⟩
  exact (hold hlt x hx).trans (sub_le_sub_right hle d)

/-- **The exact limiter keeps the limit**, in whatever order the times come. -/
theorem Exact.atMost (h : Exact n d log) :
    AtMost n d (admitted log) := by
  induction log using List.reverseRecOn with
  | nil => exact atMost_nil n d
  | append_singleton log event ih =>
    obtain ⟨now, b⟩ := event
    have hlog : Exact n d log := fun earlier t answer later hsplit =>
      h earlier t answer (later ++ [(now, b)]) (by rw [hsplit]; simp)
    cases b with
    | false => simpa using ih hlog
    | true =>
      have hroom : recent d now (admitted log) < n := (h log now true [] rfl).1 rfl
      simpa using (ih hlog).concat hroom

end SlidingWindow
