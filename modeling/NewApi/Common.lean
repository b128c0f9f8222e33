/-
**Strings, faults and errors shared by the model.**

Every database statement of the program may fail.  A statement that can fail is given a `Fault`:
the text of the error it returns, or nothing.  A transaction is a function that returns either an
error, and then the tables are as before, or the new tables.  The few functions whose loop need
not finish return `Failure.hang` when it does not: a call that never returns commits nothing.

Main definitions:

* `NewApi.wrap64` — the value of a 64-bit signed integer computed without bounds;
* `NewApi.trimSpace`, `NewApi.contains`, `NewApi.hasPrefix` — the string functions the billing code
  branches on;
* `NewApi.Fault`, `NewApi.Failure` — a failing statement, and how a call can fail;
* `NewApi.NewAPIError` — the error a request is answered with.

Main results:

* `NewApi.trimSpace_trimSpace` — trimming twice is trimming once.
-/

import Mathlib

set_option autoImplicit false

namespace NewApi

/-! ### Machine integers -/

/-- The 64-bit signed integer that `x` wraps around to. -/
def wrap64 (x : ℤ) : ℤ := Int.bmod x (2 ^ 64)

theorem wrap64_of_lt {x : ℤ} (h : 0 ≤ x) (hx : x < 2 ^ 63) : wrap64 x = x := by
  unfold wrap64
  rw [Int.bmod_eq_of_le] <;> omega

theorem wrap64_of_ge {x : ℤ} (h : 2 ^ 63 ≤ x) (hx : x < 2 ^ 64) : wrap64 x = x - 2 ^ 64 := by
  have hbmod : wrap64 x = if x % 2 ^ 64 < 2 ^ 63 then x % 2 ^ 64 else x % 2 ^ 64 - 2 ^ 64 := rfl
  rw [hbmod, Int.emod_eq_of_lt (by omega) hx, if_neg (by omega)]

theorem wrap64_add_wrap64 (x y : ℤ) : wrap64 (x + wrap64 y) = wrap64 (x + y) := by
  unfold wrap64
  exact Int.add_bmod_bmod

theorem wrap64_eq_self_iff {x a : ℤ} (hlo : -2 ^ 63 ≤ a) (hhi : a < 2 ^ 63) :
    wrap64 (x + a) = a ↔ (2 : ℤ) ^ 64 ∣ x := by
  have hbmod : wrap64 (x + a) = if (x + a) % 2 ^ 64 < 2 ^ 63 then (x + a) % 2 ^ 64
      else (x + a) % 2 ^ 64 - 2 ^ 64 := rfl
  rw [hbmod]
  split <;> omega

/-! ### Strings -/

/-- White space as `unicode.IsSpace` has it. -/
def isSpace (c : Char) : Bool :=
  [0x09, 0x0A, 0x0B, 0x0C, 0x0D, 0x20, 0x85, 0xA0, 0x1680, 0x2028, 0x2029, 0x202F, 0x205F,
    0x3000].contains c.toNat || (0x2000 ≤ c.toNat && c.toNat ≤ 0x200A)

/-- Drop the leading and the trailing elements that satisfy `p`. -/
def trimList {α : Type*} (p : α → Bool) (l : List α) : List α :=
  ((l.dropWhile p).reverse.dropWhile p).reverse

/-- The string without its leading and trailing white space. -/
def trimSpace (s : String) : String := String.ofList (trimList isSpace s.toList)

/-- The number of bytes of a string. -/
def byteLength (s : String) : ℕ := (s.toList.map Char.utf8Size).sum

/-- Whether `sub` occurs in `s`. -/
def contains (s sub : String) : Bool := decide (sub.toList <:+: s.toList)

/-- Whether `s` starts with `pre`. -/
def hasPrefix (s pre : String) : Bool := pre.toList.isPrefixOf s.toList

/-- A list none of whose ends satisfies `p` is not shortened. -/
theorem dropWhile_eq_self {α : Type*} {p : α → Bool} {l : List α}
    (h : ∀ a ∈ l.head?, p a = false) : l.dropWhile p = l := by
  cases l with
  | nil => rfl
  | cons a l => simp [h a (by simp)]

theorem head?_dropWhile {α : Type*} (p : α → Bool) (l : List α) :
    ∀ a ∈ (l.dropWhile p).head?, p a = false := by
  induction l with
  | nil => simp
  | cons b l ih =>
    by_cases hb : p b = true
    · simpa [hb] using ih
    · intro a ha
      have : b = a := by simpa [hb] using ha
      rw [← this]
      simpa using hb

theorem trimList_trimList {α : Type*} (p : α → Bool) (l : List α) :
    trimList p (trimList p l) = trimList p l := by
  -- what is left after both cuts starts and ends outside `p`
  have hlast : ∀ a ∈ ((l.dropWhile p).reverse.dropWhile p).head?, p a = false :=
    head?_dropWhile p _
  have hfirst : ∀ a ∈ (trimList p l).head?, p a = false := by
    intro a ha
    refine head?_dropWhile p l a ?_
    have hsuffix : (l.dropWhile p).reverse.dropWhile p <:+ (l.dropWhile p).reverse :=
      List.dropWhile_suffix p
    have hprefix : trimList p l <+: l.dropWhile p := by
      have := List.reverse_prefix.2 hsuffix
      rwa [List.reverse_reverse] at this
    obtain ⟨t, ht⟩ := hprefix
    rw [← ht]
    cases hl : trimList p l with
    | nil => rw [hl] at ha; simp at ha
    | cons b m => rw [hl] at ha; simpa using ha
  have hcut : (trimList p l).dropWhile p = trimList p l := dropWhile_eq_self hfirst
  have hcut' : (trimList p l).reverse.dropWhile p = (trimList p l).reverse := by
    refine dropWhile_eq_self ?_
    simpa [trimList] using hlast
  have hdef : trimList p (trimList p l)
      = (((trimList p l).dropWhile p).reverse.dropWhile p).reverse := rfl
  rw [hdef, hcut, hcut', List.reverse_reverse]

@[simp] theorem trimSpace_trimSpace (s : String) : trimSpace (trimSpace s) = trimSpace s := by
  simp [trimSpace, trimList_trimList]

@[simp] theorem trimSpace_empty : trimSpace "" = "" := by decide

/-! ### Faults -/

/-- The error text a database statement returns, or nothing when it succeeds. -/
abbrev Fault := Option String

/-- How a call fails: it returns an error, or it never returns. -/
inductive Failure where
  | err (text : String)
  | hang
deriving DecidableEq, Repr

/-- Continue unless the statement failed. -/
def guardFault {ε α : Type*} (fault : Option ε) (rest : Except ε α) : Except ε α :=
  match fault with
  | some e => .error e
  | none => rest

@[simp] theorem guardFault_none {ε α : Type*} (rest : Except ε α) :
    guardFault none rest = rest := rfl

@[simp] theorem guardFault_some {ε α : Type*} (e : ε) (rest : Except ε α) :
    guardFault (some e) rest = .error e := rfl

theorem guardFault_eq_ok {ε α : Type*} {fault : Option ε} {rest : Except ε α} {a : α} :
    guardFault fault rest = .ok a ↔ fault = none ∧ rest = .ok a := by
  cases fault <;> simp

/-! ### Errors of a request -/

/-- The error codes the billing code uses. -/
inductive ErrorCode where
  | invalidRequest
  | queryDataError
  | updateDataError
  | insufficientUserQuota
  | preConsumeTokenQuotaFailed
deriving DecidableEq, Repr

def statusForbidden : ℤ := 403

def statusInternalServerError : ℤ := 500

/-- The error a request is answered with. -/
structure NewAPIError where
  err : String
  skipRetry : Bool
  recordErrorLog : Option Bool
  errorCode : ErrorCode
  statusCode : ℤ
deriving DecidableEq, Repr

/-- An error of the server's own, which is logged; all of its uses here skip the retry. -/
def newError (err : String) (errorCode : ErrorCode) : NewAPIError where
  err := err
  skipRetry := true
  recordErrorLog := none
  errorCode := errorCode
  statusCode := statusInternalServerError

/-- An error with a status code; all of its uses here skip the retry and the error log. -/
def newErrorWithStatusCode (err : String) (errorCode : ErrorCode) (statusCode : ℤ) :
    NewAPIError where
  err := err
  skipRetry := true
  recordErrorLog := some false
  errorCode := errorCode
  statusCode := statusCode

end NewApi
