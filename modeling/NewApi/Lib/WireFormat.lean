/-
**Words and texts on the wire.**

A number is written in a fixed number of bytes, the highest byte first, and a text behind its length
in four bytes.

Main definitions:

* `WireFormat.word`, `WireFormat.value` — the bytes of a number, and the number of bytes;
* `WireFormat.readWord` — a number off the front;
* `WireFormat.sized` — a text behind its length.

Main results:

* `WireFormat.value_word`, `WireFormat.word_value` — the two are inverse;
* `WireFormat.readWord_eq_some_iff` — **what is read off the front is what has been written there**.
-/

import Mathlib.Data.List.Induction
import Mathlib.Tactic.Linarith
import Mathlib.Tactic.Ring

set_option autoImplicit false

namespace WireFormat

abbrev Byte := BitVec 8

/-- The bytes of a number, the highest first. -/
def word : ℕ → ℕ → List Byte
  | 0, _ => []
  | k + 1, n => word k (n / 256) ++ [BitVec.ofNat 8 n]

/-- The number of bytes, the highest first. -/
def value (bytes : List Byte) : ℕ := bytes.foldl (fun n b => 256 * n + b.toNat) 0

/-- A number off the front. -/
def readWord (k : ℕ) (buf : List Byte) : Option (ℕ × List Byte) :=
  if buf.length < k then none else some (value (buf.take k), buf.drop k)

/-- A text behind its length. -/
def sized (text : List Byte) : List Byte := word 4 text.length ++ text

@[simp] theorem length_word (k n : ℕ) : (word k n).length = k := by
  induction k generalizing n with
  | zero => rfl
  | succ k ih => rw [word, List.length_append, ih, List.length_singleton]

theorem value_append_singleton (bytes : List Byte) (b : Byte) :
    value (bytes ++ [b]) = 256 * value bytes + b.toNat := by
  rw [value, List.foldl_append]
  rfl

/-- A number of `k` bytes. -/
theorem value_lt (bytes : List Byte) : value bytes < 256 ^ bytes.length := by
  induction bytes using List.reverseRecOn with
  | nil => exact Nat.one_pos
  | append_singleton bytes b ih =>
    have hb : b.toNat < 256 := b.isLt
    rw [value_append_singleton, List.length_append, List.length_singleton, pow_succ]
    omega

/-- What is written can be read. -/
theorem value_word {k n : ℕ} (h : n < 256 ^ k) : value (word k n) = n := by
  induction k generalizing n with
  | zero =>
    rw [pow_zero] at h
    exact (Nat.lt_one_iff.1 h).symm
  | succ k ih =>
    have hdiv : n / 256 < 256 ^ k := by
      rw [pow_succ] at h
      exact Nat.div_lt_of_lt_mul (by omega)
    have hlow : (BitVec.ofNat 8 n).toNat = n % 256 := BitVec.toNat_ofNat n 8
    rw [word, value_append_singleton, ih hdiv, hlow]
    omega

/-- What is read can be written. -/
theorem word_value (bytes : List Byte) : word bytes.length (value bytes) = bytes := by
  induction bytes using List.reverseRecOn with
  | nil => rfl
  | append_singleton bytes b ih =>
    have hb : b.toNat < 256 := b.isLt
    have hdiv : value (bytes ++ [b]) / 256 = value bytes := by
      rw [value_append_singleton]
      omega
    have hlow : BitVec.ofNat 8 (value (bytes ++ [b])) = b := by
      apply BitVec.eq_of_toNat_eq
      rw [BitVec.toNat_ofNat, value_append_singleton]
      omega
    rw [List.length_append, List.length_singleton, word, hdiv, ih, hlow]

/-- **What is read off the front is what has been written there.** -/
theorem readWord_eq_some_iff {k n : ℕ} {buf rest : List Byte} :
    readWord k buf = some (n, rest) ↔ n < 256 ^ k ∧ buf = word k n ++ rest := by
  unfold readWord
  constructor
  · intro h
    split at h
    · cases h
    · rename_i hlong
      have hlength : (buf.take k).length = k := by
        rw [List.length_take]
        omega
      simp only [Option.some.injEq, Prod.mk.injEq] at h
      obtain ⟨rfl, rfl⟩ := h
      have hlt := value_lt (buf.take k)
      have hword := word_value (buf.take k)
      rw [hlength] at hlt hword
      refine ⟨hlt, ?_⟩
      rw [hword, List.take_append_drop]
  · rintro ⟨hn, rfl⟩
    have htake : (word k n ++ rest).take k = word k n := by
      rw [List.take_left' (length_word k n)]
    have hdrop : (word k n ++ rest).drop k = rest := by
      rw [List.drop_left' (length_word k n)]
    rw [if_neg (by rw [List.length_append, length_word]; omega), htake, hdrop, value_word hn]

theorem readWord_word {k n : ℕ} (h : n < 256 ^ k) (rest : List Byte) :
    readWord k (word k n ++ rest) = some (n, rest) :=
  readWord_eq_some_iff.2 ⟨h, rfl⟩

@[simp] theorem length_sized (text : List Byte) : (sized text).length = 4 + text.length := by
  rw [sized, List.length_append, length_word]

end WireFormat
