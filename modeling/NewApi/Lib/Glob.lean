/-
**Glob patterns.**

A pattern matches a text character by character: a star matches any characters, a question mark
any one, brackets one of a class, and a backslash makes the next character an ordinary one.

Main definitions:

* `Glob.parse` — the tokens of a pattern;
* `Glob.Matches` — a pattern matches a text;
* `Glob.Plain` — a text without special characters.

Main results:

* `Glob.matches_plain_star` — **a plain text followed by a star** matches what begins with it.
-/

import Mathlib.Data.List.Infix

set_option autoImplicit false

namespace Glob

/-- A piece of a pattern. -/
inductive Token where
  | star
  | anyChar
  | literal (c : Char)
  | charClass (negated : Bool) (ranges : List (Char × Char))
deriving DecidableEq, Repr

/-- The ranges of a class up to its closing bracket, and what follows it. -/
def parseRanges : ℕ → List Char → List (Char × Char) × List Char
  | 0, pattern => ([], pattern)
  | _ + 1, [] => ([], [])
  | fuel + 1, '\\' :: c :: pattern =>
    let (ranges, rest) := parseRanges fuel pattern
    ((c, c) :: ranges, rest)
  | _ + 1, ']' :: pattern => ([], pattern)
  | fuel + 1, a :: '-' :: b :: pattern =>
    let (ranges, rest) := parseRanges fuel pattern
    ((if a ≤ b then (a, b) else (b, a)) :: ranges, rest)
  | fuel + 1, c :: pattern =>
    let (ranges, rest) := parseRanges fuel pattern
    ((c, c) :: ranges, rest)

/-- The tokens of a pattern; fuel for its length is enough. -/
def parseTokens : ℕ → List Char → List Token
  | 0, _ => []
  | _ + 1, [] => []
  | fuel + 1, '*' :: pattern => .star :: parseTokens fuel pattern
  | fuel + 1, '?' :: pattern => .anyChar :: parseTokens fuel pattern
  | fuel + 1, '[' :: '^' :: pattern =>
    let (ranges, rest) := parseRanges fuel pattern
    .charClass true ranges :: parseTokens fuel rest
  | fuel + 1, '[' :: pattern =>
    let (ranges, rest) := parseRanges fuel pattern
    .charClass false ranges :: parseTokens fuel rest
  | fuel + 1, '\\' :: c :: pattern => .literal c :: parseTokens fuel pattern
  | fuel + 1, c :: pattern => .literal c :: parseTokens fuel pattern

def parse (pattern : List Char) : List Token := parseTokens (pattern.length + 1) pattern

/-- Whether tokens match a text. -/
def matchTokens : List Token → List Char → Bool
  | [], text => text.isEmpty
  | .star :: tokens, text => text.tails.any (matchTokens tokens)
  | _ :: _, [] => false
  | .anyChar :: tokens, _ :: text => matchTokens tokens text
  | .literal c :: tokens, d :: text => c == d && matchTokens tokens text
  | .charClass negated ranges :: tokens, d :: text =>
    (ranges.any fun r => r.1 ≤ d && d ≤ r.2) != negated && matchTokens tokens text

/-- A pattern matches a text. -/
def Matches (pattern text : List Char) : Prop := matchTokens (parse pattern) text = true

instance (pattern text : List Char) : Decidable (Matches pattern text) := by
  unfold Matches
  infer_instance

/-- The characters with a meaning of their own. -/
def isSpecial (c : Char) : Bool := c == '*' || c == '?' || c == '[' || c == '\\'

/-- A text without special characters. -/
def Plain (text : List Char) : Prop := ∀ c ∈ text, isSpecial c = false

instance (text : List Char) : Decidable (Plain text) :=
  List.decidableBAll (fun c => isSpecial c = false) text

theorem parseTokens_literal {c : Char} (h : isSpecial c = false) (fuel : ℕ)
    (pattern : List Char) :
    parseTokens (fuel + 1) (c :: pattern) = .literal c :: parseTokens fuel pattern := by
  simp only [isSpecial, Bool.or_eq_false_iff, beq_eq_false_iff_ne] at h
  obtain ⟨⟨⟨hstar, hquestion⟩, hbracket⟩, hbackslash⟩ := h
  rw [parseTokens]
  all_goals
    intros
    simp_all

theorem parseTokens_plain {text : List Char} (h : Plain text) {fuel : ℕ}
    (hfuel : text.length < fuel) :
    parseTokens (fuel + 1) (text ++ ['*']) = text.map Token.literal ++ [Token.star] := by
  induction text generalizing fuel with
  | nil =>
    obtain ⟨fuel, rfl⟩ : ∃ n, fuel = n + 1 := ⟨fuel - 1, by simp at hfuel; omega⟩
    rfl
  | cons c text ih =>
    have hc : isSpecial c = false := h c List.mem_cons_self
    have htext : Plain text := fun d hd => h d (List.mem_cons_of_mem c hd)
    obtain ⟨fuel, rfl⟩ : ∃ n, fuel = n + 1 := ⟨fuel - 1, by simp at hfuel; omega⟩
    rw [List.cons_append, parseTokens_literal hc,
      ih htext (by simp only [List.length_cons] at hfuel; omega)]
    rfl

theorem matchTokens_star (text : List Char) : matchTokens [.star] text = true := by
  rw [matchTokens, List.any_eq_true]
  exact ⟨[], (List.mem_tails _ _).2 List.nil_suffix, rfl⟩

theorem matchTokens_literals (text key : List Char) :
    matchTokens (text.map Token.literal ++ [Token.star]) key = true ↔ text <+: key := by
  induction text generalizing key with
  | nil => exact iff_of_true (matchTokens_star key) List.nil_prefix
  | cons c text ih =>
    cases key with
    | nil => simp [matchTokens]
    | cons d key =>
      rw [List.map_cons, List.cons_append, matchTokens, Bool.and_eq_true, beq_iff_eq,
        ih, List.cons_prefix_cons]

/-- **A plain text followed by a star** matches what begins with the text. -/
theorem matches_plain_star {text : List Char} (h : Plain text) (key : List Char) :
    Matches (text ++ ['*']) key ↔ text <+: key := by
  rw [Matches, parse, List.length_append, parseTokens_plain h (by simp), matchTokens_literals]

end Glob
