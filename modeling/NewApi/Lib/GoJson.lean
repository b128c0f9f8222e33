/-
**Decoding JSON into values that are there already.**

`encoding/json` decodes a document into a value in place.  A struct keeps the fields the document
does not name, a map keeps the keys it does not name, a pointer keeps what it points to, and the
elements of a slice are decoded into the elements that are there, those beyond its length included.
What is decoded from the document of another value is therefore that value only where nothing of
the old one shows through.  This module says exactly where.

Values are typed by a universe of types, so that a value always has the shape of its type, and all
functions and proofs recurse on the type.

Main definitions:

* `GoJson.GoType`, `GoJson.GoType.Val` — the types and their values;
* `GoJson.GoType.encode`, `GoJson.GoType.decode` — the document of a value, and decoding into one;
* `GoJson.GoType.Same` — equality up to `nil` and empty collections;
* `GoJson.GoType.Replaced` — nothing of an old value shows through a new one.

Main results:

* `GoJson.GoType.same_decode_iff` — **decoding the document of a value into another one gives that
  value exactly if nothing of the other shows through**;
* `GoJson.GoType.replaced_zero` — nothing shows through a zero value.
-/

import Mathlib.Data.List.AList

set_option autoImplicit false

namespace GoJson

/-! ### Types and values -/

/-- A document, with the numbers as they are written. -/
inductive Json where
  | null
  | bool (b : Bool)
  | num (literal : String)
  | str (s : String)
  | arr (elems : List Json)
  | obj (entries : List (String × Json))

/-- The types of the keys of maps. -/
inductive Key where
  | string
  | int
deriving DecidableEq, Repr

mutual

/-- Types.  A `registry` is a pointer to a map with a decoder of its own, which builds the map
anew. -/
inductive GoType where
  | string
  | bool
  | int
  | float
  | any
  | slice (elem : GoType)
  | map (key : Key) (elem : GoType)
  | registry (key : Key) (elem : GoType)
  | ptr (elem : GoType)
  | struct (fields : GoFields)

/-- The fields of a struct. -/
inductive GoFields where
  | nil
  | cons (name : String) (omitempty : Bool) (type : GoType) (rest : GoFields)

end

/-- A slice, with what is left of older elements in the array behind it. -/
structure Slice (α : Type) where
  elems : List α
  spare : List α

def Key.Val : Key → Type
  | .string => String
  | .int => ℤ

instance : (k : Key) → DecidableEq k.Val
  | .string => inferInstanceAs (DecidableEq String)
  | .int => inferInstanceAs (DecidableEq ℤ)

mutual

/-- The values of a type: `none` is `nil`, and `null` is the `nil` of an interface. -/
def GoType.Val (F : Type) : GoType → Type
  | .string => String
  | .bool => Bool
  | .int => ℤ
  | .float => F
  | .any => Json
  | .slice τ => Option (Slice (τ.Val F))
  | .map k τ => Option (AList fun _ : k.Val => τ.Val F)
  | .registry k τ => Option (AList fun _ : k.Val => τ.Val F)
  | .ptr τ => Option (τ.Val F)
  | .struct fs => fs.Val F

def GoFields.Val (F : Type) : GoFields → Type
  | .nil => Unit
  | .cons _ _ τ rest => τ.Val F × rest.Val F

end

/-- Floating-point numbers that have a literal: how they are written in a document and by
themselves, and read. -/
structure Floats (F : Type) where
  zero : F
  isZero : F → Bool
  literal : F → String
  format : F → String
  parse : String → Option F
  truncate : F → ℤ
  eq_zero : ∀ x, isZero x = true → x = zero
  parse_literal : ∀ x, parse (literal x) = some x
  parse_format : ∀ x, parse (format x) = some x

/-! ### Integers -/

def formatInt (z : ℤ) : String := toString z

def parseDigits (l : List Char) : Option ℕ :=
  if l ≠ [] ∧ l.all Char.isDigit then some (Nat.ofDigitChars 10 l 0) else none

/-- `strconv.ParseInt` in base ten, without a bound. -/
def parseInt (s : String) : Option ℤ :=
  match s.toList with
  | '-' :: l => (parseDigits l).map fun n => -(n : ℤ)
  | '+' :: l => (parseDigits l).map fun n => (n : ℤ)
  | l => (parseDigits l).map fun n => (n : ℤ)

theorem parseDigits_toDigits (n : ℕ) : parseDigits (Nat.toDigits 10 n) = some n := by
  have hall : (Nat.toDigits 10 n).all Char.isDigit = true := by
    rw [List.all_eq_true]
    intro c hc
    exact Nat.isDigit_of_mem_toDigits (by decide) (by decide) hc
  rw [parseDigits, if_pos ⟨Nat.toDigits_ne_nil, hall⟩, Nat.ofDigitChars_ten_toDigits]

/-- An integer is read as it is written. -/
theorem parseInt_formatInt (z : ℤ) : parseInt (formatInt z) = some z := by
  cases z with
  | ofNat n =>
    have htext : (formatInt (Int.ofNat n)).toList = Nat.toDigits 10 n := by
      show (toString (Int.ofNat n)).toList = _
      rw [show toString (Int.ofNat n) = Nat.repr n from rfl, Nat.toList_repr]
    rw [parseInt, htext]
    have hdigits := parseDigits_toDigits n
    have hdigit : ∀ c ∈ Nat.toDigits 10 n, c.isDigit = true := fun c hc =>
      Nat.isDigit_of_mem_toDigits (by decide) (by decide) hc
    split
    · rename_i l hl
      rw [hl] at hdigit
      exact absurd (hdigit '-' (by simp)) (by decide)
    · rename_i l hl
      rw [hl] at hdigit
      exact absurd (hdigit '+' (by simp)) (by decide)
    · rw [hdigits]
      rfl
  | negSucc n =>
    have htext : (formatInt (Int.negSucc n)).toList = '-' :: Nat.toDigits 10 (n + 1) := by
      show (toString (Int.negSucc n)).toList = _
      rw [show toString (Int.negSucc n) = "-" ++ Nat.repr (n + 1) from rfl,
        String.toList_append, Nat.toList_repr]
      rfl
    rw [parseInt, htext]
    simp only [parseDigits_toDigits]
    rfl

theorem parseInt_getD (z old : ℤ) : (parseInt (formatInt z)).getD old = z := by
  rw [parseInt_formatInt, Option.getD_some]

theorem Floats.parse_literal_getD {F : Type} (fl : Floats F) (x old : F) :
    (fl.parse (fl.literal x)).getD old = x := by
  rw [fl.parse_literal, Option.getD_some]

/-! ### Keys -/

def Key.text : (k : Key) → k.Val → String
  | .string => fun s => s
  | .int => fun z => formatInt z

def Key.parse : (k : Key) → String → Option k.Val
  | .string => fun s => some s
  | .int => fun s => parseInt s

theorem Key.parse_text (k : Key) (key : k.Val) : k.parse (k.text key) = some key := by
  cases k with
  | string => rfl
  | int => exact parseInt_formatInt key

/-! ### Collections and pointers -/

section Collections

variable {α : Type}

def encodeSlice (enc : α → Json) : Option (Slice α) → Json
  | none => .null
  | some s => .arr (s.elems.map enc)

/-- The elements of an array are decoded into those of the old one, as far as there are any. -/
def decodeElems (dec : Json → α → α) (zero : α) : List Json → List α → List α × List α
  | [], old => ([], old)
  | j :: js, [] =>
    let r := decodeElems dec zero js []
    (dec j zero :: r.1, r.2)
  | j :: js, a :: old =>
    let r := decodeElems dec zero js old
    (dec j a :: r.1, r.2)

/-- The array behind a slice. -/
def backing : Option (Slice α) → List α
  | none => []
  | some s => s.elems ++ s.spare

def decodeSlice (dec : Json → α → α) (zero : α) (j : Json) (v : Option (Slice α)) :
    Option (Slice α) :=
  match j with
  | .null => none
  | .arr [] => some ⟨[], []⟩
  | .arr (e :: es) =>
    let r := decodeElems dec zero (e :: es) (backing v)
    some ⟨r.1, r.2⟩
  | _ => v

def sliceElems : Option (Slice α) → List α
  | none => []
  | some s => s.elems

/-- A relation of the elements of a new list to the old ones, as far as there are any. -/
def ReplacedElems (rep : α → α → Prop) (zero : α) : List α → List α → Prop
  | _, [] => True
  | [], b :: new => rep zero b ∧ ReplacedElems rep zero [] new
  | a :: old, b :: new => rep a b ∧ ReplacedElems rep zero old new

/-- The elements of a slice are those of the new one exactly if each of them is. -/
theorem forall₂_decodeElems_iff {same rep : α → α → Prop} {dec : Json → α → α} {enc : α → Json}
    (h : ∀ a b, same (dec (enc b) a) b ↔ rep a b) (zero : α) (old new : List α) :
    List.Forall₂ same (decodeElems dec zero (new.map enc) old).1 new ↔
      ReplacedElems rep zero old new := by
  induction new generalizing old with
  | nil => simp [decodeElems, ReplacedElems]
  | cons b new ih =>
    cases old with
    | nil | cons a old => rw [List.map_cons, decodeElems, List.forall₂_cons, h, ih, ReplacedElems]

theorem same_decodeSlice_iff {same rep : α → α → Prop} {dec : Json → α → α} {enc : α → Json}
    (h : ∀ a b, same (dec (enc b) a) b ↔ rep a b) (zero : α) (old new : Option (Slice α)) :
    List.Forall₂ same (sliceElems (decodeSlice dec zero (encodeSlice enc new) old))
        (sliceElems new) ↔ ReplacedElems rep zero (backing old) (sliceElems new) := by
  cases new with
  | none => simp [encodeSlice, decodeSlice, sliceElems, ReplacedElems]
  | some s =>
    have helems := forall₂_decodeElems_iff h zero (backing old) s.elems
    cases hs : s.elems with
    | nil => simp [encodeSlice, decodeSlice, sliceElems, ReplacedElems, hs]
    | cons b elems =>
      rw [hs] at helems
      simp only [encodeSlice, sliceElems, hs]
      exact helems

/-- A pointer is followed. -/
def encodePtr (enc : α → Json) : Option α → Json
  | none => .null
  | some a => enc a

def decodePtr (dec : Json → α → α) (zero : α) (j : Json) (v : Option α) : Option α :=
  match j with
  | .null => none
  | j => some (dec j (v.getD zero))

/-- What a pointer points to is replaced, and it is not written as `null`. -/
def ReplacedPtr (enc : α → Json) (rep : α → α → Prop) (zero : α) (old : Option α) :
    Option α → Prop
  | none => True
  | some b => enc b ≠ .null ∧ rep (old.getD zero) b

theorem rel_none_right {β : Type} {same : α → β → Prop} {o : Option α} :
    Option.Rel same o none ↔ o = none := by
  constructor
  · rintro ⟨⟩
    rfl
  · rintro rfl
    exact .none

theorem rel_some_some {β : Type} {same : α → β → Prop} {a : α} {b : β} :
    Option.Rel same (some a) (some b) ↔ same a b := by
  constructor
  · rintro ⟨h⟩
    assumption
  · exact .some

theorem same_decodePtr_iff {same rep : α → α → Prop} {dec : Json → α → α} {enc : α → Json}
    (h : ∀ a b, same (dec (enc b) a) b ↔ rep a b) (zero : α) (old new : Option α) :
    Option.Rel same (decodePtr dec zero (encodePtr enc new) old) new ↔
      ReplacedPtr enc rep zero old new := by
  cases new with
  | none => simp [encodePtr, decodePtr, ReplacedPtr, rel_none_right]
  | some b =>
    by_cases hnull : enc b = .null
    · have hrel : ¬ Option.Rel same none (some b) := nofun
      simp [encodePtr, decodePtr, ReplacedPtr, hnull, hrel]
    · have hdecode : decodePtr dec zero (enc b) old = some (dec (enc b) (old.getD zero)) := by
        rw [decodePtr]
        exact hnull
      rw [encodePtr, hdecode, rel_some_some, h, ReplacedPtr]
      simp [hnull]

variable {κ : Type} [DecidableEq κ]

def encodeEntries (text : κ → String) (enc : α → Json) (m : AList fun _ : κ => α) : Json :=
  .obj (m.entries.map fun e => (text e.1, enc e.2))

def encodeMap (text : κ → String) (enc : α → Json) : Option (AList fun _ : κ => α) → Json
  | none => .null
  | some m => encodeEntries text enc m

/-- The entries of an object are put into a map one by one. -/
def decodeEntries (parse : String → Option κ) (dec : Json → α) (entries : List (String × Json))
    (m : AList fun _ : κ => α) : AList fun _ : κ => α :=
  entries.foldl (fun m e => match parse e.1 with
    | none => m
    | some key => m.insert key (dec e.2)) m

def decodeMap (parse : String → Option κ) (dec : Json → α) (j : Json)
    (v : Option (AList fun _ : κ => α)) : Option (AList fun _ : κ => α) :=
  match j with
  | .null => none
  | .obj entries => some (decodeEntries parse dec entries (v.getD ∅))
  | _ => v

/-- A registry is emptied first. -/
def decodeRegistry (parse : String → Option κ) (dec : Json → α) (j : Json) :
    AList fun _ : κ => α :=
  match j with
  | .obj entries => decodeEntries parse dec entries ∅
  | _ => ∅

/-- Two maps have the same entries. -/
def SameEntries (same : α → α → Prop) (m m' : AList fun _ : κ => α) : Prop :=
  ∀ key, Option.Rel same (m.lookup key) (m'.lookup key)

/-- All entries of a map are like the zero value replaced. -/
def ReplacedEntries (rep : α → α → Prop) (zero : α) (m : AList fun _ : κ => α) : Prop :=
  ∀ key, ∀ b ∈ m.lookup key, rep zero b

/-- A map has all the keys of the old one. -/
def ReplacedMap (rep : α → α → Prop) (zero : α) (old : Option (AList fun _ : κ => α)) :
    Option (AList fun _ : κ => α) → Prop
  | none => True
  | some m => (∀ key ∈ old.getD ∅, key ∈ m) ∧ ReplacedEntries rep zero m

/-- What is found in a map after the entries of another one have been put into it. -/
theorem lookup_decodeEntries {parse : String → Option κ} {text : κ → String} {dec : Json → α}
    {enc : α → Json} (hparse : ∀ key, parse (text key) = some key)
    (l : List (Sigma fun _ : κ => α)) (hl : l.NodupKeys) (m : AList fun _ : κ => α) (key : κ) :
    (decodeEntries parse dec (l.map fun e => (text e.1, enc e.2)) m).lookup key =
      (((l.dlookup key).map fun b => dec (enc b)).or (m.lookup key)) := by
  induction l generalizing m with
  | nil => simp [decodeEntries]
  | cons e l ih =>
    obtain ⟨k, b⟩ := e
    obtain ⟨hnotMem, hnodup⟩ := List.nodupKeys_cons.1 hl
    have hstep : decodeEntries parse dec ((⟨k, b⟩ :: l).map fun e => (text e.1, enc e.2)) m =
        decodeEntries parse dec (l.map fun e => (text e.1, enc e.2))
          (m.insert k (dec (enc b))) := by
      simp only [decodeEntries, List.map_cons, List.foldl_cons, hparse]
    rw [hstep, ih hnodup]
    by_cases hkey : key = k
    · subst hkey
      rw [List.dlookup_eq_none.2 hnotMem, List.dlookup_cons_eq, AList.lookup_insert]
      rfl
    · rw [List.dlookup_cons_ne _ _ hkey, AList.lookup_insert_ne hkey]

/-- A map has become the other one exactly if it had no other keys and all entries are right. -/
theorem sameEntries_decode_iff {same rep : α → α → Prop} {zero : α}
    {parse : String → Option κ} {text : κ → String} {dec : Json → α} {enc : α → Json}
    (hparse : ∀ key, parse (text key) = some key) (h : ∀ b, same (dec (enc b)) b ↔ rep zero b)
    (m new : AList fun _ : κ => α) :
    SameEntries same
        (decodeEntries parse dec (new.entries.map fun e => (text e.1, enc e.2)) m) new ↔
      (∀ key ∈ m, key ∈ new) ∧ ReplacedEntries rep zero new := by
  have hlookup : ∀ key, (decodeEntries parse dec
      (new.entries.map fun e => (text e.1, enc e.2)) m).lookup key =
        ((new.lookup key).map fun b => dec (enc b)).or (m.lookup key) := fun key =>
    lookup_decodeEntries hparse new.entries new.nodupKeys m key
  constructor
  · intro hrel
    refine ⟨fun key hmem => ?_, fun key b hb => ?_⟩
    · by_contra hnot
      have hnone : new.lookup key = none := AList.lookup_eq_none.2 hnot
      have hrel' := hrel key
      rw [hlookup, hnone, rel_none_right] at hrel'
      exact AList.lookup_eq_none.1 hrel' hmem
    · have hrel' := hrel key
      rw [hlookup, Option.mem_def.1 hb, Option.map_some, Option.some_or, rel_some_some] at hrel'
      exact (h b).1 hrel'
  · rintro ⟨hkeys, hentries⟩ key
    rw [hlookup]
    cases hb : new.lookup key with
    | none =>
      have hnot : key ∉ m := fun hmem => AList.lookup_eq_none.1 hb (hkeys key hmem)
      rw [rel_none_right, Option.map_none, Option.none_or]
      exact AList.lookup_eq_none.2 hnot
    | some b =>
      rw [Option.map_some, Option.some_or, rel_some_some]
      exact (h b).2 (hentries key b hb)

theorem same_decodeMap_iff {same rep : α → α → Prop} {zero : α}
    {parse : String → Option κ} {text : κ → String} {dec : Json → α} {enc : α → Json}
    (hparse : ∀ key, parse (text key) = some key) (h : ∀ b, same (dec (enc b)) b ↔ rep zero b)
    (old new : Option (AList fun _ : κ => α)) :
    SameEntries same ((decodeMap parse dec (encodeMap text enc new) old).getD ∅) (new.getD ∅) ↔
      ReplacedMap rep zero old new := by
  cases new with
  | none =>
    simp only [encodeMap, decodeMap, ReplacedMap, Option.getD_none, iff_true]
    intro key
    exact .none
  | some m => exact sameEntries_decode_iff hparse h (old.getD ∅) m

theorem same_decodeRegistry_iff {same rep : α → α → Prop} {zero : α}
    {parse : String → Option κ} {text : κ → String} {dec : Json → α} {enc : α → Json}
    (hparse : ∀ key, parse (text key) = some key) (h : ∀ b, same (dec (enc b)) b ↔ rep zero b)
    (new : AList fun _ : κ => α) :
    SameEntries same (decodeRegistry parse dec (encodeEntries text enc new)) new ↔
      ReplacedEntries rep zero new := by
  rw [encodeEntries, decodeRegistry, sameEntries_decode_iff hparse h ∅ new]
  simp

end Collections

/-! ### Encoding and decoding -/

section Codec

variable {F : Type} (fl : Floats F)

mutual

def GoType.zero : (τ : GoType) → τ.Val F
  | .string => ""
  | .bool => false
  | .int => (0 : ℤ)
  | .float => fl.zero
  | .any => Json.null
  | .slice _ => none
  | .map _ _ => none
  | .registry _ _ => none
  | .ptr _ => none
  | .struct fs => fs.zero

def GoFields.zero : (fs : GoFields) → fs.Val F
  | .nil => ()
  | .cons _ _ τ rest => (τ.zero, rest.zero)

end

/-- What `omitempty` leaves out. -/
def GoType.isEmpty : (τ : GoType) → τ.Val F → Bool
  | .string => fun (s : String) => decide (s = "")
  | .bool => fun b => !b
  | .int => fun (z : ℤ) => decide (z = 0)
  | .float => fun x => fl.isZero x
  | .any => fun j => match j with
      | .null => true
      | _ => false
  | .slice _ => fun v => (sliceElems v).isEmpty
  | .map _ _ => fun v => (Option.getD v ∅).entries.isEmpty
  | .registry _ _ => fun v => Option.isNone v
  | .ptr _ => fun v => Option.isNone v
  | .struct _ => fun _ => false

mutual

/-- The document of a value. -/
def GoType.encode : (τ : GoType) → τ.Val F → Json
  | .string => fun s => .str s
  | .bool => fun b => .bool b
  | .int => fun z => .num (formatInt z)
  | .float => fun x => .num (fl.literal x)
  | .any => fun j => j
  | .slice τ => encodeSlice fun a => τ.encode a
  | .map k τ => encodeMap k.text fun a => τ.encode a
  | .registry k τ => encodePtr (encodeEntries k.text fun a => τ.encode a)
  | .ptr τ => encodePtr fun a => τ.encode a
  | .struct fs => fun v => .obj (fs.encode v)

def GoFields.encode : (fs : GoFields) → fs.Val F → List (String × Json)
  | .nil => fun _ => []
  | .cons name omitempty τ rest => fun v =>
    (if omitempty && τ.isEmpty fl v.1 then [] else [(name, τ.encode v.1)]) ++ rest.encode v.2

end

mutual

/-- Decode a document into a value in place. -/
def GoType.decode : (τ : GoType) → Json → τ.Val F → τ.Val F
  | .string => fun j v => match j with
      | .str s => s
      | _ => v
  | .bool => fun j v => match j with
      | .bool b => b
      | _ => v
  | .int => fun j v => match j with
      | .num literal => (parseInt literal).getD v
      | _ => v
  | .float => fun j v => match j with
      | .num literal => (fl.parse literal).getD v
      | _ => v
  | .any => fun j _ => j
  | .slice τ => decodeSlice (fun j a => τ.decode j a) (τ.zero fl)
  | .map k τ => decodeMap k.parse fun j => τ.decode j (τ.zero fl)
  | .registry k τ =>
    decodePtr (fun j _ => decodeRegistry k.parse (fun j => τ.decode j (τ.zero fl)) j) ∅
  | .ptr τ => decodePtr (fun j a => τ.decode j a) (τ.zero fl)
  | .struct fs => fun j v => match j with
      | .obj entries => fs.decode entries v
      | _ => v

/-- Every field is decoded from the entries with its name, one after the other. -/
def GoFields.decode : (fs : GoFields) → List (String × Json) → fs.Val F → fs.Val F
  | .nil => fun _ v => v
  | .cons name _ τ rest => fun entries v =>
    ((entries.filter (·.1 = name)).foldl (fun a e => τ.decode e.2 a) v.1,
      rest.decode entries v.2)

end

/-! ### What shows through -/

mutual

/-- Equality up to `nil` and empty collections. -/
def GoType.Same : (τ : GoType) → τ.Val F → τ.Val F → Prop
  | .string => fun v w => v = w
  | .bool => fun v w => v = w
  | .int => fun v w => v = w
  | .float => fun v w => v = w
  | .any => fun v w => v = w
  | .slice τ => fun v w => List.Forall₂ (fun a b => τ.Same a b) (sliceElems v) (sliceElems w)
  | .map _ τ => fun v w => SameEntries (fun a b => τ.Same a b) (Option.getD v ∅) (Option.getD w ∅)
  | .registry _ τ => Option.Rel (SameEntries fun a b => τ.Same a b)
  | .ptr τ => Option.Rel fun a b => τ.Same a b
  | .struct fs => fun v w => fs.Same v w

def GoFields.Same : (fs : GoFields) → fs.Val F → fs.Val F → Prop
  | .nil => fun _ _ => True
  | .cons _ _ τ rest => fun v w => τ.Same v.1 w.1 ∧ rest.Same v.2 w.2

end

mutual

/-- Nothing of an old value shows through a new one: a field that is left out was empty, a map has
all the keys of the old one, and so on for the parts.  A pointer to something that is written as
`null` is read as `nil`. -/
def GoType.Replaced : (τ : GoType) → τ.Val F → τ.Val F → Prop
  | .string => fun _ _ => True
  | .bool => fun _ _ => True
  | .int => fun _ _ => True
  | .float => fun _ _ => True
  | .any => fun _ _ => True
  | .slice τ => fun old new =>
    ReplacedElems (fun a b => τ.Replaced a b) (τ.zero fl) (backing old) (sliceElems new)
  | .map _ τ => ReplacedMap (fun a b => τ.Replaced a b) (τ.zero fl)
  | .registry k τ =>
    ReplacedPtr (encodeEntries k.text fun a => τ.encode fl a)
      (fun _ new => ReplacedEntries (fun a b => τ.Replaced a b) (τ.zero fl) new) ∅
  | .ptr τ => ReplacedPtr (fun a => τ.encode fl a) (fun a b => τ.Replaced a b) (τ.zero fl)
  | .struct fs => fun old new => fs.Replaced old new

def GoFields.Replaced : (fs : GoFields) → fs.Val F → fs.Val F → Prop
  | .nil => fun _ _ => True
  | .cons _ omitempty τ rest => fun old new =>
    (if omitempty && τ.isEmpty fl new.1 then τ.Same old.1 new.1 else τ.Replaced old.1 new.1) ∧
      rest.Replaced old.2 new.2

end

end Codec

/-! ### Well-formed types -/

def GoFields.names : GoFields → List String
  | .nil => []
  | .cons name _ _ rest => name :: rest.names

mutual

/-- The fields of a struct have different names. -/
def GoType.Formed : GoType → Prop
  | .slice τ => τ.Formed
  | .map _ τ => τ.Formed
  | .registry _ τ => τ.Formed
  | .ptr τ => τ.Formed
  | .struct fs => fs.Formed
  | _ => True

def GoFields.Formed : GoFields → Prop
  | .nil => True
  | .cons name _ τ rest => name ∉ rest.names ∧ τ.Formed ∧ rest.Formed

end

/-! ### Decoding the document of a value -/

section Decoding

variable {F : Type} {fl : Floats F}

/-- The entries of a struct are under the names of its fields. -/
theorem GoFields.encode_names : ∀ (fs : GoFields) (v : fs.Val F), ∀ e ∈ fs.encode fl v,
    e.1 ∈ fs.names
  | .nil, _, e, he => by cases he
  | .cons name omitempty τ rest, v, e, he => by
      rw [GoFields.encode, List.mem_append] at he
      rw [GoFields.names, List.mem_cons]
      rcases he with he | he
      · split at he
        · cases he
        · rw [List.mem_singleton.1 he]
          exact .inl rfl
      · exact .inr (rest.encode_names v.2 e he)

/-- The entries that one field is decoded from. -/
theorem filter_encode_fields {pre es : List (String × Json)} {own : List (String × Json)}
    {name : String} (hpre : ∀ e ∈ pre, e.1 ≠ name) (hown : ∀ e ∈ own, e.1 = name)
    (hes : ∀ e ∈ es, e.1 ≠ name) :
    (pre ++ (own ++ es)).filter (·.1 = name) = own := by
  have hnone : ∀ l : List (String × Json), (∀ e ∈ l, e.1 ≠ name) →
      l.filter (·.1 = name) = [] := by
    intro l hl
    rw [List.filter_eq_nil_iff]
    intro e he
    simpa using hl e he
  have hall : own.filter (·.1 = name) = own := by
    rw [List.filter_eq_self]
    intro e he
    simpa using hown e he
  rw [List.filter_append, List.filter_append, hnone pre hpre, hnone es hes, hall, List.nil_append,
    List.append_nil]

/-- The entry of one field, or none. -/
def ownEntries (fl : Floats F) (name : String) (omitempty : Bool) (τ : GoType) (v : τ.Val F) :
    List (String × Json) :=
  if omitempty && τ.isEmpty fl v then [] else [(name, τ.encode fl v)]

theorem ownEntries_names {name : String} {omitempty : Bool} {τ : GoType} {v : τ.Val F} :
    ∀ e ∈ ownEntries fl name omitempty τ v, e.1 = name := by
  intro e he
  rw [ownEntries] at he
  split at he
  · cases he
  · rw [List.mem_singleton.1 he]

section Fields

variable {name : String} {omitempty : Bool} {τ : GoType} {rest : GoFields}
  {pre : List (String × Json)}

/-- The entry of the first field stands before those of the others. -/
theorem GoFields.encode_cons (v : (GoFields.cons name omitempty τ rest).Val F) :
    pre ++ GoFields.encode fl (.cons name omitempty τ rest) v =
      pre ++ ownEntries fl name omitempty τ v.1 ++ rest.encode fl v.2 := by
  rw [List.append_assoc]
  rfl

/-- The first field is decoded from its own entry. -/
theorem GoFields.filter_encode (fl : Floats F) (hname : name ∉ rest.names)
    (hpre : ∀ e ∈ pre, e.1 ∉ (GoFields.cons name omitempty τ rest).names)
    (v : (GoFields.cons name omitempty τ rest).Val F) :
    (pre ++ GoFields.encode fl (.cons name omitempty τ rest) v).filter (·.1 = name) =
      ownEntries fl name omitempty τ v.1 := by
  rw [GoFields.encode_cons, List.append_assoc]
  refine filter_encode_fields ?_ ownEntries_names ?_
  · intro e he heq
    exact hpre e he (by rw [heq, GoFields.names]; exact List.mem_cons_self)
  · intro e he heq
    exact hname (heq ▸ rest.encode_names v.2 e he)

/-- The other fields see the entry of the first one in front of theirs. -/
theorem GoFields.notMem_names (fl : Floats F) (hname : name ∉ rest.names)
    (hpre : ∀ e ∈ pre, e.1 ∉ (GoFields.cons name omitempty τ rest).names) (v : τ.Val F) :
    ∀ e ∈ pre ++ ownEntries fl name omitempty τ v, e.1 ∉ rest.names := by
  intro e he hmem
  rcases List.mem_append.1 he with he | he
  · exact hpre e he (by rw [GoFields.names]; exact List.mem_cons_of_mem _ hmem)
  · exact hname (ownEntries_names e he ▸ hmem)

end Fields

mutual

/-- **Decoding the document of a value into another one gives that value exactly if nothing of the
other shows through.** -/
theorem GoType.same_decode_iff : ∀ (τ : GoType), τ.Formed → ∀ old new : τ.Val F,
    τ.Same (τ.decode fl (τ.encode fl new) old) new ↔ τ.Replaced fl old new
  | .string, _, _, _ => iff_of_true rfl trivial
  | .bool, _, _, _ => iff_of_true rfl trivial
  | .int, _, old, new => iff_of_true (parseInt_getD new old) trivial
  | .float, _, old, new => iff_of_true (fl.parse_literal_getD new old) trivial
  | .any, _, _, _ => iff_of_true rfl trivial
  | .slice τ, hτ, old, new =>
    same_decodeSlice_iff (τ.same_decode_iff hτ) (τ.zero fl) old new
  | .map k τ, hτ, old, new =>
    same_decodeMap_iff k.parse_text (τ.same_decode_iff hτ (τ.zero fl)) old new
  | .registry k τ, hτ, old, new =>
    same_decodePtr_iff
      (fun _ m => same_decodeRegistry_iff k.parse_text (τ.same_decode_iff hτ (τ.zero fl)) m)
      ∅ old new
  | .ptr τ, hτ, old, new => same_decodePtr_iff (τ.same_decode_iff hτ) (τ.zero fl) old new
  | .struct fs, hfs, old, new => by
      have ih := fs.same_decode_iff hfs [] (by simp) old new
      rw [List.nil_append] at ih
      exact ih

theorem GoFields.same_decode_iff : ∀ (fs : GoFields), fs.Formed →
    ∀ pre : List (String × Json), (∀ e ∈ pre, e.1 ∉ fs.names) → ∀ old new : fs.Val F,
    fs.Same (fs.decode fl (pre ++ fs.encode fl new) old) new ↔ fs.Replaced fl old new
  | .nil, _, _, _, _, _ => Iff.rfl
  | .cons name omitempty τ rest, hfs, pre, hpre, old, new => by
      obtain ⟨hname, hτ, hrest⟩ := hfs
      have ih := τ.same_decode_iff hτ old.1 new.1
      have hfilter := GoFields.filter_encode fl hname hpre new
      have hothers := rest.same_decode_iff hrest _ (GoFields.notMem_names fl hname hpre new.1)
        old.2 new.2
      rw [← GoFields.encode_cons] at hothers
      simp only [GoFields.Same, GoFields.Replaced, GoFields.decode, hfilter, hothers]
      refine and_congr_left' ?_
      rw [ownEntries]
      split
      · rfl
      · exact ih

end

end Decoding

/-! ### Documents that fit -/

section Fitting

variable {F : Type} (fl : Floats F)

mutual

/-- Whether a document is decoded without a type error. -/
def GoType.fits : GoType → Json → Bool
  | .string => fun j => match j with
      | .null | .str _ => true
      | _ => false
  | .bool => fun j => match j with
      | .null | .bool _ => true
      | _ => false
  | .int => fun j => match j with
      | .null => true
      | .num literal => (parseInt literal).isSome
      | _ => false
  | .float => fun j => match j with
      | .null => true
      | .num literal => (fl.parse literal).isSome
      | _ => false
  | .any => fun _ => true
  | .slice τ => fun j => match j with
      | .null => true
      | .arr elems => elems.all fun e => τ.fits e
      | _ => false
  | .map k τ => fun j => match j with
      | .null => true
      | .obj entries => entries.all fun e => (k.parse e.1).isSome && τ.fits e.2
      | _ => false
  | .registry k τ => fun j => match j with
      | .null => true
      | .obj entries => entries.all fun e => (k.parse e.1).isSome && τ.fits e.2
      | _ => false
  | .ptr τ => fun j => match j with
      | .null => true
      | j => τ.fits j
  | .struct fs => fun j => match j with
      | .null => true
      | .obj entries => fs.fits entries
      | _ => false

def GoFields.fits : GoFields → List (String × Json) → Bool
  | .nil => fun _ => true
  | .cons name _ τ rest => fun entries =>
    ((entries.filter (·.1 = name)).all fun e => τ.fits e.2) && rest.fits entries

end

variable {fl}

theorem all_entries {α : Type} (k : Key) {fits : Json → Bool} {enc : α → Json}
    (h : ∀ a, fits (enc a) = true) (l : List (Sigma fun _ : k.Val => α)) :
    ((l.map fun e => (k.text e.1, enc e.2)).all fun e => (k.parse e.1).isSome && fits e.2) =
      true := by
  rw [List.all_map, List.all_eq_true]
  intro e _
  simp [k.parse_text, h]

mutual

/-- The document of a value fits its type. -/
theorem GoType.fits_encode : ∀ (τ : GoType), τ.Formed → ∀ v : τ.Val F,
    τ.fits fl (τ.encode fl v) = true
  | .string, _, _ => rfl
  | .bool, _, _ => rfl
  | .int, _, v => congrArg Option.isSome (parseInt_formatInt v)
  | .float, _, v => congrArg Option.isSome (fl.parse_literal v)
  | .any, _, _ => rfl
  | .slice τ, hτ, v => by
      have ih := τ.fits_encode hτ
      cases v with
      | none => rfl
      | some s =>
        show (s.elems.map fun a => τ.encode fl a).all (fun e => τ.fits fl e) = true
        rw [List.all_map, List.all_eq_true]
        intro a _
        exact ih a
  | .map k τ, hτ, v => by
      have ih := τ.fits_encode hτ
      cases v with
      | none => rfl
      | some m => exact all_entries k ih m.entries
  | .registry k τ, hτ, v => by
      have ih := τ.fits_encode hτ
      cases v with
      | none => rfl
      | some m => exact all_entries k ih m.entries
  | .ptr τ, hτ, v => by
      have ih := τ.fits_encode hτ
      cases v with
      | none => rfl
      | some a =>
        show GoType.fits fl (.ptr τ) (τ.encode fl a) = true
        have ha := ih a
        cases hj : τ.encode fl a <;> first | rfl | (rw [hj] at ha; exact ha)
  | .struct fs, hfs, v => fs.fits_encode hfs [] (by simp) v

theorem GoFields.fits_encode : ∀ (fs : GoFields), fs.Formed →
    ∀ pre : List (String × Json), (∀ e ∈ pre, e.1 ∉ fs.names) → ∀ v : fs.Val F,
    fs.fits fl (pre ++ fs.encode fl v) = true
  | .nil, _, _, _, _ => rfl
  | .cons name omitempty τ rest, hfs, pre, hpre, v => by
      obtain ⟨hname, hτ, hrest⟩ := hfs
      have ih := τ.fits_encode hτ v.1
      have hothers := rest.fits_encode hrest _ (GoFields.notMem_names fl hname hpre v.1) v.2
      rw [← GoFields.encode_cons] at hothers
      simp only [GoFields.fits, GoFields.filter_encode fl hname hpre v, hothers, Bool.and_true]
      rw [ownEntries]
      split
      · rfl
      · simpa using ih

end

end Fitting

/-! ### Values that are read anew -/

section Zero

variable {F : Type} {fl : Floats F}

/-- Whether a type has no value that is written as `null`. -/
def GoType.neverNull : GoType → Bool
  | .any | .slice _ | .map _ _ | .registry _ _ | .ptr _ => false
  | _ => true

mutual

/-- Pointers of the type point to something that is not written as `null`. -/
def GoType.Plain : GoType → Prop
  | .slice τ => τ.Plain
  | .map _ τ => τ.Plain
  | .registry _ τ => τ.Plain
  | .ptr τ => τ.neverNull = true ∧ τ.Plain
  | .struct fs => fs.Plain
  | _ => True

def GoFields.Plain : GoFields → Prop
  | .nil => True
  | .cons _ _ τ rest => τ.Plain ∧ rest.Plain

end

theorem GoType.encode_ne_null {τ : GoType} (hτ : τ.neverNull = true) (v : τ.Val F) :
    τ.encode fl v ≠ .null := by
  cases τ with
  | string => exact fun (h : Json.str v = Json.null) => nomatch h
  | bool => exact fun (h : Json.bool v = Json.null) => nomatch h
  | int => exact fun (h : Json.num (formatInt v) = Json.null) => nomatch h
  | float => exact fun (h : Json.num (fl.literal v) = Json.null) => nomatch h
  | struct fs => exact fun (h : Json.obj (fs.encode fl v) = Json.null) => nomatch h
  | _ => cases hτ

theorem eq_of_decide {α : Type} [DecidableEq α] {a b : α} (h : decide (a = b) = true) : b = a :=
  (of_decide_eq_true h).symm

/-- A value that is left out is the zero value. -/
theorem GoType.same_zero (τ : GoType) (v : τ.Val F) (hv : τ.isEmpty fl v = true) :
    τ.Same (τ.zero fl) v := by
  cases τ with
  | string => exact @eq_of_decide String _ _ _ hv
  | bool =>
    cases v with
    | false => rfl
    | true => cases hv
  | int => exact @eq_of_decide ℤ _ _ _ hv
  | float => exact (fl.eq_zero v hv).symm
  | any =>
    cases v with
    | null => rfl
    | _ => cases hv
  | slice τ =>
    have hnil : sliceElems v = [] := List.isEmpty_iff.1 hv
    show List.Forall₂ _ [] (sliceElems v)
    rw [hnil]
    exact .nil
  | map k τ =>
    have hnil : (Option.getD v ∅).entries = [] := List.isEmpty_iff.1 hv
    intro key
    show Option.Rel _ none ((Option.getD v ∅).lookup key)
    rw [AList.lookup, hnil]
    exact .none
  | registry k τ =>
    cases v with
    | none => exact .none
    | some m => cases hv
  | ptr τ =>
    cases v with
    | none => exact .none
    | some a => cases hv
  | struct fs => cases hv

theorem replacedElems_nil {α : Type} {rep : α → α → Prop} {zero : α} (h : ∀ b, rep zero b)
    (new : List α) : ReplacedElems rep zero [] new := by
  induction new with
  | nil => exact trivial
  | cons b new ih => exact ⟨h b, ih⟩

mutual

/-- **Nothing shows through a zero value.** -/
theorem GoType.replaced_zero : ∀ (τ : GoType), τ.Plain → ∀ v : τ.Val F,
    τ.Replaced fl (τ.zero fl) v
  | .string, _, _ => trivial
  | .bool, _, _ => trivial
  | .int, _, _ => trivial
  | .float, _, _ => trivial
  | .any, _, _ => trivial
  | .slice τ, hτ, v => replacedElems_nil (τ.replaced_zero hτ) (sliceElems v)
  | .map k τ, hτ, v => by
      have ih := τ.replaced_zero hτ
      cases v with
      | none => trivial
      | some m => exact ⟨fun key hkey => absurd hkey (AList.notMem_empty key), fun _ b _ => ih b⟩
  | .registry k τ, hτ, v => by
      have ih := τ.replaced_zero hτ
      cases v with
      | none => trivial
      | some m => exact ⟨nofun, fun _ b _ => ih b⟩
  | .ptr τ, hτ, v => by
      have ih := τ.replaced_zero hτ.2
      cases v with
      | none => trivial
      | some a => exact ⟨τ.encode_ne_null hτ.1 a, ih a⟩
  | .struct fs, hfs, v => fs.replaced_zero hfs v

theorem GoFields.replaced_zero : ∀ (fs : GoFields), fs.Plain → ∀ v : fs.Val F,
    fs.Replaced fl (fs.zero fl) v
  | .nil, _, _ => trivial
  | .cons _ omitempty τ rest, hfs, v => by
      refine ⟨?_, rest.replaced_zero hfs.2 v.2⟩
      split
      · rename_i hempty
        exact τ.same_zero v.1 (Bool.and_eq_true_iff.1 hempty).2
      · exact τ.replaced_zero hfs.1 v.1

end

end Zero

end GoJson
