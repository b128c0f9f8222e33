/-
**Texts with separators.**

Lists of names and keys are kept as one text, with a character between the entries, and read back
by cutting that character off the ends of the text and splitting it.  What is read back is what was
joined, as long as no entry has the character in it and neither the first nor the last one is
empty.

Main results:

* `NewApi.notMem_of_mem_splitOn` — the parts of a text have no separators;
* `NewApi.splitOn_joinWith` — a joined text is split into the pieces of its parts;
* `NewApi.split_trim_join` — **joining and reading back**.
-/

import NewApi.Channel

set_option autoImplicit false

namespace NewApi

/-- `strings.Join` with a character between the parts. -/
def joinWith (sep : Char) (parts : List String) : String :=
  (String.singleton sep).intercalate parts

/-- The text without separators at its ends, split at the others. -/
def splitTrimmed (sep : Char) (text : String) : List String :=
  split (String.ofList (trimList (· == sep) text.toList)) sep

/-- The parts of a list between separators have none. -/
theorem notMem_of_mem_splitOn {α : Type*} [BEq α] [LawfulBEq α] {sep : α} {l part : List α}
    (h : part ∈ l.splitOn sep) : sep ∉ part := by
  induction l generalizing part with
  | nil =>
    rw [List.splitOn_nil, List.mem_singleton] at h
    rw [h]
    exact List.not_mem_nil
  | cons x l ih =>
    rw [List.splitOn_cons_eq_if_modifyHead] at h
    by_cases hx : (x == sep) = true
    · rw [if_pos hx] at h
      rcases List.mem_cons.1 h with rfl | h
      · exact List.not_mem_nil
      · exact ih h
    · rw [if_neg hx] at h
      cases hsplit : l.splitOn sep with
      | nil => exact absurd hsplit (List.splitOn_ne_nil sep l)
      | cons head tail =>
        rw [hsplit, List.modifyHead_cons] at h
        rcases List.mem_cons.1 h with rfl | h
        · intro hsep
          rcases List.mem_cons.1 hsep with rfl | hsep
          · exact hx (by simp)
          · exact ih (hsplit ▸ List.mem_cons_self) hsep
        · exact ih (hsplit ▸ List.mem_cons_of_mem head h)

theorem mem_of_mem_trimList {α : Type*} {p : α → Bool} {l : List α} {a : α}
    (h : a ∈ trimList p l) : a ∈ l := by
  have h1 := (List.dropWhile_sublist p).subset (List.mem_reverse.1 h)
  exact (List.dropWhile_sublist p).subset (List.mem_reverse.1 h1)

/-- The parts of a text have no separators. -/
theorem notMem_of_mem_splitTrimmed {sep : Char} {text part : String}
    (h : part ∈ splitTrimmed sep text) : sep ∉ part.toList := by
  obtain ⟨chars, hchars, rfl⟩ := List.mem_map.1 h
  simpa using notMem_of_mem_splitOn hchars

/-- A list that begins and ends with an element outside `p` is not shortened. -/
theorem trimList_eq_self {α : Type*} {p : α → Bool} {l : List α}
    (hhead : ∀ a ∈ l.head?, p a = false) (hlast : ∀ a ∈ l.getLast?, p a = false) :
    trimList p l = l := by
  have hrev : ∀ a ∈ l.reverse.head?, p a = false := by
    rw [List.head?_reverse]
    exact hlast
  rw [trimList, dropWhile_eq_self hhead, dropWhile_eq_self hrev, List.reverse_reverse]

/-- A joined text begins with the first part. -/
theorem toList_joinWith_cons (sep : Char) (part : String) (parts : List String) :
    ∃ rest, (joinWith sep (part :: parts)).toList = part.toList ++ rest := by
  cases parts with
  | nil => exact ⟨[], by simp [joinWith]⟩
  | cons part' parts =>
    exact ⟨sep :: [sep].intercalate ((part' :: parts).map String.toList), by
      simp [joinWith]⟩

/-- A joined text ends with the last part. -/
theorem toList_joinWith_concat (sep : Char) (parts : List String) (part : String) :
    ∃ rest, (joinWith sep (parts ++ [part])).toList = rest ++ part.toList := by
  induction parts with
  | nil => exact ⟨[], by simp [joinWith]⟩
  | cons a parts ih =>
    obtain ⟨rest, hrest⟩ := ih
    have hne : parts ++ [part] ≠ [] := by simp
    refine ⟨a.toList ++ sep :: rest, ?_⟩
    have hcons : joinWith sep (a :: (parts ++ [part])) =
        a ++ String.singleton sep ++ joinWith sep (parts ++ [part]) :=
      String.intercalate_cons_of_ne_nil hne
    rw [List.cons_append, hcons]
    simp [hrest]

/-- A joined text is not empty if one of its ends is not. -/
theorem joinWith_ne_empty {sep : Char} {part : String} {parts : List String} (h : part ≠ "") :
    joinWith sep (part :: parts) ≠ "" := by
  obtain ⟨rest, hrest⟩ := toList_joinWith_cons sep part parts
  intro hempty
  rw [hempty] at hrest
  have hnil : part.toList ++ rest = [] := hrest.symm
  exact h (by simpa using (List.append_eq_nil_iff.1 hnil).1)

theorem joinWith_cons_cons (sep : Char) (part part' : String) (parts : List String) :
    (joinWith sep (part :: part' :: parts)).toList =
      part.toList ++ sep :: (joinWith sep (part' :: parts)).toList := by
  simp [joinWith]

/-- A joined text is split into the pieces of its parts. -/
theorem splitOn_joinWith (sep : Char) {parts : List String} (hne : parts ≠ []) :
    (joinWith sep parts).toList.splitOn sep =
      parts.flatMap fun part => part.toList.splitOn sep := by
  induction parts with
  | nil => exact absurd rfl hne
  | cons part parts ih =>
    cases parts with
    | nil => simp [joinWith]
    | cons part' parts =>
      rw [joinWith_cons_cons, List.splitOn_append_cons_self, ih (by simp)]
      simp only [List.flatMap_cons]

/-- Lists that are split into the same pieces are the same. -/
theorem splitOn_inj {α : Type*} [BEq α] [LawfulBEq α] {sep : α} {l l' : List α} :
    l.splitOn sep = l'.splitOn sep ↔ l = l' := by
  constructor
  · intro h
    have hl : [sep].intercalate (l.splitOn sep) = l := List.intercalate_splitOn sep
    rw [← hl, h, List.intercalate_splitOn]
  · rintro rfl
    rfl

/-- **What was joined is read back**, if no part has the separator in it and the first and the last
part are not empty. -/
theorem split_trim_join {sep : Char} {parts : List String} (hne : parts ≠ [])
    (hfirst : ∀ part ∈ parts.head?, part ≠ "") (hlast : ∀ part ∈ parts.getLast?, part ≠ "")
    (hfree : ∀ part ∈ parts, sep ∉ part.toList) :
    splitTrimmed sep (joinWith sep parts) = parts := by
  have hbegin : ∀ a ∈ (joinWith sep parts).toList.head?, (a == sep) = false := by
    obtain ⟨first, more, rfl⟩ := List.exists_cons_of_ne_nil hne
    obtain ⟨rest, hrest⟩ := toList_joinWith_cons sep first more
    have hchars : first.toList ≠ [] := by simpa using hfirst first (by simp)
    intro a ha
    rw [hrest, List.head?_append_of_ne_nil _ hchars] at ha
    have hmem := List.mem_of_mem_head? ha
    simp only [beq_eq_false_iff_ne, ne_eq]
    rintro rfl
    exact hfree first List.mem_cons_self hmem
  have hend : ∀ a ∈ (joinWith sep parts).toList.getLast?, (a == sep) = false := by
    obtain ⟨init, last, rfl⟩ := (parts.eq_nil_or_concat).resolve_left hne
    rw [List.concat_eq_append] at *
    obtain ⟨rest, hrest⟩ := toList_joinWith_concat sep init last
    have hchars : last.toList ≠ [] := by simpa using hlast last (by simp)
    intro a ha
    rw [hrest, List.getLast?_append_of_ne_nil _ hchars] at ha
    have hmem := List.mem_of_getLast? ha
    simp only [beq_eq_false_iff_ne, ne_eq]
    rintro rfl
    exact hfree last (by simp) hmem
  have hsplit : (joinWith sep parts).toList.splitOn sep = parts.map String.toList := by
    rw [joinWith, String.toList_intercalate]
    have hsep : (String.singleton sep).toList = [sep] := by simp
    rw [hsep]
    refine List.splitOn_intercalate sep ?_ (by simpa using hne)
    intro l hl
    obtain ⟨part, hpart, rfl⟩ := List.mem_map.1 hl
    exact hfree part hpart
  rw [splitTrimmed, trimList_eq_self hbegin hend, split, String.ofList_toList, hsplit,
    List.map_map]
  simp

end NewApi
