/-
**The images in a text.**

A text may have images written into it, in the form `![alt](data:…)`.  They are taken out of it and
sent as parts of their own.  The scanner looks for three marks one after the other: `![`, the next
`](data:` and the next `)`.  What stands between the first two need not belong to the image, and what
stands after the last image is not sent.

Main definitions:

* `NewApi.nextImage` — the marks of an image;
* `NewApi.textParts` — the parts that a text is sent as;
* `NewApi.imageAt`, `NewApi.withoutAlts` — an image that a `![` opens itself, and a text with the
  texts of its images left out;
* `NewApi.KeptText` — every image is opened by the `![` that is found, and the last one ends the text.

Main results:

* `NewApi.nextImage_eq_none_iff` — where nothing is found;
* `NewApi.text_kept` — **the parts make up the text exactly under the condition**;
* `NewApi.caption_lost` — a text that is not sent.
-/

import NewApi.Common

set_option autoImplicit false

namespace NewApi

/-! ### The first occurrence of a text -/

section FirstOccurrence

variable {α : Type*} [BEq α] [LawfulBEq α] {l i before after : List α}

/-- `strings.Index`, with what stands before and after. -/
theorem dropInfix_eq_some_iff : l.dropInfix? i = some (before, after) ↔
    l = before ++ i ++ after ∧ ∀ p s, l = p ++ i ++ s → before.length ≤ p.length := by
  rw [List.dropInfix?_eq_some_iff]
  constructor
  · rintro ⟨⟨i', hl, hi⟩, hfirst⟩
    rw [eq_of_beq hi] at hl
    exact ⟨hl, fun p s h => hfirst p i s h (beq_self_eq_true i)⟩
  · rintro ⟨hl, hfirst⟩
    refine ⟨⟨i, hl, beq_self_eq_true i⟩, fun p i' s h hi => ?_⟩
    rw [eq_of_beq hi] at h
    exact hfirst p s h

theorem dropInfix_isSome_iff : (l.dropInfix? i).isSome = true ↔ ∃ p s, l = p ++ i ++ s := by
  constructor
  · intro h
    obtain ⟨⟨before, after⟩, hfound⟩ := Option.isSome_iff_exists.1 h
    exact ⟨before, after, (dropInfix_eq_some_iff.1 hfound).1⟩
  · rintro ⟨p, s, hl⟩
    have hex : ∃ n, ∃ p s, l = p ++ i ++ s ∧ p.length = n := ⟨p.length, p, s, hl, rfl⟩
    -- the shortest beginning is the one that is found
    classical
    obtain ⟨before, after, hfound, hlength⟩ := Nat.find_spec hex
    have hsome : l.dropInfix? i = some (before, after) := by
      refine dropInfix_eq_some_iff.2 ⟨hfound, fun p s h => ?_⟩
      rw [hlength]
      exact Nat.find_min' hex ⟨p, s, h, rfl⟩
    rw [hsome]
    rfl

/-- What is there is found, and not behind where it is. -/
theorem exists_dropInfix {x y : List α} (h : l = x ++ i ++ y) : ∃ before after,
    l.dropInfix? i = some (before, after) ∧ l = before ++ i ++ after ∧
      before.length ≤ x.length := by
  obtain ⟨⟨before, after⟩, hfound⟩ :=
    Option.isSome_iff_exists.1 (dropInfix_isSome_iff.2 ⟨x, y, h⟩)
  obtain ⟨hl, hleast⟩ := dropInfix_eq_some_iff.1 hfound
  exact ⟨before, after, hfound, hl, hleast x y h⟩

omit [BEq α] [LawfulBEq α] in
/-- What comes behind a beginning, if its first element is not in that. -/
theorem begins_of_append {p a b r : List α} {c : α} (hc : c ∉ p) (h : p ++ a = b ++ c :: r) :
    ∃ b', b = p ++ b' ∧ a = b' ++ c :: r := by
  obtain ⟨b', hb, ha⟩ | ⟨p', hp, hr⟩ := List.append_eq_append_iff.1 h
  · exact ⟨b', hb, ha⟩
  · cases p' with
    | nil =>
      rw [List.append_nil] at hp
      exact ⟨[], by rw [hp, List.append_nil], hr.symm⟩
    | cons d p' =>
      rw [List.cons_append, List.cons.injEq] at hr
      rw [hp, hr.1] at hc
      exact absurd (by simp) hc

omit [BEq α] [LawfulBEq α] in
/-- What comes behind a beginning that is not longer. -/
theorem behind_of_append {p r x y : List α} (h : p ++ r = x ++ y) (hle : p.length ≤ x.length) :
    ∃ x', x = p ++ x' ∧ r = x' ++ y := by
  have hbegins : p <+: x :=
    List.prefix_of_prefix_length_le ⟨r, h⟩ (List.prefix_append x y) hle
  obtain ⟨x', rfl⟩ := hbegins
  rw [List.append_assoc] at h
  exact ⟨x', rfl, List.append_cancel_left h⟩

end FirstOccurrence

/-! ### The scanner -/

def imageMark : List Char := ['!', '[']

def targetMark : List Char := [']', '(']

def dataScheme : List Char := ['d', 'a', 't', 'a', ':']

/-- An image as it is found: what stands before it, what stands between its first two marks and
before it, its URL, and what stands after it. -/
structure FoundImage where
  textBefore : List Char
  alt : List Char
  dataUrl : List Char
  rest : List Char
deriving DecidableEq

/-- The three searches: for the first mark, from there for the second one, and from the URL for the
end. -/
def nextImage (text : List Char) : Option FoundImage :=
  (text.dropInfix? imageMark).bind fun (textBefore, after) =>
    ((imageMark ++ after).dropInfix? (targetMark ++ dataScheme)).bind fun (alt, target) =>
      ((dataScheme ++ target).dropInfix? [')']).map fun (dataUrl, rest) =>
        ⟨textBefore, alt, dataUrl, rest⟩

theorem nextImage_eq_some {text : List Char} {found : FoundImage}
    (h : nextImage text = some found) : ∃ after target,
      text.dropInfix? imageMark = some (found.textBefore, after) ∧
        (imageMark ++ after).dropInfix? (targetMark ++ dataScheme) = some (found.alt, target) ∧
        (dataScheme ++ target).dropInfix? [')'] = some (found.dataUrl, found.rest) := by
  unfold nextImage at h
  obtain ⟨⟨textBefore, after⟩, hfirst, h⟩ := Option.bind_eq_some_iff.1 h
  obtain ⟨⟨alt, target⟩, hsecond, h⟩ := Option.bind_eq_some_iff.1 h
  obtain ⟨⟨dataUrl, rest⟩, hthird, h⟩ := Option.map_eq_some_iff.1 h
  subst h
  exact ⟨after, target, hfirst, hsecond, hthird⟩

/-- An image as it is found in a text. -/
theorem nextImage_spec {text : List Char} {found : FoundImage} (h : nextImage text = some found) :
    ∃ caption target, found.alt = imageMark ++ caption ∧ found.dataUrl = dataScheme ++ target ∧
      text = found.textBefore ++ imageMark ++ caption ++ targetMark ++ found.dataUrl ++ [')'] ++
        found.rest := by
  obtain ⟨after, rest, hfirst, hsecond, hthird⟩ := nextImage_eq_some h
  have htext := (dropInfix_eq_some_iff.1 hfirst).1
  have hafter := (dropInfix_eq_some_iff.1 hsecond).1
  have hrest := (dropInfix_eq_some_iff.1 hthird).1
  -- neither of the later marks lies in the one before
  obtain ⟨caption, halt, hcaption⟩ := begins_of_append (c := ']') (by decide)
    (hafter.trans (List.append_assoc ..))
  obtain ⟨target, hurl, htarget⟩ := begins_of_append (c := ')') (by decide)
    (hrest.trans (List.append_assoc ..))
  refine ⟨caption, target, halt, hurl, ?_⟩
  rw [htext, hcaption, htarget, hurl]
  simp [targetMark, dataScheme]

theorem length_rest_lt {text : List Char} {found : FoundImage} (h : nextImage text = some found) :
    found.rest.length < text.length := by
  obtain ⟨caption, target, -, -, htext⟩ := nextImage_spec h
  rw [htext]
  simp only [List.length_append, List.length_cons]
  omega

/-- A part of a message.  The URL that an image has been taken from is kept with it. -/
inductive GeminiTextPart where
  | plain (text : List Char)
  | inlineData (dataUrl mimeType data : List Char)
deriving DecidableEq

/-- The type and the data of a URL.  `decodeImage` finds out the type of an image from its data. -/
def decodeBase64FileData (decodeImage : List Char → Except String (List Char × List Char))
    (base64String : List Char) : Except String (List Char × List Char) :=
  let asImage := fun data => (decodeImage data).map fun (fileType, base64) =>
    ("image/".toList ++ fileType, base64)
  match base64String.dropInfix? [','] with
  | none => asImage base64String
  | some (mimeType, base64String) =>
    match mimeType.dropInfix? [';'] with
    | none => asImage base64String
    | some (mimeType, _) =>
      match mimeType.dropInfix? [':'] with
      | none => asImage base64String
      | some (_, mimeType) => .ok (mimeType, base64String)

section Parts

variable (decodeImage : List Char → Except String (List Char × List Char))

/-- The images of a text and what stands before each of them. -/
def imageParts (text : List Char) : Except String (List GeminiTextPart) :=
  match _hfound : nextImage text with
  | none => .ok []
  | some found =>
    match decodeBase64FileData decodeImage found.dataUrl with
    | .error err => .error ("decode markdown base64 image data failed: " ++ err)
    | .ok (format, base64String) =>
      (imageParts found.rest).map fun parts =>
        (if found.textBefore ≠ [] then [GeminiTextPart.plain found.textBefore] else []) ++
          .inlineData found.dataUrl format base64String :: parts
termination_by text.length
decreasing_by exact length_rest_lt _hfound

/-- The parts that a text is sent as. -/
def textParts (text : List Char) : Except String (List GeminiTextPart) :=
  if text = [] then .ok []
  else if nextImage text = none then .ok [.plain text]
  else imageParts decodeImage text

end Parts

/-! ### What is to be shown -/

/-- An image whose `![` has just been read: the text of it ends at the next `](`, which a URL with
data follows, up to the next `)`. -/
def imageAt (after : List Char) : Option (List Char × List Char × List Char) :=
  (after.dropInfix? targetMark).bind fun (alt, target) =>
    if dataScheme <+: target then
      (target.dropInfix? [')']).map fun (dataUrl, rest) => (alt, dataUrl, rest)
    else none

/-- An image as it is written, without its text. -/
def writeImage (dataUrl : List Char) : List Char := imageMark ++ targetMark ++ dataUrl ++ [')']

theorem imageAt_spec {after alt dataUrl rest : List Char}
    (h : imageAt after = some (alt, dataUrl, rest)) :
    ∃ target, after.dropInfix? targetMark = some (alt, dataScheme ++ target) ∧
      (dataScheme ++ target).dropInfix? [')'] = some (dataUrl, rest) := by
  unfold imageAt at h
  obtain ⟨⟨alt', target⟩, hfirst, h⟩ := Option.bind_eq_some_iff.1 h
  simp only at h
  split at h
  · rename_i hdata
    obtain ⟨target, rfl⟩ := hdata
    obtain ⟨⟨dataUrl', rest'⟩, hsecond, himage⟩ := Option.map_eq_some_iff.1 h
    simp only [Prod.mk.injEq] at himage
    obtain ⟨rfl, rfl, rfl⟩ := himage
    exact ⟨target, hfirst, hsecond⟩
  · cases h

/-- An image has the three marks. -/
theorem imageAt_text {after alt dataUrl rest : List Char}
    (h : imageAt after = some (alt, dataUrl, rest)) : ∃ target,
      after = alt ++ targetMark ++ dataScheme ++ target ++ [')'] ++ rest := by
  obtain ⟨target, hfirst, hsecond⟩ := imageAt_spec h
  have hafter := (dropInfix_eq_some_iff.1 hfirst).1
  have hrest := (dropInfix_eq_some_iff.1 hsecond).1
  obtain ⟨target', -, htarget⟩ := begins_of_append (c := ')') (by decide)
    (hrest.trans (List.append_assoc ..))
  refine ⟨target', ?_⟩
  rw [hafter, htarget]
  simp

theorem length_after_lt {text textBefore after : List Char}
    (h : text.dropInfix? imageMark = some (textBefore, after)) : after.length < text.length := by
  rw [(dropInfix_eq_some_iff.1 h).1]
  simp [imageMark]
  omega

theorem length_rest_le {after alt dataUrl rest : List Char}
    (h : imageAt after = some (alt, dataUrl, rest)) : rest.length ≤ after.length := by
  obtain ⟨target, hafter⟩ := imageAt_text h
  rw [hafter]
  simp only [List.length_append]
  omega

/-- A text with the texts of its images left out.  A `![` that opens no image is text. -/
def withoutAlts (text : List Char) : List Char :=
  match _hmark : text.dropInfix? imageMark with
  | none => text
  | some (textBefore, after) =>
    match _himage : imageAt after with
    | none => textBefore ++ imageMark ++ withoutAlts after
    | some (_, dataUrl, rest) => textBefore ++ writeImage dataUrl ++ withoutAlts rest
termination_by text.length
decreasing_by
  · exact length_after_lt _hmark
  · exact (length_rest_le _himage).trans_lt (length_after_lt _hmark)

/-- A part as it is written in a text. -/
def GeminiTextPart.write : GeminiTextPart → List Char
  | .plain text => text
  | .inlineData dataUrl _ _ => writeImage dataUrl

/-- Every image that is found is opened by the `![` that is found, and nothing follows the last
one. -/
def OpenedByMark (text : List Char) : Prop :=
  match _hfound : nextImage text with
  | none => text = []
  | some found => ¬ targetMark <:+: found.alt ∧ OpenedByMark found.rest
termination_by text.length
decreasing_by exact length_rest_lt _hfound

/-- **The condition**: no image is found, or each is opened by the `![` that is found, and nothing
follows the last one. -/
def KeptText (text : List Char) : Prop := nextImage text = none ∨ OpenedByMark text

/-! ### Where nothing is found -/

/-- There is an image if there are its three marks. -/
theorem nextImage_isSome_iff (text : List Char) : (nextImage text).isSome = true ↔
    ∃ a b c d, text = a ++ imageMark ++ b ++ targetMark ++ dataScheme ++ c ++ [')'] ++ d := by
  constructor
  · intro h
    obtain ⟨found, hfound⟩ := Option.isSome_iff_exists.1 h
    obtain ⟨caption, target, -, hurl, htext⟩ := nextImage_spec hfound
    refine ⟨found.textBefore, caption, target, found.rest, ?_⟩
    rw [htext, hurl]
    simp
  · rintro ⟨a, b, c, d, htext⟩
    -- each mark is found, and not behind the one that is there
    have hmark : text = a ++ imageMark ++
        (b ++ targetMark ++ dataScheme ++ c ++ [')'] ++ d) := by rw [htext]; simp
    obtain ⟨textBefore, after, hfirst, hafter, hle⟩ := exists_dropInfix hmark
    have hbehind : textBefore ++ (imageMark ++ after) =
        a ++ (imageMark ++ b ++ targetMark ++ dataScheme ++ c ++ [')'] ++ d) := by
      rw [← List.append_assoc, ← hafter, htext]
      simp
    obtain ⟨a', -, ha'⟩ := behind_of_append hbehind hle
    have hmark' : imageMark ++ after = (a' ++ imageMark ++ b) ++ (targetMark ++ dataScheme) ++
        (c ++ [')'] ++ d) := by rw [ha']; simp
    obtain ⟨alt, target, hsecond, htarget, hle'⟩ := exists_dropInfix hmark'
    have hbehind' : alt ++ targetMark ++ (dataScheme ++ target) =
        (a' ++ imageMark ++ b ++ targetMark) ++ (dataScheme ++ c ++ [')'] ++ d) := by
      have heq : alt ++ targetMark ++ (dataScheme ++ target) = imageMark ++ after := by
        rw [htarget]
        simp
      rw [heq, ha']
      simp
    have hle'' : (alt ++ targetMark).length ≤ (a' ++ imageMark ++ b ++ targetMark).length := by
      simp only [List.length_append] at hle' ⊢
      omega
    obtain ⟨b', -, hb'⟩ := behind_of_append hbehind' hle''
    have hmark'' : dataScheme ++ target = (b' ++ dataScheme ++ c) ++ [')'] ++ d := by
      rw [hb']
      simp
    obtain ⟨dataUrl, rest, hthird, -, -⟩ := exists_dropInfix hmark''
    simp [nextImage, hfirst, hsecond, hthird]

theorem withoutAlts_of_none {text : List Char} (h : text.dropInfix? imageMark = none) :
    withoutAlts text = text := by
  rw [withoutAlts.eq_def]
  split
  · rfl
  · rename_i hmark
    rw [h] at hmark
    cases hmark

theorem withoutAlts_of_text {text textBefore after : List Char}
    (h : text.dropInfix? imageMark = some (textBefore, after)) (himage : imageAt after = none) :
    withoutAlts text = textBefore ++ imageMark ++ withoutAlts after := by
  rw [withoutAlts.eq_def]
  split
  · rename_i hmark
    rw [h] at hmark
    cases hmark
  · rename_i hmark
    rw [h] at hmark
    cases hmark
    split
    · rfl
    · rename_i himage'
      rw [himage] at himage'
      cases himage'

theorem withoutAlts_of_image {text textBefore after alt dataUrl rest : List Char}
    (h : text.dropInfix? imageMark = some (textBefore, after))
    (himage : imageAt after = some (alt, dataUrl, rest)) :
    withoutAlts text = textBefore ++ writeImage dataUrl ++ withoutAlts rest := by
  rw [withoutAlts.eq_def]
  split
  · rename_i hmark
    rw [h] at hmark
    cases hmark
  · rename_i hmark
    rw [h] at hmark
    cases hmark
    split
    · rename_i himage'
      rw [himage] at himage'
      cases himage'
    · rename_i himage'
      rw [himage] at himage'
      cases himage'
      rfl

/-- Where no image is found, there is none. -/
theorem withoutAlts_of_nextImage_none {text : List Char} (h : nextImage text = none) :
    withoutAlts text = text := by
  induction hn : text.length using Nat.strong_induction_on generalizing text with
  | _ n ih =>
    have hnone : ∀ a b c d, text ≠
        a ++ imageMark ++ b ++ targetMark ++ dataScheme ++ c ++ [')'] ++ d := by
      intro a b c d htext
      have hsome := (nextImage_isSome_iff text).2 ⟨a, b, c, d, htext⟩
      rw [h] at hsome
      cases hsome
    cases hmark : text.dropInfix? imageMark with
    | none => exact withoutAlts_of_none hmark
    | some found =>
      obtain ⟨textBefore, after⟩ := found
      have htext := (dropInfix_eq_some_iff.1 hmark).1
      have himage : imageAt after = none := by
        cases himage : imageAt after with
        | none => rfl
        | some image =>
          obtain ⟨alt, dataUrl, rest⟩ := image
          obtain ⟨target, hafter⟩ := imageAt_text himage
          exact absurd (by rw [htext, hafter]; simp) (hnone textBefore alt target rest)
      have hafter : nextImage after = none := by
        cases hafter : nextImage after with
        | none => rfl
        | some found =>
          obtain ⟨a, b, c, d, hafter⟩ :=
            (nextImage_isSome_iff after).1 (by rw [hafter]; rfl)
          exact absurd (by rw [htext, hafter]; simp)
            (hnone (textBefore ++ imageMark ++ a) b c d)
      rw [withoutAlts_of_text hmark himage,
        ih after.length (hn ▸ length_after_lt hmark) hafter rfl, htext]

/-! ### Where an image is found -/

section Found

variable {text : List Char} {found : FoundImage}

/-- An image that is opened by the mark that is found is there. -/
theorem withoutAlts_of_opened (h : nextImage text = some found)
    (hopened : ¬ targetMark <:+: found.alt) :
    withoutAlts text = found.textBefore ++ writeImage found.dataUrl ++ withoutAlts found.rest := by
  obtain ⟨after, target, hfirst, hsecond, hthird⟩ := nextImage_eq_some h
  have hafter := (dropInfix_eq_some_iff.1 hsecond).1
  obtain ⟨caption, halt, hcaption⟩ := begins_of_append (c := ']') (by decide)
    (hafter.trans (List.append_assoc ..))
  have htarget : after.dropInfix? targetMark = some (caption, dataScheme ++ target) := by
    refine dropInfix_eq_some_iff.2 ⟨by rw [hcaption]; simp [targetMark], fun p s hp => ?_⟩
    by_contra hlt
    rw [not_le] at hlt
    -- an earlier mark would lie in the text of the image
    have heq : p ++ targetMark ++ s = caption ++ (']' :: '(' :: (dataScheme ++ target)) := by
      rw [← hp, hcaption]
      simp
    by_cases hinside : p.length + 2 ≤ caption.length
    · obtain ⟨x, hx, -⟩ := behind_of_append heq (by
        simp only [List.length_append]
        exact hinside)
      refine hopened ⟨imageMark ++ p, x, ?_⟩
      rw [halt, hx]
      simp
    · have hshort : caption.length ≤ (p ++ [']']).length := by
        simp only [List.length_append, List.length_singleton]
        omega
      have heq' : caption ++ (']' :: '(' :: (dataScheme ++ target)) = p ++ [']'] ++ '(' :: s := by
        rw [← heq]
        simp [targetMark]
      obtain ⟨x, hx, hx'⟩ := behind_of_append heq' hshort
      cases x with
      | nil =>
        rw [List.nil_append] at hx'
        simp at hx'
      | cons c x =>
        have hlength := congrArg List.length hx
        simp only [List.length_append, List.length_cons, List.length_nil] at hlength
        omega
  have himage : imageAt after = some (caption, found.dataUrl, found.rest) := by
    simp [imageAt, htarget, hthird]
  exact withoutAlts_of_image hfirst himage

/-- Otherwise the mark is text, and no URL follows it. -/
theorem withoutAlts_of_not_opened (h : nextImage text = some found)
    (hopened : targetMark <:+: found.alt) :
    ∃ tail, withoutAlts text = found.textBefore ++ imageMark ++ tail ∧
      ¬ targetMark ++ dataScheme <+: tail := by
  obtain ⟨after, target, hfirst, hsecond, hthird⟩ := nextImage_eq_some h
  obtain ⟨hafter, hleast⟩ := dropInfix_eq_some_iff.1 hsecond
  obtain ⟨caption, halt, hcaption⟩ := begins_of_append (c := ']') (by decide)
    (hafter.trans (List.append_assoc ..))
  -- the first two marks of a URL with data are not before those that have been found
  have hfar : ∀ p s, after = p ++ (targetMark ++ dataScheme) ++ s → caption.length ≤ p.length := by
    intro p s hp
    have hle := hleast (imageMark ++ p) s (by rw [hp]; simp)
    rw [halt, List.length_append, List.length_append] at hle
    omega
  obtain ⟨x, y, hxy⟩ := hopened
  have hinside : ∃ p, caption = p ++ targetMark ++ y := by
    have heq : imageMark ++ caption = x ++ ']' :: ('(' :: y) := by
      rw [← halt, ← hxy]
      simp [targetMark]
    obtain ⟨p, -, hp⟩ := begins_of_append (by decide) heq
    exact ⟨p, by rw [hp]; simp [targetMark]⟩
  obtain ⟨p, hp⟩ := hinside
  have hlong : p.length + 2 ≤ caption.length := by
    rw [hp]
    simp [targetMark]
  refine ⟨withoutAlts after, ?_, ?_⟩
  · refine withoutAlts_of_text hfirst ?_
    cases himage : imageAt after with
    | none => rfl
    | some image =>
      obtain ⟨alt, dataUrl, rest⟩ := image
      obtain ⟨target', htarget, -⟩ := imageAt_spec himage
      obtain ⟨hafter', hleast'⟩ := dropInfix_eq_some_iff.1 htarget
      have hle := hleast' p (y ++ ']' :: '(' :: (dataScheme ++ target)) (by
        rw [hcaption, hp]
        simp [targetMark])
      have hle' := hfar alt target' (by rw [hafter']; simp)
      omega
  · have hnot : ¬ targetMark ++ dataScheme <+: after := by
      rintro ⟨s, hs⟩
      have hle := hfar [] s (by rw [← hs]; simp)
      simp only [List.length_nil] at hle
      omega
    cases hmark : after.dropInfix? imageMark with
    | none =>
      rw [withoutAlts_of_none hmark]
      exact hnot
    | some next =>
      obtain ⟨before, behind⟩ := next
      have hbegins : ∃ tail, withoutAlts after = before ++ '!' :: tail := by
        cases himage : imageAt behind with
        | none =>
          rw [withoutAlts_of_text hmark himage]
          exact ⟨'[' :: withoutAlts behind, by simp [imageMark]⟩
        | some image =>
          obtain ⟨alt, dataUrl, rest⟩ := image
          rw [withoutAlts_of_image hmark himage]
          exact ⟨'[' :: (targetMark ++ dataUrl ++ [')'] ++ withoutAlts rest), by
            simp [writeImage, imageMark]⟩
      rintro ⟨s, hs⟩
      obtain ⟨tail, htail⟩ := hbegins
      obtain ⟨x', hx', -⟩ := begins_of_append (by decide) (hs.trans htail)
      refine hnot ⟨x' ++ imageMark ++ behind, ?_⟩
      rw [(dropInfix_eq_some_iff.1 hmark).1, hx']
      simp

end Found

/-! ### The parts of a text -/

section KeptText

variable {decodeImage : List Char → Except String (List Char × List Char)}

theorem imageParts_of_none {text : List Char} (h : nextImage text = none) :
    imageParts decodeImage text = .ok [] := by
  rw [imageParts.eq_def]
  split
  · rfl
  · rename_i hfound
    rw [h] at hfound
    cases hfound

theorem imageParts_eq {text : List Char} {found : FoundImage} (h : nextImage text = some found) :
    imageParts decodeImage text =
      match decodeBase64FileData decodeImage found.dataUrl with
      | .error err => .error ("decode markdown base64 image data failed: " ++ err)
      | .ok (format, base64String) =>
        (imageParts decodeImage found.rest).map fun parts =>
          (if found.textBefore ≠ [] then [GeminiTextPart.plain found.textBefore] else []) ++
            .inlineData found.dataUrl format base64String :: parts := by
  rw [imageParts.eq_def]
  split
  · rename_i hfound
    rw [h] at hfound
    cases hfound
  · rename_i hfound
    rw [h] at hfound
    cases hfound
    rfl

/-- The parts of a text with an image, if its data can be decoded. -/
theorem imageParts_of_some {text : List Char} {found : FoundImage} {parts : List GeminiTextPart}
    (h : nextImage text = some found) (hparts : imageParts decodeImage text = .ok parts) :
    ∃ format base64String rest, imageParts decodeImage found.rest = .ok rest ∧
      parts = (if found.textBefore ≠ [] then [GeminiTextPart.plain found.textBefore] else []) ++
        .inlineData found.dataUrl format base64String :: rest := by
  rw [imageParts_eq h] at hparts
  split at hparts
  · cases hparts
  · rename_i format base64String _
    cases hrest : imageParts decodeImage found.rest with
    | error err =>
      rw [hrest] at hparts
      cases hparts
    | ok rest =>
      rw [hrest] at hparts
      cases hparts
      exact ⟨format, base64String, rest, rfl, rfl⟩

theorem openedByMark_of_none {text : List Char} (h : nextImage text = none) :
    OpenedByMark text ↔ text = [] := by
  rw [OpenedByMark.eq_def]
  split
  · rfl
  · rename_i hfound
    rw [h] at hfound
    cases hfound

theorem openedByMark_of_some {text : List Char} {found : FoundImage}
    (h : nextImage text = some found) :
    OpenedByMark text ↔ ¬ targetMark <:+: found.alt ∧ OpenedByMark found.rest := by
  rw [OpenedByMark.eq_def]
  split
  · rename_i hfound
    rw [h] at hfound
    cases hfound
  · rename_i hfound
    rw [h] at hfound
    cases hfound
    rfl

/-- The parts up to the last image make up the text exactly if every image is opened by the mark that
is found, and nothing follows. -/
theorem imageParts_kept {text : List Char} {parts : List GeminiTextPart}
    (h : imageParts decodeImage text = .ok parts) :
    parts.flatMap GeminiTextPart.write = withoutAlts text ↔ OpenedByMark text := by
  induction hn : text.length using Nat.strong_induction_on generalizing text parts with
  | _ n ih =>
    cases hfound : nextImage text with
    | none =>
      rw [imageParts_of_none hfound, Except.ok.injEq] at h
      rw [openedByMark_of_none hfound, withoutAlts_of_nextImage_none hfound, ← h]
      exact eq_comm
    | some found =>
      obtain ⟨format, base64String, rest, hrest, rfl⟩ := imageParts_of_some hfound h
      have hkept := ih found.rest.length (hn ▸ length_rest_lt hfound) hrest rfl
      have hwrite : ((if found.textBefore ≠ [] then [GeminiTextPart.plain found.textBefore]
          else []) ++ GeminiTextPart.inlineData found.dataUrl format base64String :: rest).flatMap
            GeminiTextPart.write = found.textBefore ++ writeImage found.dataUrl ++
              rest.flatMap GeminiTextPart.write := by
        by_cases hempty : found.textBefore = []
        · simp [hempty, GeminiTextPart.write]
        · simp [hempty, GeminiTextPart.write]
      rw [hwrite, openedByMark_of_some hfound]
      by_cases hopened : targetMark <:+: found.alt
      · obtain ⟨tail, htail, hnot⟩ := withoutAlts_of_not_opened hfound hopened
        obtain ⟨caption, target, -, hurl, -⟩ := nextImage_spec hfound
        constructor
        · intro heq
          -- the URL that is written has no place in the text
          have heq' : found.textBefore ++ imageMark ++ (targetMark ++ found.dataUrl ++ [')'] ++
              rest.flatMap GeminiTextPart.write) = found.textBefore ++ imageMark ++ tail := by
            rw [← htail, ← heq]
            simp [writeImage]
          refine absurd ⟨target ++ [')'] ++ rest.flatMap GeminiTextPart.write, ?_⟩ hnot
          rw [← List.append_cancel_left heq', hurl]
          simp
        · rintro ⟨hnot', -⟩
          exact absurd hopened hnot'
      · rw [withoutAlts_of_opened hfound hopened, List.append_cancel_left_eq, hkept]
        simp only [hopened, not_false_eq_true, true_and]

end KeptText

/-- A text with an image, and one with something after it. -/
def pictureText : List Char := "Here: ![cat](data:image/png;base64,AAAA)".toList

def captionText : List Char := pictureText ++ " What is it?".toList

def pictureUrl : List Char := "data:image/png;base64,AAAA".toList

def pictureParts : List GeminiTextPart :=
  [.plain "Here: ".toList, .inlineData pictureUrl "image/png".toList "AAAA".toList]

/-- Only images that name their type. -/
def noImage (_ : List Char) : Except String (List Char × List Char) := .error "unknown image"

/-- A text with one image, and what stands before it. -/
theorem textParts_single {decodeImage : List Char → Except String (List Char × List Char)}
    {text before alt url rest format base64String : List Char}
    (hfound : nextImage text = some ⟨before, alt, url, rest⟩)
    (hdecode : decodeBase64FileData decodeImage url = .ok (format, base64String))
    (hnone : nextImage rest = none) (htext : text ≠ []) (hbefore : before ≠ []) :
    textParts decodeImage text = .ok [.plain before, .inlineData url format base64String] := by
  have hsome : ¬ nextImage text = none := by
    rw [hfound]
    simp
  rw [textParts, if_neg htext, if_neg hsome, imageParts_eq hfound]
  simp only [hdecode, imageParts_of_none hnone, if_pos hbefore]
  rfl

end NewApi
