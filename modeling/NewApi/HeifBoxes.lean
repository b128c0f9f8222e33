/-
**The dimensions of HEIF pictures.**

A HEIF file is a sequence of boxes: a size, a type and a content, which may be a sequence of boxes
itself.  The dimensions are in an `ispe` box below the `meta` box.  The program goes from box to box
by adding sizes to an offset.  At the top level a size may have 64 bits, and the sum is taken before
it is compared, in 64 bits with a sign.  A box that is not the first can have a size for which the
sum is negative; the next slice then panics.

Main definitions:

* `NewApi.parseHEIFDimensions`, `NewApi.findISPE` — the walk over the boxes, and that below `meta`;
* `NewApi.Overruns` — the boxes before `meta` lead to a size for which the sum is negative;
* `NewApi.Located` — the dimensions are in an `ispe` box within the boxes around it;
* `NewApi.Finds` — the walk ends without a panic, and dimensions it finds are positive and such.

Main results:

* `NewApi.findISPE_ends` — below `meta` the walk ends without a panic, whatever the bytes;
* `NewApi.heif_walk` — **the whole walk ends; it panics exactly for the bytes that overrun; and the
  dimensions it finds are positive and located**.
-/

import NewApi.Common
import NewApi.Lib.WireFormat

set_option autoImplicit false

namespace NewApi

open WireFormat

/-! ### The walk -/

/-- `data[low:high]`, or nothing if that panics. -/
def byteSlice (data : List Byte) (low high : ℤ) : Option (List Byte) :=
  if 0 ≤ low ∧ low ≤ high ∧ high ≤ data.length then
    some ((data.take high.toNat).drop low.toNat)
  else none

/-- A type, which has four letters. -/
def boxName (name : String) : List Byte := name.toList.map fun c => BitVec.ofNat 8 c.toNat

/-- How a walk ends: in a panic, with dimensions or without.  It is `endless` if it takes more
rounds than it is given. -/
inductive WalkEnd where
  | panic
  | endless
  | done (dims : Option (ℕ × ℕ))
deriving DecidableEq, Repr

/-- What is found, or else what is found after it. -/
def WalkEnd.orElse (found next : WalkEnd) : WalkEnd :=
  match found with
  | .done none => next
  | found => found

/-- The dimensions in the content of an `ispe` box. -/
def ispeDims (content : List Byte) : Option (ℕ × ℕ) :=
  if 12 ≤ content.length then
    let w := value ((content.take 8).drop 4)
    let h := value ((content.take 12).drop 8)
    if 0 < w ∧ 0 < h then some (w, h) else none
  else none

/-- The loop of `findISPE`, with its recursion; both count the rounds down. -/
def findISPE : ℕ → List Byte → ℤ → WalkEnd
  | 0, _, _ => .endless
  | rounds + 1, data, offset =>
    if offset + 8 ≤ data.length then
      match byteSlice data offset (offset + 4), byteSlice data (offset + 4) (offset + 8) with
      | some size, some type =>
        let boxSize : ℤ := value size
        let boxEnd := wrap64 (offset + boxSize)
        if boxSize < 8 ∨ data.length < boxEnd then .done none
        else
          match byteSlice data (offset + 8) boxEnd with
          | none => .panic
          | some content =>
            let found :=
              if type = boxName "iprp" ∨ type = boxName "ipco" then findISPE rounds content 0
              else if type = boxName "ispe" then .done (ispeDims content)
              else .done none
            found.orElse (findISPE rounds data boxEnd)
      | _, _ => .panic
    else .done none

/-- The size of a box and that of its header; nothing if the walk breaks off. -/
def boxExtent (data : List Byte) (offset boxSize : ℤ) : Option (ℤ × ℤ) :=
  if boxSize = 1 then
    if offset + 16 ≤ data.length then
      some (wrap64 (value ((data.take (offset + 16).toNat).drop (offset + 8).toNat)), 16)
    else none
  else if boxSize = 0 then some (data.length - offset, 8)
  else some (boxSize, 8)

/-- The dimensions in the content of a `meta` box. -/
def metaDims (rounds : ℕ) (content : List Byte) : WalkEnd :=
  if content.length < 4 then .done none else findISPE rounds (content.drop 4) 0

/-- The loop of `parseHEIFDimensions`. -/
def walkBoxes : ℕ → List Byte → ℤ → WalkEnd
  | 0, _, _ => .endless
  | rounds + 1, data, offset =>
    if offset + 8 ≤ data.length then
      match byteSlice data offset (offset + 4), byteSlice data (offset + 4) (offset + 8) with
      | some size, some type =>
        match boxExtent data offset (value size) with
        | none => .done none
        | some (boxSize, headerLen) =>
          let boxEnd := wrap64 (offset + boxSize)
          if boxSize < headerLen ∨ data.length < boxEnd then .done none
          else if type = boxName "meta" then
            match byteSlice data (offset + headerLen) boxEnd with
            | none => .panic
            | some metaData => metaDims rounds metaData
          else walkBoxes rounds data boxEnd
      | _, _ => .panic
    else .done none

def parseHEIFDimensions (rounds : ℕ) (data : List Byte) : WalkEnd :=
  if data.length < 12 then .done none else walkBoxes rounds data 0

/-! ### Boxes -/

/-- A box with a size of 32 bits. -/
def box (type content : List Byte) : List Byte := word 4 (8 + content.length) ++ type ++ content

/-- Whole boxes in a row. -/
inductive Boxes : List Byte → Prop
  | nil : Boxes []
  | box {pre type content : List Byte} : Boxes pre → type.length = 4 →
      8 + content.length < 2 ^ 32 → Boxes (pre ++ box type content)

/-- The dimensions are in an `ispe` box, within whole boxes. -/
inductive HasISPE (w h : ℕ) : List Byte → Prop
  | here {pre flags more post : List Byte} : Boxes pre → flags.length = 4 →
      HasISPE w h
        (pre ++ (box (boxName "ispe") (flags ++ (word 4 w ++ (word 4 h ++ more))) ++ post))
  | inside {pre type content post : List Byte} : Boxes pre →
      type = boxName "iprp" ∨ type = boxName "ipco" → HasISPE w h content →
      HasISPE w h (pre ++ (box type content ++ post))

/-- The header of a box at the top level, which says how far its content reaches.  That of the last
box need not say it. -/
inductive IsHeader (type content : List Byte) : List Byte → List Byte → Prop
  | short {post : List Byte} : 8 + content.length < 2 ^ 32 →
      IsHeader type content post (word 4 (8 + content.length) ++ type)
  | wide {post : List Byte} : 16 + content.length < 2 ^ 63 →
      IsHeader type content post (word 4 1 ++ type ++ word 8 (16 + content.length))
  | last : IsHeader type content [] (word 4 0 ++ type)

/-- Whole boxes at the top level, none of which is `meta`, and what comes after them. -/
inductive BeforeMeta : List Byte → List Byte → Prop
  | nil {rest : List Byte} : BeforeMeta [] rest
  | box {pre header type content post : List Byte} : BeforeMeta pre (header ++ content ++ post) →
      type.length = 4 → type ≠ boxName "meta" → IsHeader type content post header →
      BeforeMeta (pre ++ (header ++ content)) post

/-- The content of the first `meta` box. -/
def HasMeta (content data : List Byte) : Prop :=
  ∃ pre header post, BeforeMeta pre (header ++ content ++ post) ∧
    IsHeader (boxName "meta") content post header ∧ data = pre ++ (header ++ content ++ post)

/-- The dimensions are in an `ispe` box below the first `meta` box. -/
def Located (data : List Byte) (w h : ℕ) : Prop :=
  ∃ flags content, flags.length = 4 ∧ HasISPE w h content ∧ HasMeta (flags ++ content) data

/-- The first boxes lead to one with a size of 64 bits, for which the sum is negative. -/
def Overruns (data : List Byte) : Prop :=
  ∃ (pre type rest : List Byte) (size : ℕ),
    BeforeMeta pre (word 4 1 ++ (type ++ (word 8 size ++ rest))) ∧ type.length = 4 ∧
    size < 2 ^ 63 ∧ 2 ^ 63 ≤ pre.length + size ∧
    data = pre ++ (word 4 1 ++ (type ++ (word 8 size ++ rest)))

/-- A walk that ends without a panic, and finds positive dimensions of this kind if any. -/
def Finds (P : ℕ → ℕ → Prop) (walk : WalkEnd) : Prop :=
  ∃ dims, walk = .done dims ∧ ∀ w h, dims = some (w, h) → 0 < w ∧ 0 < h ∧ P w h

theorem finds_none {P : ℕ → ℕ → Prop} {walk : WalkEnd} (h : walk = .done none) : Finds P walk :=
  ⟨none, h, nofun⟩

theorem Finds.orElse {P Q : ℕ → ℕ → Prop} {found next : WalkEnd} (hfound : Finds P found)
    (himp : ∀ w h, P w h → Q w h) (hnext : Finds Q next) : Finds Q (found.orElse next) := by
  obtain ⟨dims, rfl, hdims⟩ := hfound
  cases dims with
  | none => exact hnext
  | some found =>
    refine ⟨some found, rfl, fun w h heq => ?_⟩
    obtain ⟨hw, hh, hP⟩ := hdims w h heq
    exact ⟨hw, hh, himp w h hP⟩

/-! ### Reading -/

theorem drop_take_middle (pre mid post : List Byte) :
    ((pre ++ (mid ++ post)).take (pre.length + mid.length)).drop pre.length = mid := by
  rw [← List.append_assoc, ← List.length_append, List.take_left, List.drop_left]

theorem byteSlice_middle {pre mid post : List Byte} {low high : ℤ} (hlow : low = pre.length)
    (hhigh : high = pre.length + mid.length) :
    byteSlice (pre ++ (mid ++ post)) low high = some mid := by
  have hlow' : low.toNat = pre.length := by omega
  have hhigh' : high.toNat = pre.length + mid.length := by omega
  rw [byteSlice, if_pos, hlow', hhigh', drop_take_middle]
  simp only [List.length_append]
  omega

theorem byteSlice_of_neg {data : List Byte} {low high : ℤ} (h : low < 0 ∨ high < low) :
    byteSlice data low high = none := by
  rw [byteSlice, if_neg]
  omega

theorem exists_append {l : List Byte} {k : ℕ} (h : k ≤ l.length) :
    ∃ front rest, front.length = k ∧ l = front ++ rest :=
  ⟨l.take k, l.drop k, by simp [h], (List.take_append_drop k l).symm⟩

theorem exists_word {l : List Byte} {k : ℕ} (h : k ≤ l.length) :
    ∃ n rest, n < 256 ^ k ∧ l = word k n ++ rest := by
  refine ⟨value (l.take k), l.drop k, readWord_eq_some_iff.1 ?_⟩
  rw [readWord, if_neg (not_lt.2 h)]

/-- The header of a box. -/
theorem exists_header {rest : List Byte} (h : 8 ≤ rest.length) :
    ∃ n type tail, n < 2 ^ 32 ∧ type.length = 4 ∧ rest = word 4 n ++ (type ++ tail) := by
  obtain ⟨n, rest', hn, rfl⟩ := exists_word (l := rest) (k := 4) (by omega)
  rw [List.length_append, length_word] at h
  obtain ⟨type, tail, htype, rfl⟩ := exists_append (l := rest') (k := 4) (by omega)
  exact ⟨n, type, tail, hn, htype, rfl⟩

theorem ispeDims_eq_some {content : List Byte} {w h : ℕ} (hdims : ispeDims content = some (w, h)) :
    0 < w ∧ 0 < h ∧ ∃ flags more, flags.length = 4 ∧
      content = flags ++ (word 4 w ++ (word 4 h ++ more)) := by
  unfold ispeDims at hdims
  split at hdims
  · rename_i hlong
    obtain ⟨flags, rest, hflags, rfl⟩ := exists_append (l := content) (k := 4) (by omega)
    rw [List.length_append] at hlong
    obtain ⟨a, rest', ha, rfl⟩ := exists_word (l := rest) (k := 4) (by omega)
    rw [List.length_append, length_word] at hlong
    obtain ⟨b, more, hb, rfl⟩ := exists_word (l := rest') (k := 4) (by omega)
    have hwidth := drop_take_middle flags (word 4 a) (word 4 b ++ more)
    have hheight := drop_take_middle (flags ++ word 4 a) (word 4 b) more
    simp only [List.length_append, length_word, hflags, Nat.reduceAdd, List.append_assoc]
      at hwidth hheight
    simp only [hwidth, hheight, value_word ha, value_word hb] at hdims
    split at hdims
    · rename_i hpos
      simp only [Option.some.injEq, Prod.mk.injEq] at hdims
      obtain ⟨rfl, rfl⟩ := hdims
      exact ⟨hpos.1, hpos.2, flags, more, hflags, rfl⟩
    · cases hdims
  · cases hdims

section Walk

variable {pre type content post tail rest data : List Byte} {n rounds : ℕ}

@[simp] theorem length_box : (box type content).length = 4 + type.length + content.length := by
  simp [box, Nat.add_assoc]

/-- The size and the type of a box are where the walk reads them. -/
theorem header_slices (htype : type.length = 4)
    (hdata : data = pre ++ (word 4 n ++ (type ++ tail))) :
    byteSlice data pre.length (pre.length + 4) = some (word 4 n) ∧
      byteSlice data (pre.length + 4) (pre.length + 8) = some type := by
  subst hdata
  constructor
  · exact byteSlice_middle rfl (by simp)
  · rw [← List.append_assoc]
    refine byteSlice_middle (by simp) ?_
    rw [htype]
    simp
    omega

/-! ### Below `meta` -/

theorem findISPE_short (h : rest.length < 8) :
    findISPE (rounds + 1) (pre ++ rest) pre.length = .done none := by
  rw [findISPE, if_neg]
  rw [List.length_append]
  push_cast
  omega

/-- A box that is too short, or reaches beyond the end. -/
theorem findISPE_stop (hn : n < 2 ^ 32) (htype : type.length = 4)
    (hdata : data = pre ++ (word 4 n ++ (type ++ tail))) (hlen : data.length < 2 ^ 62)
    (hstop : n < 8 ∨ 8 + tail.length < n) :
    findISPE (rounds + 1) data pre.length = .done none := by
  have hlength : data.length = pre.length + (8 + tail.length) := by
    rw [hdata]
    simp [htype]
    omega
  obtain ⟨hsize, hname⟩ := header_slices htype hdata
  rw [findISPE, if_pos (by omega), hsize, hname]
  simp only [value_word (show n < 256 ^ 4 from hn)]
  rw [wrap64_of_lt (by omega) (by omega), if_pos (by omega)]

/-- A whole box: what is found in it, or else what is found after it. -/
theorem findISPE_box (htype : type.length = 4) (hn : 8 + content.length < 2 ^ 32)
    (hdata : data = pre ++ (box type content ++ post)) (hlen : data.length < 2 ^ 62) :
    findISPE (rounds + 1) data pre.length =
      (if type = boxName "iprp" ∨ type = boxName "ipco" then findISPE rounds content 0
        else if type = boxName "ispe" then .done (ispeDims content) else .done none).orElse
          (findISPE rounds data (pre ++ box type content).length) := by
  have hshape : data = pre ++ (word 4 (8 + content.length) ++ (type ++ (content ++ post))) := by
    rw [hdata, box]
    simp only [List.append_assoc]
  have hlength : data.length = pre.length + (8 + content.length) + post.length := by
    rw [hdata]
    simp [htype]
    omega
  have hend : wrap64 ((pre.length : ℤ) + (8 + content.length : ℕ)) =
      (pre ++ box type content).length := by
    rw [wrap64_of_lt (by omega) (by omega)]
    simp [htype]
  have hcontent : byteSlice data (pre.length + 8) (pre ++ box type content).length =
      some content := by
    rw [hshape, ← List.append_assoc, ← List.append_assoc]
    exact byteSlice_middle (by simp [htype]) (by simp [htype]; omega)
  obtain ⟨hsize, hname⟩ := header_slices htype hshape
  rw [findISPE, if_pos (by omega), hsize, hname]
  simp only [value_word (show 8 + content.length < 256 ^ 4 from hn), hend, hcontent]
  rw [if_neg]
  simp [htype]
  omega

/-- **Below `meta` the walk ends without a panic**, and what it finds is in an `ispe` box. -/
theorem findISPE_ends (hpre : Boxes pre) (hdata : data = pre ++ rest)
    (hlen : data.length < 2 ^ 62) (hrounds : rest.length < rounds) :
    Finds (HasISPE · · data) (findISPE rounds data pre.length) := by
  induction rounds generalizing data pre rest with
  | zero => omega
  | succ rounds ih =>
    by_cases hshort : rest.length < 8
    · exact finds_none (hdata ▸ findISPE_short hshort)
    obtain ⟨n, type, tail, hn, htype, rfl⟩ := exists_header (not_lt.1 hshort)
    by_cases hstop : n < 8 ∨ 8 + tail.length < n
    · exact finds_none (findISPE_stop hn htype hdata hlen hstop)
    obtain ⟨content, post, hcontent, rfl⟩ :=
      exists_append (l := tail) (k := n - 8) (by omega)
    obtain rfl : n = 8 + content.length := by omega
    have hshape : data = pre ++ (box type content ++ post) := by
      rw [hdata, box]
      simp only [List.append_assoc]
    have hlength : data.length = pre.length + (8 + content.length) + post.length := by
      rw [hshape]
      simp [htype]
      omega
    simp only [List.length_append, length_word, htype] at hrounds
    have hnext := ih (hpre.box htype hn) (hshape.trans (List.append_assoc _ _ _).symm) hlen
      (by omega)
    rw [findISPE_box htype hn hshape hlen, hshape]
    by_cases hinner : type = boxName "iprp" ∨ type = boxName "ipco"
    · have hfound := ih .nil (List.nil_append content).symm (by omega) (by omega)
      rw [if_pos hinner]
      exact hfound.orElse (fun w h hispe => .inside hpre hinner hispe) (hshape ▸ hnext)
    rw [if_neg hinner]
    by_cases hispe : type = boxName "ispe"
    · subst hispe
      rw [if_pos rfl]
      refine Finds.orElse ⟨_, rfl, fun w h => ispeDims_eq_some⟩ ?_ (hshape ▸ hnext)
      rintro w h ⟨flags, more, hflags, rfl⟩
      exact .here hpre hflags
    · rw [if_neg hispe]
      exact hshape ▸ hnext

/-! ### The top level -/

theorem metaDims_ends (hmeta : HasMeta content data) (hlen : content.length < 2 ^ 62)
    (hrounds : content.length ≤ rounds) : Finds (Located data) (metaDims rounds content) := by
  by_cases hshort : content.length < 4
  · exact finds_none (if_pos hshort)
  obtain ⟨flags, inner, hflags, rfl⟩ := exists_append (not_lt.1 hshort)
  rw [List.length_append] at hlen hrounds
  obtain ⟨dims, hdims, hfound⟩ := findISPE_ends .nil (List.nil_append inner).symm
    (show inner.length < 2 ^ 62 by omega) (show inner.length < rounds by omega)
  refine ⟨dims, ?_, fun w h heq => ?_⟩
  · rw [metaDims, if_neg hshort, ← hflags, List.drop_left]
    exact hdims
  · obtain ⟨hw, hh, hispe⟩ := hfound w h heq
    exact ⟨hw, hh, flags, inner, hflags, hispe, hmeta⟩

theorem boxExtent_wide {size : ℕ} (htype : type.length = 4) (hsize : size < 2 ^ 64)
    (hdata : data = pre ++ (word 4 1 ++ (type ++ (word 8 size ++ tail)))) :
    boxExtent data pre.length 1 = some (wrap64 size, 16) := by
  have hslice := drop_take_middle (pre ++ word 4 1 ++ type) (word 8 size) tail
  simp only [List.length_append, length_word, htype, List.append_assoc, Nat.add_assoc,
    Nat.reduceAdd] at hslice
  have hlong : (pre.length : ℤ) + 16 ≤ data.length := by
    rw [hdata]
    simp [htype]
    omega
  have hto : ((pre.length : ℤ) + 16).toNat = pre.length + 16 := by omega
  have hfrom : ((pre.length : ℤ) + 8).toNat = pre.length + 8 := by omega
  rw [boxExtent, if_pos rfl, if_pos hlong, hto, hfrom, hdata, hslice,
    value_word (show size < 256 ^ 8 from hsize)]

/-- The walk of a round, once the size is known. -/
theorem walkBoxes_extent (hn : n < 2 ^ 32) (htype : type.length = 4)
    (hdata : data = pre ++ (word 4 n ++ (type ++ tail))) :
    walkBoxes (rounds + 1) data pre.length =
      match boxExtent data pre.length n with
      | none => .done none
      | some (boxSize, headerLen) =>
        if boxSize < headerLen ∨ data.length < wrap64 (pre.length + boxSize) then .done none
        else if type = boxName "meta" then
          match byteSlice data (pre.length + headerLen) (wrap64 (pre.length + boxSize)) with
          | none => .panic
          | some metaData => metaDims rounds metaData
        else walkBoxes rounds data (wrap64 (pre.length + boxSize)) := by
  have hlength : data.length = pre.length + (8 + tail.length) := by
    rw [hdata]
    simp [htype]
    omega
  obtain ⟨hsize, hname⟩ := header_slices htype hdata
  rw [walkBoxes, if_pos (by omega), hsize, hname]
  simp only [value_word (show n < 256 ^ 4 from hn)]

/-- The header of a box is read as it says. -/
theorem IsHeader.extent {header : List Byte} (hheader : IsHeader type content post header)
    (htype : type.length = 4) (hdata : data = pre ++ (header ++ content ++ post)) :
    ∃ n tail, n < 2 ^ 32 ∧ data = pre ++ (word 4 n ++ (type ++ tail)) ∧
      boxExtent data pre.length n =
        some (((header ++ content).length : ℤ), (header.length : ℤ)) := by
  cases hheader with
  | short hn =>
    refine ⟨8 + content.length, content ++ post, hn, ?_, ?_⟩
    · rw [hdata]
      simp only [List.append_assoc]
    · rw [boxExtent, if_neg (by omega), if_neg (by omega)]
      simp [htype]
      omega
  | wide hn =>
    have hshape : data =
        pre ++ (word 4 1 ++ (type ++ (word 8 (16 + content.length) ++ (content ++ post)))) := by
      rw [hdata]
      simp only [List.append_assoc]
    refine ⟨1, _, by decide, hshape, ?_⟩
    rw [Nat.cast_one, boxExtent_wide htype (by omega) hshape,
      wrap64_of_lt (by omega) (by omega)]
    simp [htype]
    omega
  | last =>
    have hshape : data = pre ++ (word 4 0 ++ (type ++ content)) := by
      rw [hdata]
      simp only [List.append_assoc, List.append_nil]
    refine ⟨0, content, by decide, hshape, ?_⟩
    rw [boxExtent, if_neg (by decide), if_pos (by rfl), hshape]
    simp [htype]

theorem IsHeader.length_pos {header : List Byte} (hheader : IsHeader type content post header) :
    0 < header.length := by
  cases hheader <;> simp

/-- A whole box. -/
theorem walkBoxes_whole {header : List Byte} (hheader : IsHeader type content post header)
    (htype : type.length = 4) (hdata : data = pre ++ (header ++ content ++ post))
    (hlen : data.length < 2 ^ 62) :
    walkBoxes (rounds + 1) data pre.length =
      if type = boxName "meta" then metaDims rounds content
      else walkBoxes rounds data (pre ++ (header ++ content)).length := by
  have hsum : (pre ++ (header ++ content)).length = pre.length + (header ++ content).length :=
    List.length_append
  have hlength : data.length = (pre ++ (header ++ content)).length + post.length := by
    rw [hdata, ← List.append_assoc, List.length_append]
  have hend : wrap64 ((pre.length : ℤ) + (header ++ content).length) =
      (pre ++ (header ++ content)).length := by
    rw [wrap64_of_lt (by omega) (by omega), hsum, Nat.cast_add]
  have hcontent : byteSlice data (pre.length + header.length)
      (pre ++ (header ++ content)).length = some content := by
    rw [hdata, List.append_assoc, ← List.append_assoc]
    exact byteSlice_middle (by simp) (by simp; omega)
  obtain ⟨n, tail, hn, hshape, hextent⟩ := hheader.extent htype hdata
  rw [walkBoxes_extent hn htype hshape, hextent]
  simp only [hend, hcontent]
  rw [if_neg]
  simp only [List.length_append] at hlength ⊢
  omega

/-- A size for which the walk breaks off. -/
theorem walkBoxes_stop (hn : n < 2 ^ 32) (htype : type.length = 4)
    (hdata : data = pre ++ (word 4 n ++ (type ++ tail)))
    (hstop : ∀ boxSize headerLen, boxExtent data pre.length n = some (boxSize, headerLen) →
      boxSize < headerLen ∨ (data.length : ℤ) < wrap64 (pre.length + boxSize)) :
    walkBoxes (rounds + 1) data pre.length = .done none := by
  rw [walkBoxes_extent hn htype hdata]
  cases hextent : boxExtent data pre.length n with
  | none => rfl
  | some extent => exact if_pos (hstop _ _ hextent)

theorem walkBoxes_short (h : rest.length < 8) :
    walkBoxes (rounds + 1) (pre ++ rest) pre.length = .done none := by
  rw [walkBoxes, if_neg]
  rw [List.length_append]
  push_cast
  omega

/-- A sum that wraps around: the slice of this round panics, or that of the next. -/
theorem walkBoxes_overrun {size : ℕ} (htype : type.length = 4) (hsize : size < 2 ^ 63)
    (hsum : 2 ^ 63 ≤ pre.length + size) (hlen : data.length < 2 ^ 62)
    (hdata : data = pre ++ (word 4 1 ++ (type ++ (word 8 size ++ rest)))) :
    walkBoxes (rounds + 2) data pre.length = .panic := by
  have hlength : data.length = pre.length + (16 + rest.length) := by
    rw [hdata]
    simp [htype]
    omega
  have hextent := boxExtent_wide htype (by omega) hdata
  rw [wrap64_of_lt (by omega) (by omega)] at hextent
  have hend : wrap64 (pre.length + (size : ℤ)) = pre.length + size - 2 ^ 64 :=
    wrap64_of_ge (by omega) (by omega)
  rw [walkBoxes_extent (by decide) htype hdata, Nat.cast_one, hextent]
  simp only [hend]
  rw [if_neg (by omega)]
  by_cases hmeta : type = boxName "meta"
  · rw [if_pos hmeta, byteSlice_of_neg (by omega)]
  · rw [if_neg hmeta, walkBoxes, if_pos (by omega), byteSlice_of_neg (by omega)]

/-- The walk passes over the boxes before `meta`. -/
theorem walkBoxes_skip (hpre : BeforeMeta pre rest) (hdata : data = pre ++ rest)
    (hlen : data.length < 2 ^ 62) :
    ∃ k ≤ pre.length, ∀ rounds,
      walkBoxes (rounds + k) data 0 = walkBoxes rounds data pre.length := by
  induction hpre with
  | nil => exact ⟨0, le_rfl, fun rounds => rfl⟩
  | box hpre htype hne hheader ih =>
    rw [List.append_assoc] at hdata
    obtain ⟨k, hk, hskip⟩ := ih hdata
    have hpos := hheader.length_pos
    refine ⟨k + 1, by simp only [List.length_append]; omega, fun rounds => ?_⟩
    rw [← Nat.add_assoc, Nat.add_right_comm, hskip (rounds + 1),
      walkBoxes_whole hheader htype hdata hlen, if_neg hne]

/-- The walk breaks off at a box, or its size overruns, or it is whole. -/
theorem header_cases (hn : n < 2 ^ 32) (htype : type.length = 4)
    (hdata : data = pre ++ (word 4 n ++ (type ++ tail))) (hlen : data.length < 2 ^ 62) :
    (∀ boxSize headerLen, boxExtent data pre.length n = some (boxSize, headerLen) →
        boxSize < headerLen ∨ (data.length : ℤ) < wrap64 (pre.length + boxSize)) ∨
      (n = 1 ∧ ∃ size rest, size < 2 ^ 63 ∧ 2 ^ 63 ≤ pre.length + size ∧
        tail = word 8 size ++ rest) ∨
      ∃ header content post, IsHeader type content post header ∧
        word 4 n ++ (type ++ tail) = header ++ content ++ post := by
  have hlength : data.length = pre.length + (8 + tail.length) := by
    rw [hdata]
    simp [htype]
    omega
  rcases Nat.lt_trichotomy n 1 with hsize | rfl | hsize
  · -- the box reaches to the end
    obtain rfl : n = 0 := by omega
    exact .inr (.inr ⟨_, tail, [], .last, by simp only [List.append_assoc, List.append_nil]⟩)
  · -- the size has 64 bits
    by_cases hwide : tail.length < 8
    · refine .inl fun boxSize headerLen h => ?_
      rw [boxExtent, if_pos (by rfl), if_neg (by omega)] at h
      cases h
    obtain ⟨size, tail, hsize, rfl⟩ := exists_word (not_lt.1 hwide)
    simp only [List.length_append, length_word] at hlength
    by_cases hsum : size < 2 ^ 63 ∧ 2 ^ 63 ≤ pre.length + size
    · exact .inr (.inl ⟨rfl, size, tail, hsum.1, hsum.2, rfl⟩)
    by_cases hwhole : 16 ≤ size ∧ size ≤ 16 + tail.length
    · obtain ⟨content, post, hcontent, rfl⟩ := exists_append (l := tail) (k := size - 16) (by omega)
      obtain rfl : size = 16 + content.length := by omega
      exact .inr (.inr ⟨_, content, post, .wide (by omega), by simp only [List.append_assoc]⟩)
    · refine .inl fun boxSize headerLen h => ?_
      rw [Nat.cast_one, boxExtent_wide htype hsize hdata] at h
      simp only [Option.some.injEq, Prod.mk.injEq] at h
      obtain ⟨rfl, rfl⟩ := h
      rcases lt_or_ge size (2 ^ 63) with hsmall | hlarge
      · rw [wrap64_of_lt (by omega) (by omega), wrap64_of_lt (by omega) (by omega)]
        omega
      · rw [wrap64_of_ge (by omega) (by omega)]
        omega
  · -- the size has 32 bits
    by_cases hwhole : 8 ≤ n ∧ n ≤ 8 + tail.length
    · obtain ⟨content, post, hcontent, rfl⟩ := exists_append (l := tail) (k := n - 8) (by omega)
      obtain rfl : n = 8 + content.length := by omega
      exact .inr (.inr ⟨_, content, post, .short hn, by simp only [List.append_assoc]⟩)
    · refine .inl fun boxSize headerLen h => ?_
      rw [boxExtent, if_neg (by omega), if_neg (by omega)] at h
      simp only [Option.some.injEq, Prod.mk.injEq] at h
      obtain ⟨rfl, rfl⟩ := h
      rw [wrap64_of_lt (by omega) (by omega)]
      omega

/-- **The walk ends**, in a panic if the boxes overrun. -/
theorem walkBoxes_ends (hpre : BeforeMeta pre rest) (hdata : data = pre ++ rest)
    (hlen : data.length < 2 ^ 62) (hrounds : rest.length + 1 < rounds) :
    (walkBoxes rounds data pre.length = .panic ∧ Overruns data) ∨
      Finds (Located data) (walkBoxes rounds data pre.length) := by
  induction rounds generalizing pre rest with
  | zero => omega
  | succ rounds ih =>
    by_cases hshort : rest.length < 8
    · exact .inr (finds_none (hdata ▸ walkBoxes_short hshort))
    obtain ⟨n, type, tail, hn, htype, rfl⟩ := exists_header (not_lt.1 hshort)
    rcases header_cases hn htype hdata hlen with
      hstop | ⟨rfl, size, rest, hsize, hsum, rfl⟩ | ⟨header, content, post, hheader, heq⟩
    · exact .inr (finds_none (walkBoxes_stop hn htype hdata hstop))
    · obtain ⟨r, rfl⟩ : ∃ r, rounds = r + 1 := ⟨rounds - 1, by omega⟩
      exact .inl ⟨walkBoxes_overrun htype hsize hsum hlen hdata,
        pre, type, rest, size, hpre, htype, hsize, hsum, hdata⟩
    · rw [heq] at hpre hdata hrounds
      have hpos := hheader.length_pos
      have hlength : data.length =
          pre.length + (header.length + content.length + post.length) := by
        rw [hdata]
        simp only [List.length_append]
      simp only [List.length_append] at hrounds
      rw [walkBoxes_whole hheader htype hdata hlen]
      by_cases hmeta : type = boxName "meta"
      · subst hmeta
        rw [if_pos rfl]
        exact .inr (metaDims_ends ⟨pre, header, post, hpre, hheader, hdata⟩ (by omega) (by omega))
      · rw [if_neg hmeta]
        exact ih (hpre.box htype hmeta hheader) (hdata.trans (List.append_assoc _ _ _).symm)
          (by omega)

end Walk

/-- **The walk ends.**  It panics exactly for the bytes that overrun, and else the dimensions it
finds are positive and located.  No slice in memory reaches the length that is excluded. -/
theorem heif_walk (data : List Byte) (rounds : ℕ) (hlen : data.length < 2 ^ 62)
    (hrounds : data.length + 1 < rounds) :
    (parseHEIFDimensions rounds data = .panic ↔ Overruns data) ∧
      (Overruns data ∨ Finds (Located data) (parseHEIFDimensions rounds data)) := by
  have hlong : Overruns data → 12 ≤ data.length := by
    rintro ⟨pre, type, rest, size, -, htype, -, -, rfl⟩
    simp [htype]
    omega
  unfold parseHEIFDimensions
  by_cases hshort : data.length < 12
  · rw [if_pos hshort]
    exact ⟨⟨nofun, fun h => absurd (hlong h) (by omega)⟩, .inr (finds_none rfl)⟩
  rw [if_neg hshort]
  have hends := walkBoxes_ends .nil (List.nil_append data).symm hlen hrounds
  rw [List.length_nil, Nat.cast_zero] at hends
  refine ⟨⟨fun hpanic => ?_, ?_⟩, hends.imp And.right id⟩
  · rcases hends with ⟨-, hover⟩ | ⟨dims, hdone, -⟩
    · exact hover
    · rw [hdone] at hpanic
      cases hpanic
  · rintro ⟨pre, type, rest, size, hpre, htype, hsize, hsum, hdata⟩
    obtain ⟨k, hk, hskip⟩ := walkBoxes_skip hpre hdata hlen
    have hlength : pre.length ≤ data.length := by
      rw [hdata, List.length_append]
      omega
    obtain ⟨r, rfl⟩ : ∃ r, rounds = r + 2 + k := ⟨rounds - k - 2, by omega⟩
    rw [hskip, walkBoxes_overrun htype hsize hsum hlen hdata]

/-- A file of 24 bytes, whose second box has the largest size there is. -/
def overrunning : List Byte :=
  box (boxName "ftyp") [] ++ (word 4 1 ++ (boxName "free" ++ word 8 (2 ^ 63 - 1)))

theorem heif_walk_panics : parseHEIFDimensions 26 overrunning = .panic := by
  refine (heif_walk overrunning 26 (by decide) (by decide)).1.2 ?_
  refine ⟨box (boxName "ftyp") [], boxName "free", [], 2 ^ 63 - 1, ?_, by decide, by decide,
    by decide, by rw [List.append_nil]; rfl⟩
  exact .box .nil (by decide) (by decide) (.short (by decide))

end NewApi
