/-
**Thinking as content.**

A channel may send what a model thinks as part of what it says, between two tags.  Each chunk of a
stream is rewritten on its own, with three flags; the opening tag goes with the first chunk that has
something thought, and the closing one before the first chunk after it that has something said.  A
chunk that has both keeps only what is thought, and a stream that ends while it thinks is not closed.

Main definitions:

* `NewApi.sendThinkToContent`, `NewApi.sendThinkStream` — what is sent for a chunk and for a stream;
* `NewApi.Piece`, `NewApi.Converted` — a text as tags and fragments, and what is to be shown of it;
* `NewApi.Unmixed`, `NewApi.Closed` — no chunk has both kinds, and something is said after something
  has been thought.

Main results:

* `NewApi.length_sentText` — what is sent is as long as the fragments and the tags, less what is
  lost;
* `NewApi.thinking_converted` — **every fragment is sent once, in order and between balanced tags,
  exactly if no chunk has both kinds and the thinking is followed by something said**;
* `NewApi.answer_lost` — a chunk with both kinds.
-/

import NewApi.Common

set_option autoImplicit false

namespace NewApi

/-! ### The conversion -/

/-- The texts of a choice. -/
structure ThinkDelta where
  content : Option String
  reasoningContent : Option String
  reasoning : Option String
deriving DecidableEq

def ThinkDelta.getContentString (delta : ThinkDelta) : String := delta.content.getD ""

def ThinkDelta.getReasoningContent (delta : ThinkDelta) : String :=
  (delta.reasoningContent.or delta.reasoning).getD ""

/-- A choice with a content only. -/
def ThinkDelta.said (text : String) : ThinkDelta := ⟨some text, none, none⟩

@[simp] theorem getContentString_said (text : String) :
    (ThinkDelta.said text).getContentString = text := rfl

/-- A chunk of a stream, by its choices. -/
structure ThinkChunk where
  choices : List ThinkDelta
deriving DecidableEq

structure ThinkingContentInfo where
  isFirstThinkingContent : Bool
  sendLastThinkingContent : Bool
  hasSentThinkingContent : Bool
deriving DecidableEq

def ThinkingContentInfo.start : ThinkingContentInfo := ⟨true, false, false⟩

def openingTag : String := "<think>\n"

def closingTag : String := "\n</think>\n"

/-- A choice as it is sent: what is thought replaces what is said. -/
def convertDelta (hasThinkingContent hasContent : Bool) (delta : ThinkDelta) : ThinkDelta :=
  if delta.getReasoningContent ≠ "" then .said delta.getReasoningContent
  else if !hasThinkingContent && !hasContent then
    { delta with
      reasoningContent := none
      reasoning := none }
  else delta

/-- What is sent for a chunk, if thinking is to be sent as content. -/
def sendThinkToContent (info : ThinkingContentInfo) (chunk : ThinkChunk) :
    ThinkingContentInfo × List ThinkChunk :=
  let hasThinkingContent := chunk.choices.any fun delta => delta.getReasoningContent ≠ ""
  let hasContent := chunk.choices.any fun delta => delta.getContentString ≠ ""
  let thinkingContent := String.join (chunk.choices.map ThinkDelta.getReasoningContent)
  if info.isFirstThinkingContent && hasThinkingContent then
    ({ info with
        isFirstThinkingContent := false
        hasSentThinkingContent := true },
      [⟨chunk.choices.map fun _ => .said (openingTag ++ thinkingContent)⟩])
  else if chunk.choices = [] then (info, [chunk])
  else
    let converted : ThinkChunk := ⟨chunk.choices.map (convertDelta hasThinkingContent hasContent)⟩
    -- the flag is set at the first choice
    if hasContent && !info.sendLastThinkingContent && info.hasSentThinkingContent then
      ({ info with sendLastThinkingContent := true },
        [⟨chunk.choices.map fun _ => .said closingTag⟩, converted])
    else (info, [converted])

/-- What is sent for a stream. -/
def sendThinkStream : ThinkingContentInfo → List ThinkChunk → List ThinkChunk
  | _, [] => []
  | info, chunk :: chunks =>
    (sendThinkToContent info chunk).2 ++
      sendThinkStream (sendThinkToContent info chunk).1 chunks

/-- The content of chunks. -/
def contentText (chunks : List ThinkChunk) : String :=
  String.join (chunks.flatMap fun chunk => chunk.choices.map ThinkDelta.getContentString)

/-! ### What is to be shown -/

/-- A text that is thought or said. -/
inductive Fragment where
  | reasoning (text : String)
  | content (text : String)
deriving DecidableEq

def Fragment.text : Fragment → String
  | .reasoning text => text
  | .content text => text

/-- The texts of a chunk. -/
def ThinkChunk.fragments (chunk : ThinkChunk) : List Fragment :=
  chunk.choices.flatMap fun delta =>
    (if delta.getReasoningContent ≠ "" then [Fragment.reasoning delta.getReasoningContent]
      else []) ++
      (if delta.getContentString ≠ "" then [Fragment.content delta.getContentString] else [])

/-- A part of what is sent. -/
inductive Piece where
  | opening
  | closing
  | given (fragment : Fragment)
deriving DecidableEq

def Piece.text : Piece → String
  | .opening => openingTag
  | .closing => closingTag
  | .given fragment => fragment.text

def Piece.given? : Piece → Option Fragment
  | .given fragment => some fragment
  | _ => none

@[simp] theorem given_opening (pieces : List Piece) :
    (.opening :: pieces).filterMap Piece.given? = pieces.filterMap Piece.given? := rfl

@[simp] theorem given_closing (pieces : List Piece) :
    (.closing :: pieces).filterMap Piece.given? = pieces.filterMap Piece.given? := rfl

@[simp] theorem given_given (fragment : Fragment) (pieces : List Piece) :
    (.given fragment :: pieces).filterMap Piece.given? =
      fragment :: pieces.filterMap Piece.given? := rfl

/-- **What is to be shown of a text**: it has every fragment once and in order, as many closing as
opening tags, an opening tag if something is thought, and the form that is expected where everything
is thought before anything is said. -/
structure Converted (fragments : List Fragment) (text : String) : Prop where
  pieces : ∃ pieces : List Piece, String.join (pieces.map Piece.text) = text ∧
    pieces.filterMap Piece.given? = fragments ∧
    pieces.count .opening = pieces.count .closing ∧
    (.opening ∈ pieces ↔ ∃ text, .reasoning text ∈ fragments)
  thoughtFirst : ∀ thought said : List String, thought ≠ [] →
    fragments = thought.map Fragment.reasoning ++ said.map Fragment.content →
      text = openingTag ++ String.join thought ++ closingTag ++ String.join said

def ThinkChunk.thinks (chunk : ThinkChunk) : Prop :=
  ∃ delta ∈ chunk.choices, delta.getReasoningContent ≠ ""

def ThinkChunk.speaks (chunk : ThinkChunk) : Prop :=
  ∃ delta ∈ chunk.choices, delta.getContentString ≠ ""

instance (chunk : ThinkChunk) : Decidable chunk.thinks :=
  inferInstanceAs (Decidable (∃ delta ∈ chunk.choices, _))

instance (chunk : ThinkChunk) : Decidable chunk.speaks :=
  inferInstanceAs (Decidable (∃ delta ∈ chunk.choices, _))

/-- Something is said after something has first been thought. -/
def Closed : List ThinkChunk → Prop
  | [] => True
  | chunk :: chunks => if chunk.thinks then ∃ later ∈ chunks, later.speaks else Closed chunks

instance closedDecidable : (chunks : List ThinkChunk) → Decidable (Closed chunks)
  | [] => isTrue trivial
  | chunk :: chunks =>
    have := closedDecidable chunks
    inferInstanceAs (Decidable (if chunk.thinks then _ else Closed chunks))

/-- A stream of one choice. -/
def OneChoice (chunks : List ThinkChunk) : Prop := ∀ chunk ∈ chunks, chunk.choices.length ≤ 1

/-- No chunk has both kinds. -/
def Unmixed (chunks : List ThinkChunk) : Prop := ∀ chunk ∈ chunks, ¬ (chunk.thinks ∧ chunk.speaks)

instance (chunks : List ThinkChunk) : Decidable (OneChoice chunks) :=
  inferInstanceAs (Decidable (∀ chunk ∈ chunks, _))

instance (chunks : List ThinkChunk) : Decidable (Unmixed chunks) :=
  inferInstanceAs (Decidable (∀ chunk ∈ chunks, _))

/-! ### A text with tags -/

inductive TagState where
  | before
  | thinking
  | after
deriving DecidableEq

/-- Fragments with an opening tag before the first that is thought, and a closing one before the
first after it that is said. -/
def tagged : TagState → List Fragment → List Piece
  | .before, [] => []
  | .before, .reasoning text :: fragments =>
    .opening :: .given (.reasoning text) :: tagged .thinking fragments
  | .before, .content text :: fragments => .given (.content text) :: tagged .before fragments
  | .thinking, [] => [.closing]
  | .thinking, .reasoning text :: fragments =>
    .given (.reasoning text) :: tagged .thinking fragments
  | .thinking, .content text :: fragments =>
    .closing :: .given (.content text) :: tagged .after fragments
  | .after, [] => []
  | .after, fragment :: fragments => .given fragment :: tagged .after fragments

attribute [local simp] tagged in
/-- Every fragment is there once, and in order. -/
theorem given_tagged (state : TagState) (fragments : List Fragment) :
    (tagged state fragments).filterMap Piece.given? = fragments := by
  induction fragments generalizing state with
  | nil => cases state <;> rfl
  | cons fragment fragments ih =>
    cases state with
    | before => cases fragment <;> simp [tagged, ih]
    | thinking => cases fragment <;> simp [tagged, ih]
    | after => simp [tagged, ih]

theorem count_opening_tagged (state : TagState) (fragments : List Fragment) :
    (tagged state fragments).count .opening + (if state = .thinking then 1 else 0) =
      (tagged state fragments).count .closing := by
  induction fragments generalizing state with
  | nil => cases state <;> decide
  | cons fragment fragments ih =>
    have hbefore := ih .before
    have hthinking := ih .thinking
    have hafter := ih .after
    simp only [reduceCtorEq, if_false, if_true] at hbefore hthinking hafter
    cases state with
    | before => cases fragment <;> simp [tagged] <;> omega
    | thinking => cases fragment <;> simp [tagged] <;> omega
    | after => simp [tagged]; omega

theorem opening_mem_tagged (fragments : List Fragment) :
    .opening ∈ tagged .before fragments ↔ ∃ text, .reasoning text ∈ fragments := by
  induction fragments with
  | nil => simp [tagged]
  | cons fragment fragments ih =>
    cases fragment with
    | reasoning text => simp [tagged]
    | content text => simp [tagged, ih]

theorem text_tagged_after (said : List String) :
    String.join ((tagged .after (said.map .content)).map Piece.text) = String.join said := by
  induction said with
  | nil => rfl
  | cons text said ih =>
    simp only [List.map_cons, tagged, String.join_cons, ih, Piece.text, Fragment.text]

theorem text_tagged_thinking (thought said : List String) :
    String.join ((tagged .thinking (thought.map Fragment.reasoning ++
      said.map Fragment.content)).map Piece.text) =
      String.join thought ++ closingTag ++ String.join said := by
  induction thought with
  | nil =>
    cases said with
    | nil => simp [tagged, Piece.text]
    | cons text said =>
      have hafter := text_tagged_after said
      simp only [List.map_nil, List.nil_append, List.map_cons, tagged, String.join_cons,
        hafter, Piece.text, Fragment.text, String.join_nil, String.empty_append]
  | cons text thought ih =>
    simp only [List.map_cons, List.cons_append, tagged, String.join_cons, ih, Piece.text,
      Fragment.text, String.append_assoc]

/-- Where everything is thought before anything is said, the text has the form that is expected. -/
theorem text_tagged_before {thought : List String} (said : List String) (hne : thought ≠ []) :
    String.join ((tagged .before (thought.map Fragment.reasoning ++
      said.map Fragment.content)).map Piece.text) =
      openingTag ++ String.join thought ++ closingTag ++ String.join said := by
  cases thought with
  | nil => exact absurd rfl hne
  | cons text thought =>
    have hthinking := text_tagged_thinking thought said
    simp only [List.map_cons, List.cons_append, tagged, String.join_cons, hthinking, Piece.text,
      Fragment.text, String.append_assoc]

/-- **A text with tags is what is to be shown.** -/
theorem converted_tagged (fragments : List Fragment) :
    Converted fragments (String.join ((tagged .before fragments).map Piece.text)) := by
  constructor
  · have hcount := count_opening_tagged .before fragments
    exact ⟨tagged .before fragments, rfl, given_tagged .before fragments, hcount,
      opening_mem_tagged fragments⟩
  · intro thought said hne hfragments
    rw [hfragments]
    exact text_tagged_before said hne

/-- The length of a text that is to be shown. -/
theorem length_pieces (pieces : List Piece) :
    (String.join (pieces.map Piece.text)).length =
      ((pieces.filterMap Piece.given?).map fun fragment => fragment.text.length).sum +
        8 * pieces.count .opening + 10 * pieces.count .closing := by
  induction pieces with
  | nil => rfl
  | cons piece pieces ih =>
    have hopening : openingTag.length = 8 := by decide
    have hclosing : closingTag.length = 10 := by decide
    rw [List.map_cons, String.join_cons, String.length_append, ih]
    cases piece with
    | opening =>
      simp [Piece.text, hopening]
      omega
    | closing =>
      simp [Piece.text, hclosing]
      omega
    | given fragment =>
      simp [Piece.text]
      omega

/-! ### What is sent for a chunk -/

/-- What is thought in a chunk. -/
def ThinkChunk.thought (chunk : ThinkChunk) : String :=
  String.join (chunk.choices.map ThinkDelta.getReasoningContent)

def ThinkChunk.said (chunk : ThinkChunk) : String :=
  String.join (chunk.choices.map ThinkDelta.getContentString)

/-- What is left of a chunk. -/
def ThinkChunk.kept (chunk : ThinkChunk) : String :=
  if chunk.thought ≠ "" then chunk.thought else chunk.said

/-- How much of it is lost. -/
def ThinkChunk.lost (chunk : ThinkChunk) : ℕ :=
  if chunk.thought ≠ "" then chunk.said.length else 0

/-- The flags while a stream thinks, and after it has been said so. -/
def ThinkingContentInfo.thinking : ThinkingContentInfo := ⟨false, false, true⟩

def ThinkingContentInfo.after : ThinkingContentInfo := ⟨false, true, true⟩

theorem contentText_append (sent sent' : List ThinkChunk) :
    contentText (sent ++ sent') = contentText sent ++ contentText sent' := by
  unfold contentText
  rw [List.flatMap_append, String.join_append]

section OneChoice

variable {chunk : ThinkChunk}

theorem choices_cases (hone : chunk.choices.length ≤ 1) :
    chunk = ⟨[]⟩ ∨ ∃ delta, chunk = ⟨[delta]⟩ := by
  obtain ⟨choices⟩ := chunk
  cases choices with
  | nil => exact .inl rfl
  | cons delta choices =>
    cases choices with
    | nil => exact .inr ⟨delta, rfl⟩
    | cons other choices => simp at hone

theorem thinks_iff (hone : chunk.choices.length ≤ 1) : chunk.thinks ↔ chunk.thought ≠ "" := by
  obtain rfl | ⟨delta, rfl⟩ := choices_cases hone
  · simp [ThinkChunk.thinks, ThinkChunk.thought]
  · simp [ThinkChunk.thinks, ThinkChunk.thought]

theorem speaks_iff (hone : chunk.choices.length ≤ 1) : chunk.speaks ↔ chunk.said ≠ "" := by
  obtain rfl | ⟨delta, rfl⟩ := choices_cases hone
  · simp [ThinkChunk.speaks, ThinkChunk.said]
  · simp [ThinkChunk.speaks, ThinkChunk.said]

theorem fragments_eq (hone : chunk.choices.length ≤ 1) :
    chunk.fragments = (if chunk.thought ≠ "" then [Fragment.reasoning chunk.thought] else []) ++
      (if chunk.said ≠ "" then [Fragment.content chunk.said] else []) := by
  obtain rfl | ⟨delta, rfl⟩ := choices_cases hone
  · simp [ThinkChunk.fragments, ThinkChunk.thought, ThinkChunk.said]
  · simp [ThinkChunk.fragments, ThinkChunk.thought, ThinkChunk.said]

/-- The first that is thought is sent with the opening tag. -/
theorem send_start_of_thought (hone : chunk.choices.length ≤ 1) (hthought : chunk.thought ≠ "") :
    (sendThinkToContent .start chunk).1 = .thinking ∧
      contentText (sendThinkToContent .start chunk).2 = openingTag ++ chunk.thought := by
  obtain rfl | ⟨delta, rfl⟩ := choices_cases hone
  · exact absurd rfl hthought
  · have hreasoning : delta.getReasoningContent ≠ "" := by
      simpa [ThinkChunk.thought] using hthought
    constructor
    · simp [sendThinkToContent, ThinkingContentInfo.start, hreasoning,
        ThinkingContentInfo.thinking]
    · simp [sendThinkToContent, ThinkingContentInfo.start, hreasoning, contentText,
        ThinkChunk.thought]

theorem send_start_of_none (hone : chunk.choices.length ≤ 1) (hthought : chunk.thought = "") :
    (sendThinkToContent .start chunk).1 = .start ∧
      contentText (sendThinkToContent .start chunk).2 = chunk.said := by
  obtain rfl | ⟨delta, rfl⟩ := choices_cases hone
  · exact ⟨rfl, rfl⟩
  · have hreasoning : delta.getReasoningContent = "" := by
      simpa [ThinkChunk.thought] using hthought
    constructor
    · simp [sendThinkToContent, ThinkingContentInfo.start, hreasoning]
    · simp [sendThinkToContent, ThinkingContentInfo.start, hreasoning, contentText,
        ThinkChunk.said, convertDelta]
      split <;> rfl

/-- The first that is said after it is sent after the closing tag. -/
theorem send_thinking_of_said (hone : chunk.choices.length ≤ 1) (hsaid : chunk.said ≠ "") :
    (sendThinkToContent .thinking chunk).1 = .after ∧
      contentText (sendThinkToContent .thinking chunk).2 = closingTag ++ chunk.kept := by
  obtain rfl | ⟨delta, rfl⟩ := choices_cases hone
  · exact absurd rfl hsaid
  · have hcontent : delta.getContentString ≠ "" := by
      simpa [ThinkChunk.said] using hsaid
    constructor
    · simp [sendThinkToContent, ThinkingContentInfo.thinking, hcontent,
        ThinkingContentInfo.after]
    · by_cases hreasoning : delta.getReasoningContent = ""
      · simp [sendThinkToContent, ThinkingContentInfo.thinking, hcontent, contentText,
          ThinkChunk.kept, ThinkChunk.thought, ThinkChunk.said, convertDelta, hreasoning]
      · simp [sendThinkToContent, ThinkingContentInfo.thinking, hcontent, contentText,
          ThinkChunk.kept, ThinkChunk.thought, convertDelta, hreasoning]

theorem send_thinking_of_none (hone : chunk.choices.length ≤ 1) (hsaid : chunk.said = "") :
    (sendThinkToContent .thinking chunk).1 = .thinking ∧
      contentText (sendThinkToContent .thinking chunk).2 = chunk.thought := by
  obtain rfl | ⟨delta, rfl⟩ := choices_cases hone
  · exact ⟨rfl, rfl⟩
  · have hcontent : delta.getContentString = "" := by
      simpa [ThinkChunk.said] using hsaid
    constructor
    · simp [sendThinkToContent, ThinkingContentInfo.thinking, hcontent]
    · by_cases hreasoning : delta.getReasoningContent = ""
      · simp [sendThinkToContent, ThinkingContentInfo.thinking, hcontent, contentText,
          ThinkChunk.thought, convertDelta, hreasoning]
        exact hcontent
      · simp [sendThinkToContent, ThinkingContentInfo.thinking, hcontent, contentText,
          ThinkChunk.thought, convertDelta, hreasoning]

theorem send_after (hone : chunk.choices.length ≤ 1) :
    (sendThinkToContent .after chunk).1 = .after ∧
      contentText (sendThinkToContent .after chunk).2 = chunk.kept := by
  obtain rfl | ⟨delta, rfl⟩ := choices_cases hone
  · exact ⟨rfl, rfl⟩
  · constructor
    · simp [sendThinkToContent, ThinkingContentInfo.after]
    · by_cases hreasoning : delta.getReasoningContent = ""
      · simp [sendThinkToContent, ThinkingContentInfo.after, contentText, ThinkChunk.kept,
          ThinkChunk.thought, ThinkChunk.said, convertDelta, hreasoning]
        split <;> rfl
      · simp [sendThinkToContent, ThinkingContentInfo.after, contentText, ThinkChunk.kept,
          ThinkChunk.thought, convertDelta, hreasoning]

end OneChoice

/-! ### What is sent for a stream -/

/-- The text that is sent for a stream. -/
def sentText (info : ThinkingContentInfo) (chunks : List ThinkChunk) : String :=
  contentText (sendThinkStream info chunks)

theorem sentText_cons (info : ThinkingContentInfo) (chunk : ThinkChunk)
    (chunks : List ThinkChunk) :
    sentText info (chunk :: chunks) = contentText (sendThinkToContent info chunk).2 ++
      sentText (sendThinkToContent info chunk).1 chunks := by
  unfold sentText
  rw [sendThinkStream, contentText_append]

/-- How long the fragments of a stream are, and how much of them is lost. -/
def totalLength (chunks : List ThinkChunk) : ℕ :=
  (chunks.map fun chunk => chunk.thought.length + chunk.said.length).sum

def totalLost (chunks : List ThinkChunk) : ℕ := (chunks.map ThinkChunk.lost).sum

theorem kept_add_lost (chunk : ThinkChunk) :
    chunk.kept.length + chunk.lost = chunk.thought.length + chunk.said.length := by
  unfold ThinkChunk.kept ThinkChunk.lost
  split
  · rfl
  · rename_i hnone
    rw [not_not.1 hnone]
    simp

theorem length_sentText_after {chunks : List ThinkChunk} (hone : OneChoice chunks) :
    (sentText .after chunks).length + totalLost chunks = totalLength chunks := by
  induction chunks with
  | nil => rfl
  | cons chunk chunks ih =>
    have hrest := ih fun chunk' h => hone chunk' (List.mem_cons_of_mem _ h)
    obtain ⟨hinfo, htext⟩ := send_after (hone chunk (List.mem_cons_self ..))
    have hkept := kept_add_lost chunk
    rw [sentText_cons, hinfo, htext, String.length_append]
    simp only [totalLost, totalLength, List.map_cons, List.sum_cons] at hrest ⊢
    omega

theorem length_sentText_thinking {chunks : List ThinkChunk} (hone : OneChoice chunks) :
    (sentText .thinking chunks).length + totalLost chunks =
      totalLength chunks + if ∃ chunk ∈ chunks, chunk.speaks then 10 else 0 := by
  induction chunks with
  | nil => rfl
  | cons chunk chunks ih =>
    have hone' : OneChoice chunks := fun chunk' h => hone chunk' (List.mem_cons_of_mem _ h)
    have hchunk := hone chunk (List.mem_cons_self ..)
    have hclosing : closingTag.length = 10 := by decide
    have hkept := kept_add_lost chunk
    by_cases hsaid : chunk.said = ""
    · obtain ⟨hinfo, htext⟩ := send_thinking_of_none hchunk hsaid
      have hspeaks : ¬ chunk.speaks := fun h => (speaks_iff hchunk).1 h hsaid
      have hrest := ih hone'
      have hlost : chunk.lost = 0 := by
        unfold ThinkChunk.lost
        rw [hsaid]
        simp
      rw [sentText_cons, hinfo, htext, String.length_append]
      simp only [totalLost, totalLength, List.map_cons, List.sum_cons, List.mem_cons,
        exists_eq_or_imp, hspeaks, false_or, hlost, hsaid] at hrest ⊢
      simp only [String.length_empty]
      omega
    · obtain ⟨hinfo, htext⟩ := send_thinking_of_said hchunk hsaid
      have hspeaks : chunk.speaks := (speaks_iff hchunk).2 hsaid
      have hrest := length_sentText_after hone'
      rw [sentText_cons, hinfo, htext, String.length_append, String.length_append, hclosing,
        if_pos ⟨chunk, List.mem_cons_self .., hspeaks⟩]
      simp only [totalLost, totalLength, List.map_cons, List.sum_cons] at hrest ⊢
      omega

/-- The length of the tags that are sent for a stream. -/
def tagLength : List ThinkChunk → ℕ
  | [] => 0
  | chunk :: chunks =>
    if chunk.thinks then 8 + if ∃ later ∈ chunks, later.speaks then 10 else 0
    else tagLength chunks

/-- **What is sent is as long as the fragments and the tags, less what is lost.** -/
theorem length_sentText {chunks : List ThinkChunk} (hone : OneChoice chunks) :
    (sentText .start chunks).length + totalLost chunks = totalLength chunks + tagLength chunks := by
  induction chunks with
  | nil => rfl
  | cons chunk chunks ih =>
    have hone' : OneChoice chunks := fun chunk' h => hone chunk' (List.mem_cons_of_mem _ h)
    have hchunk := hone chunk (List.mem_cons_self ..)
    have hopening : openingTag.length = 8 := by decide
    by_cases hthought : chunk.thought = ""
    · obtain ⟨hinfo, htext⟩ := send_start_of_none hchunk hthought
      have hthinks : ¬ chunk.thinks := fun h => (thinks_iff hchunk).1 h hthought
      have hrest := ih hone'
      have hlost : chunk.lost = 0 := if_neg (not_not.2 hthought)
      rw [sentText_cons, hinfo, htext, String.length_append, tagLength, if_neg hthinks]
      simp only [totalLost, totalLength, List.map_cons, List.sum_cons, hlost, hthought]
        at hrest ⊢
      simp only [String.length_empty]
      omega
    · obtain ⟨hinfo, htext⟩ := send_start_of_thought hchunk hthought
      have hthinks : chunk.thinks := (thinks_iff hchunk).2 hthought
      have hrest := length_sentText_thinking hone'
      have hlost : chunk.lost = chunk.said.length := if_pos hthought
      rw [sentText_cons, hinfo, htext, String.length_append, String.length_append, hopening,
        tagLength, if_pos hthinks]
      simp only [totalLost, totalLength, List.map_cons, List.sum_cons, hlost] at hrest ⊢
      omega

/-! ### The condition is enough -/

/-- The text that is to be shown for a stream. -/
def taggedText (state : TagState) (chunks : List ThinkChunk) : String :=
  String.join ((tagged state (chunks.flatMap ThinkChunk.fragments)).map Piece.text)

/-- The fragments of a chunk that has one kind only. -/
theorem fragments_of_unmixed {chunk : ThinkChunk} (hone : chunk.choices.length ≤ 1)
    (hunmixed : ¬ (chunk.thinks ∧ chunk.speaks)) :
    chunk.thought ≠ "" ∧ chunk.said = "" ∧ chunk.fragments = [.reasoning chunk.thought] ∨
      chunk.thought = "" ∧ chunk.said ≠ "" ∧ chunk.fragments = [.content chunk.said] ∨
      chunk.thought = "" ∧ chunk.said = "" ∧ chunk.fragments = [] := by
  rw [thinks_iff hone, speaks_iff hone] at hunmixed
  rw [fragments_eq hone]
  by_cases hthought : chunk.thought = ""
  · by_cases hsaid : chunk.said = ""
    · simp [hthought, hsaid]
    · simp [hthought, hsaid]
  · have hsaid : chunk.said = "" := by
      by_contra hne
      exact hunmixed ⟨hthought, hne⟩
    simp [hthought, hsaid]

theorem sentText_after_eq {chunks : List ThinkChunk} (hone : OneChoice chunks)
    (hunmixed : Unmixed chunks) : sentText .after chunks = taggedText .after chunks := by
  induction chunks with
  | nil => rfl
  | cons chunk chunks ih =>
    have hrest := ih (fun chunk' h => hone chunk' (List.mem_cons_of_mem _ h))
      fun chunk' h => hunmixed chunk' (List.mem_cons_of_mem _ h)
    have hchunk := hone chunk (List.mem_cons_self ..)
    obtain ⟨hinfo, htext⟩ := send_after hchunk
    rw [sentText_cons, hinfo, htext, hrest]
    unfold taggedText
    rw [List.flatMap_cons]
    obtain ⟨hthought, -, hfragments⟩ | ⟨hthought, -, hfragments⟩ |
        ⟨hthought, hsaid, hfragments⟩ :=
      fragments_of_unmixed hchunk (hunmixed chunk (List.mem_cons_self ..))
    · simp [hfragments, tagged, ThinkChunk.kept, hthought, Piece.text, Fragment.text]
    · simp [hfragments, tagged, ThinkChunk.kept, hthought, Piece.text, Fragment.text]
    · simp [hfragments, ThinkChunk.kept, hthought, hsaid]

theorem sentText_thinking_eq {chunks : List ThinkChunk} (hone : OneChoice chunks)
    (hunmixed : Unmixed chunks) (hspeaks : ∃ chunk ∈ chunks, chunk.speaks) :
    sentText .thinking chunks = taggedText .thinking chunks := by
  induction chunks with
  | nil => simp at hspeaks
  | cons chunk chunks ih =>
    have hone' : OneChoice chunks := fun chunk' h => hone chunk' (List.mem_cons_of_mem _ h)
    have hunmixed' : Unmixed chunks := fun chunk' h => hunmixed chunk' (List.mem_cons_of_mem _ h)
    have hchunk := hone chunk (List.mem_cons_self ..)
    have hlater : chunk.said = "" → ∃ chunk ∈ chunks, chunk.speaks := by
      intro hsaid
      obtain ⟨later, hmem, hlater⟩ := hspeaks
      obtain rfl | hmem := List.mem_cons.1 hmem
      · exact absurd hsaid ((speaks_iff hchunk).1 hlater)
      · exact ⟨later, hmem, hlater⟩
    rw [sentText_cons]
    unfold taggedText
    rw [List.flatMap_cons]
    obtain ⟨hthought, hsaid, hfragments⟩ | ⟨hthought, hsaid, hfragments⟩ |
        ⟨hthought, hsaid, hfragments⟩ :=
      fragments_of_unmixed hchunk (hunmixed chunk (List.mem_cons_self ..))
    · obtain ⟨hinfo, htext⟩ := send_thinking_of_none hchunk hsaid
      rw [hinfo, htext, ih hone' hunmixed' (hlater hsaid)]
      simp [hfragments, tagged, taggedText, Piece.text, Fragment.text]
    · obtain ⟨hinfo, htext⟩ := send_thinking_of_said hchunk hsaid
      rw [hinfo, htext, sentText_after_eq hone' hunmixed']
      simp [hfragments, tagged, taggedText, Piece.text, Fragment.text, ThinkChunk.kept, hthought,
        String.append_assoc]
    · obtain ⟨hinfo, htext⟩ := send_thinking_of_none hchunk hsaid
      rw [hinfo, htext, ih hone' hunmixed' (hlater hsaid)]
      simp [hfragments, taggedText, hthought]

theorem sentText_start_eq {chunks : List ThinkChunk} (hone : OneChoice chunks)
    (hunmixed : Unmixed chunks) (hclosed : Closed chunks) :
    sentText .start chunks = taggedText .before chunks := by
  induction chunks with
  | nil => rfl
  | cons chunk chunks ih =>
    have hone' : OneChoice chunks := fun chunk' h => hone chunk' (List.mem_cons_of_mem _ h)
    have hunmixed' : Unmixed chunks := fun chunk' h => hunmixed chunk' (List.mem_cons_of_mem _ h)
    have hchunk := hone chunk (List.mem_cons_self ..)
    rw [Closed] at hclosed
    rw [sentText_cons]
    unfold taggedText
    rw [List.flatMap_cons]
    obtain ⟨hthought, hsaid, hfragments⟩ | ⟨hthought, hsaid, hfragments⟩ |
        ⟨hthought, hsaid, hfragments⟩ :=
      fragments_of_unmixed hchunk (hunmixed chunk (List.mem_cons_self ..))
    · obtain ⟨hinfo, htext⟩ := send_start_of_thought hchunk hthought
      rw [if_pos ((thinks_iff hchunk).2 hthought)] at hclosed
      rw [hinfo, htext, sentText_thinking_eq hone' hunmixed' hclosed]
      simp [hfragments, tagged, taggedText, Piece.text, Fragment.text, String.append_assoc]
    · obtain ⟨hinfo, htext⟩ := send_start_of_none hchunk hthought
      rw [if_neg fun h => (thinks_iff hchunk).1 h hthought] at hclosed
      rw [hinfo, htext, ih hone' hunmixed' hclosed]
      simp [hfragments, tagged, taggedText, Piece.text, Fragment.text]
    · obtain ⟨hinfo, htext⟩ := send_start_of_none hchunk hthought
      rw [if_neg fun h => (thinks_iff hchunk).1 h hthought] at hclosed
      rw [hinfo, htext, ih hone' hunmixed' hclosed]
      simp [hfragments, taggedText, hsaid]

/-! ### The condition is necessary -/

theorem sum_length_fragments {chunks : List ThinkChunk} (hone : OneChoice chunks) :
    ((chunks.flatMap ThinkChunk.fragments).map fun fragment => fragment.text.length).sum =
      totalLength chunks := by
  induction chunks with
  | nil => rfl
  | cons chunk chunks ih =>
    have hrest := ih fun chunk' h => hone chunk' (List.mem_cons_of_mem _ h)
    rw [List.flatMap_cons, List.map_append, List.sum_append, hrest,
      fragments_eq (hone chunk (List.mem_cons_self ..))]
    by_cases hthought : chunk.thought = "" <;> by_cases hsaid : chunk.said = "" <;>
      simp [totalLength, hthought, hsaid, Fragment.text]

theorem reasoning_mem_fragments {chunks : List ThinkChunk} (hone : OneChoice chunks) :
    (∃ text, .reasoning text ∈ chunks.flatMap ThinkChunk.fragments) ↔
      ∃ chunk ∈ chunks, chunk.thinks := by
  constructor
  · rintro ⟨text, hmem⟩
    obtain ⟨chunk, hchunk, hmem⟩ := List.mem_flatMap.1 hmem
    refine ⟨chunk, hchunk, (thinks_iff (hone chunk hchunk)).2 fun hnone => ?_⟩
    rw [fragments_eq (hone chunk hchunk), hnone] at hmem
    by_cases hsaid : chunk.said = "" <;> simp [hsaid] at hmem
  · rintro ⟨chunk, hchunk, hthinks⟩
    refine ⟨chunk.thought, List.mem_flatMap.2 ⟨chunk, hchunk, ?_⟩⟩
    rw [fragments_eq (hone chunk hchunk), if_pos ((thinks_iff (hone chunk hchunk)).1 hthinks)]
    simp

theorem tagLength_le (chunks : List ThinkChunk) : tagLength chunks ≤ 18 := by
  induction chunks with
  | nil => decide
  | cons chunk chunks ih =>
    rw [tagLength]
    split
    · split <;> decide
    · exact ih

theorem closed_of_tagLength {chunks : List ThinkChunk} (h : tagLength chunks = 18) :
    Closed chunks := by
  induction chunks with
  | nil => trivial
  | cons chunk chunks ih =>
    rw [tagLength] at h
    rw [Closed]
    by_cases hthinks : chunk.thinks
    · rw [if_pos hthinks] at h ⊢
      by_contra hnone
      rw [if_neg hnone] at h
      omega
    · rw [if_neg hthinks] at h ⊢
      exact ih h

theorem closed_of_not_thinks {chunks : List ThinkChunk} (h : ∀ chunk ∈ chunks, ¬ chunk.thinks) :
    Closed chunks := by
  induction chunks with
  | nil => trivial
  | cons chunk chunks ih =>
    rw [Closed, if_neg (h chunk (List.mem_cons_self ..))]
    exact ih fun chunk' hmem => h chunk' (List.mem_cons_of_mem _ hmem)

/-- What has both kinds has lost something. -/
theorem unmixed_of_totalLost {chunks : List ThinkChunk} (hone : OneChoice chunks)
    (h : totalLost chunks = 0) : Unmixed chunks := by
  intro chunk hchunk hmixed
  have hzero : chunk.lost = 0 :=
    List.sum_eq_zero_iff.1 h _ (List.mem_map.2 ⟨chunk, hchunk, rfl⟩)
  rw [thinks_iff (hone chunk hchunk), speaks_iff (hone chunk hchunk)] at hmixed
  rw [ThinkChunk.lost, if_pos hmixed.1, String.length_eq_zero_iff] at hzero
  exact hmixed.2 hzero

/-- **For every stream of one choice: what is sent has every fragment once, in order and between
balanced tags, exactly if no chunk has both kinds and what is first thought is followed by something
said.** -/
theorem thinking_converted {chunks : List ThinkChunk} (hone : OneChoice chunks) :
    Converted (chunks.flatMap ThinkChunk.fragments)
        (contentText (sendThinkStream .start chunks)) ↔
      Unmixed chunks ∧ Closed chunks := by
  constructor
  · rintro ⟨⟨pieces, htext, hgiven, hcount, hopening⟩, -⟩
    by_cases hthinks : ∃ chunk ∈ chunks, chunk.thinks
    · have hmem := hopening.2 ((reasoning_mem_fragments hone).2 hthinks)
      have hpositive : 0 < pieces.count .opening := List.count_pos_iff.2 hmem
      have hlength := length_pieces pieces
      have hsent : (contentText (sendThinkStream .start chunks)).length + totalLost chunks =
          totalLength chunks + tagLength chunks := length_sentText hone
      have htags := tagLength_le chunks
      rw [htext, hgiven, sum_length_fragments hone] at hlength
      have hlost : totalLost chunks = 0 := by omega
      have hclosed : tagLength chunks = 18 := by omega
      exact ⟨unmixed_of_totalLost hone hlost, closed_of_tagLength hclosed⟩
    · push Not at hthinks
      exact ⟨fun chunk hchunk hmixed => hthinks chunk hchunk hmixed.1,
        closed_of_not_thinks hthinks⟩
  · rintro ⟨hunmixed, hclosed⟩
    have heq : contentText (sendThinkStream .start chunks) = taggedText .before chunks :=
      sentText_start_eq hone hunmixed hclosed
    rw [heq]
    exact converted_tagged _

/-- A chunk that has something thought, and something said. -/
def thinkChunk (reasoning content : Option String) : ThinkChunk := ⟨[⟨content, reasoning, none⟩]⟩

/-- Two pieces of thinking and one answer. -/
theorem thinking_converted_answered :
    Converted [.reasoning "2 + 2", .reasoning " is 4", .content "Four."]
      "<think>\n2 + 2 is 4\n</think>\nFour." := by
  have hone : OneChoice [thinkChunk (some "2 + 2") none, thinkChunk (some " is 4") none,
      thinkChunk none (some "Four.")] := by decide
  exact (thinking_converted hone).2 ⟨by decide, by decide⟩

/-- **What is said in a chunk with both kinds is lost**, and so is the closing tag of a stream that
ends with it. -/
theorem answer_lost :
    contentText (sendThinkStream .start [thinkChunk (some "2 + 2 is 4") (some "Four.")]) =
        "<think>\n2 + 2 is 4" ∧
      ¬ Converted [.reasoning "2 + 2 is 4", .content "Four."]
        (contentText (sendThinkStream .start
          [thinkChunk (some "2 + 2 is 4") (some "Four.")])) := by
  have htext : contentText (sendThinkStream .start
      [thinkChunk (some "2 + 2 is 4") (some "Four.")]) = "<think>\n2 + 2 is 4" := by decide
  refine ⟨htext, fun h => ?_⟩
  have hexpected := h.thoughtFirst ["2 + 2 is 4"] ["Four."] (by simp) rfl
  rw [htext] at hexpected
  revert hexpected
  decide

end NewApi
