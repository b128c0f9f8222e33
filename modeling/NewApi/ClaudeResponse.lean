/-
**An answer of a Claude upstream for an OpenAI client.**

The upstream answers with a whole message or with a stream of events that encodes one: a start, for
each content block its start, its pieces and its stop, and at the end the stop reason.  The
conversion of a stream turns each event into a chunk, and a client that puts the chunks together has
all texts one after the other.  The conversion of a whole message goes through the blocks and keeps
the last text and the last piece of thinking only.  So the two agree on the messages that have one of
each.

Main definitions:

* `NewApi.streamResponseClaude2OpenAI`, `NewApi.responseClaude2OpenAI` — the conversions;
* `NewApi.CutBlock`, `NewApi.eventStream` — a message together with a stream that encodes it;
* `NewApi.Reassembles` — a client gets the same from both;
* `NewApi.OneText`, `NewApi.OneThinking` — the messages on which they agree.

Main results:

* `NewApi.claude_stream_agrees` — **the conversions agree on exactly these messages**;
* `NewApi.two_texts_drift` — a message with two texts.
-/

import NewApi.ClaudeContent

set_option autoImplicit false

namespace NewApi

/-! ### Messages and events of the upstream -/

/-- The server's tools that were used. -/
structure ClaudeServerToolUse where
  webSearchRequests : ℤ
deriving DecidableEq, Repr

/-- The usage that the upstream reports. -/
structure ClaudeMessageUsage extends ClaudeUsage where
  serverToolUse : Option ClaudeServerToolUse := none
deriving DecidableEq, Repr

/-- A content block, with JSON values of type `J`. -/
inductive ClaudeMediaMessage (J : Type*) where
  | text (text : String)
  | thinking (thinking : String)
  | toolUse (id name : String) (input : J)

/-- A content block as it is started. -/
inductive StartedBlock where
  | text (text : String)
  | thinking
  | toolUse (id name : String)
deriving DecidableEq, Repr

inductive BlockDelta where
  | textDelta (text : String)
  | thinkingDelta (thinking : String)
  | signatureDelta
  | inputJsonDelta (partialJson : String)
deriving DecidableEq, Repr

/-- An event of the upstream. -/
inductive ClaudeStreamResponse where
  | messageStart (id model : String) (usage : Option ClaudeMessageUsage)
  | contentBlockStart (index : ℤ) (block : StartedBlock)
  | contentBlockDelta (index : ℤ) (delta : BlockDelta)
  | contentBlockStop (index : ℤ)
  | messageDelta (stopReason : Option String) (usage : Option ClaudeMessageUsage)
  | messageStop
  | ping
deriving DecidableEq, Repr

/-! ### The conversions -/

def claudeStopReasonToOpenAIFinishReason (stopReason : String) : String :=
  let lower := toLower stopReason
  if lower = "stop_sequence" then "stop"
  else if lower = "end_turn" then "stop"
  else if lower = "max_tokens" then "length"
  else if lower = "tool_use" then "tool_calls"
  else if lower = "refusal" then "content_filter"
  else stopReason

def stopReasonClaude2OpenAI (reason : String) : String := claudeStopReasonToOpenAIFinishReason reason

/-- A chunk with one choice. -/
def oneChoice (id model : String) (delta : ChatCompletionsStreamResponseChoiceDelta)
    (finishReason : Option String) : ChatCompletionsStreamResponse where
  id := id
  model := model
  choices := [⟨delta, finishReason⟩]
  usage := none

/-- The chunk for an event, if there is one. -/
def streamResponseClaude2OpenAI : ClaudeStreamResponse → Option ChatCompletionsStreamResponse
  | .messageStart id model _ => some (oneChoice id model ⟨some "", none, none, []⟩ none)
  | .contentBlockStart index block =>
    match block with
    | .text text => some (oneChoice "" "" ⟨some text, none, none, []⟩ none)
    | .thinking => some (oneChoice "" "" ⟨none, none, none, []⟩ none)
    | .toolUse id name =>
      some (oneChoice "" "" ⟨none, none, none, [⟨some index, id, name, ""⟩]⟩ none)
  | .contentBlockDelta index delta =>
    match delta with
    | .textDelta text => some (oneChoice "" "" ⟨some text, none, none, []⟩ none)
    | .thinkingDelta thinking => some (oneChoice "" "" ⟨none, some thinking, none, []⟩ none)
    | .signatureDelta => some (oneChoice "" "" ⟨none, some "\n", none, []⟩ none)
    | .inputJsonDelta partialJson =>
      some (oneChoice "" "" ⟨none, none, none, [⟨some index, "", "", partialJson⟩]⟩ none)
  | .messageDelta stopReason _ =>
    let finishReason := stopReason.bind fun stopReason =>
      let finishReason := stopReasonClaude2OpenAI stopReason
      if finishReason ≠ "null" then some finishReason else none
    some (oneChoice "" "" ⟨none, none, none, []⟩ finishReason)
  | .contentBlockStop _ | .messageStop | .ping => none

/-- The answer to a request that is not streamed. -/
structure OpenAITextResponse where
  content : String
  reasoningContent : Option String
  toolCalls : List ToolCallRequest
  finishReason : String
deriving DecidableEq, Repr

section Whole

variable {J : Type*} (marshal : J → String)

def ClaudeMediaMessage.getText : ClaudeMediaMessage J → String
  | .text s => s
  | _ => ""

def ClaudeMediaMessage.getThinking : ClaudeMediaMessage J → String
  | .thinking s => s
  | _ => ""

/-- The text, the thinking and the tool calls after a block. -/
def readBlock (read : String × String × List ToolCallRequest) :
    ClaudeMediaMessage J → String × String × List ToolCallRequest
  | .toolUse id name input => (read.1, read.2.1, read.2.2 ++ [⟨id, name, marshal input⟩])
  | .thinking thinking => (read.1, thinking, read.2.2)
  | .text text => (text, read.2.1, read.2.2)

/-- The answer for a message with its content and its stop reason. -/
def responseClaude2OpenAI (content : List (ClaudeMediaMessage J)) (stopReason : String) :
    OpenAITextResponse :=
  let responseText := (content.head?.map ClaudeMediaMessage.getText).getD ""
  let responseThinking := (content.head?.map ClaudeMediaMessage.getThinking).getD ""
  let (responseText, thinkingContent, tools) :=
    content.foldl (readBlock marshal) (responseText, "", [])
  { content := responseText
    reasoningContent :=
      if thinkingContent ≠ "" then some thinkingContent
      else if responseThinking ≠ "" then some responseThinking
      else none
    toolCalls := tools
    finishReason := stopReasonClaude2OpenAI stopReason }

end Whole

/-! ### A message and its events -/

section Cut

variable {J : Type*}

/-- A content block that is cut into pieces.  Among the pieces of a thinking block are its
signatures. -/
inductive CutBlock (J : Type*) where
  | text (start : String) (pieces : List String)
  | thinking (pieces : List (Option String))
  | toolUse (id name : String) (input : J) (pieces : List String)

/-- The block that is cut. -/
def CutBlock.block : CutBlock J → ClaudeMediaMessage J
  | .text start pieces => .text (start ++ String.join pieces)
  | .thinking pieces => .thinking (String.join (pieces.map fun piece => piece.getD ""))
  | .toolUse id name input _ => .toolUse id name input

/-- The pieces of a tool call are JSON of its input. -/
def CutBlock.WellCut (parse : String → Option J) : CutBlock J → Prop
  | .toolUse _ _ input pieces => parse (String.join pieces) = some input
  | _ => True

/-- The piece of a thinking block. -/
def thinkingPiece : Option String → BlockDelta
  | some thinking => .thinkingDelta thinking
  | none => .signatureDelta

/-- The events of a block. -/
def CutBlock.events (index : ℤ) : CutBlock J → List ClaudeStreamResponse
  | .text start pieces =>
    .contentBlockStart index (.text start) ::
      (pieces.map fun piece =>
        ClaudeStreamResponse.contentBlockDelta index (.textDelta piece)) ++
      [ClaudeStreamResponse.contentBlockStop index]
  | .thinking pieces =>
    .contentBlockStart index .thinking ::
      (pieces.map fun piece =>
        ClaudeStreamResponse.contentBlockDelta index (thinkingPiece piece)) ++
      [ClaudeStreamResponse.contentBlockStop index]
  | .toolUse id name _ pieces =>
    .contentBlockStart index (.toolUse id name) ::
      (pieces.map fun piece =>
        ClaudeStreamResponse.contentBlockDelta index (.inputJsonDelta piece)) ++
      [ClaudeStreamResponse.contentBlockStop index]

/-- The events of the blocks from the given index on. -/
def blockEvents : ℤ → List (CutBlock J) → List ClaudeStreamResponse
  | _, [] => []
  | index, cut :: cuts => cut.events index ++ blockEvents (index + 1) cuts

/-- The events of a message. -/
def eventStream (id model : String) (usage finalUsage : Option ClaudeMessageUsage)
    (cuts : List (CutBlock J)) (stopReason : String) : List ClaudeStreamResponse :=
  .messageStart id model usage ::
    (blockEvents 0 cuts ++ [ClaudeStreamResponse.messageDelta (some stopReason) finalUsage,
      ClaudeStreamResponse.messageStop])

/-- The chunks that a client gets. -/
def chunksOf (es : List ClaudeStreamResponse) : List ChatCompletionsStreamResponse :=
  es.filterMap streamResponseClaude2OpenAI

/-- An event that is no signature. -/
def ClaudeStreamResponse.unsigned : ClaudeStreamResponse → Bool
  | .contentBlockDelta _ .signatureDelta => false
  | _ => true

/-- A tool call with the value of its arguments. -/
def ToolCallRequest.parsed (parse : String → Option J) (toolCall : ToolCallRequest) :
    String × String × Option J :=
  (toolCall.id, toolCall.name, parse toolCall.arguments)

/-- A client that puts the chunks together has the answer: its text, its reasoning apart from the
signatures, its tool calls and its finish reason. -/
structure Reassembles (parse : String → Option J) (es : List ClaudeStreamResponse)
    (answer : OpenAITextResponse) : Prop where
  content : contents (chunksOf es) = answer.content
  reasoning : reasonings (chunksOf (es.filter ClaudeStreamResponse.unsigned)) =
    answer.reasoningContent.getD ""
  toolCalls : (Keyed.values (toolCalls (chunksOf es))).map (ToolCallRequest.parsed parse) =
    answer.toolCalls.map (ToolCallRequest.parsed parse)
  finishReason : lastFinish "" (chunksOf es) = answer.finishReason

/-! ### The messages on which the conversions agree -/

/-- The texts of a message. -/
def texts (content : List (ClaudeMediaMessage J)) : List String :=
  content.filterMap fun
    | .text text => some text
    | _ => none

/-- The thinking of a message. -/
def thinkings (content : List (ClaudeMediaMessage J)) : List String :=
  content.filterMap fun
    | .thinking thinking => some thinking
    | _ => none

/-- No text comes before the last one. -/
def OneText (content : List (ClaudeMediaMessage J)) : Prop :=
  ∀ text ∈ (texts content).dropLast, text = ""

/-- No thinking comes before the last, or if the last is empty, none after the first block. -/
def OneThinking (content : List (ClaudeMediaMessage J)) : Prop :=
  if (thinkings content).getLast?.getD "" ≠ "" then
    ∀ thinking ∈ (thinkings content).dropLast, thinking = ""
  else ∀ thinking ∈ thinkings content.tail, thinking = ""

/-! ### The whole message -/

/-- The tool calls of a message. -/
def calls (marshal : J → String) (content : List (ClaudeMediaMessage J)) : List ToolCallRequest :=
  content.filterMap fun
    | .toolUse id name input => some ⟨id, name, marshal input⟩
    | _ => none

theorem getLast?_cons_getD (a b : String) (xs : List String) :
    (a :: xs).getLast?.getD b = xs.getLast?.getD a := by
  cases xs with
  | nil => rfl
  | cons x xs => rw [List.getLast?_cons_cons, List.getLast?_cons, Option.getD_some, Option.getD_some]

/-- What the loop over the blocks leaves: the last text, the last thinking and all tool calls. -/
theorem foldl_readBlock (marshal : J → String) (content : List (ClaudeMediaMessage J))
    (text thinking : String) (tools : List ToolCallRequest) :
    content.foldl (readBlock marshal) (text, thinking, tools) =
      ((texts content).getLast?.getD text, (thinkings content).getLast?.getD thinking,
        tools ++ calls marshal content) := by
  induction content generalizing text thinking tools with
  | nil => simp [texts, thinkings, calls]
  | cons block rest ih =>
    rw [List.foldl_cons]
    cases block with
    | text s =>
      have htexts : texts (.text s :: rest) = s :: texts rest := rfl
      rw [readBlock, ih, htexts, getLast?_cons_getD]
      rfl
    | thinking s =>
      have hthinkings : thinkings (.thinking s :: rest) = s :: thinkings rest := rfl
      rw [readBlock, ih, hthinkings, getLast?_cons_getD]
      rfl
    | toolUse id name input =>
      rw [readBlock, ih, List.append_assoc]
      rfl

/-- The text of the answer is the last one of the message. -/
theorem response_content (marshal : J → String) (content : List (ClaudeMediaMessage J))
    (stopReason : String) :
    (responseClaude2OpenAI marshal content stopReason).content =
      (texts content).getLast?.getD "" := by
  simp only [responseClaude2OpenAI, foldl_readBlock]
  cases content with
  | nil => rfl
  | cons block rest =>
    cases block with
    | text s =>
      have htexts : texts (.text s :: rest) = s :: texts rest := rfl
      rw [htexts, getLast?_cons_getD, getLast?_cons_getD]
    | thinking s => rfl
    | toolUse id name input => rfl

/-- The reasoning of the answer is the last of the message, or if that is empty, its first block. -/
theorem response_reasoning (marshal : J → String) (content : List (ClaudeMediaMessage J))
    (stopReason : String) :
    (responseClaude2OpenAI marshal content stopReason).reasoningContent.getD "" =
      if (thinkings content).getLast?.getD "" ≠ "" then (thinkings content).getLast?.getD ""
      else (content.head?.map ClaudeMediaMessage.getThinking).getD "" := by
  simp only [responseClaude2OpenAI, foldl_readBlock]
  split
  · rfl
  · split
    · rfl
    · rename_i hempty
      exact (not_not.1 hempty).symm

theorem response_toolCalls (marshal : J → String) (content : List (ClaudeMediaMessage J))
    (stopReason : String) :
    (responseClaude2OpenAI marshal content stopReason).toolCalls = calls marshal content := by
  simp only [responseClaude2OpenAI, foldl_readBlock, List.nil_append]

/-! ### Joined texts -/

theorem join_eq_empty {xs : List String} : String.join xs = "" ↔ ∀ x ∈ xs, x = "" := by
  induction xs with
  | nil => simp
  | cons x xs ih => rw [String.join_cons, String.append_eq_empty_iff, ih, List.forall_mem_cons]

/-- Texts that come to the last one of them. -/
theorem join_eq_last {xs : List String} :
    String.join xs = xs.getLast?.getD "" ↔ ∀ x ∈ xs.dropLast, x = "" := by
  rcases List.eq_nil_or_concat' xs with rfl | ⟨front, last, rfl⟩
  · simp
  · rw [List.dropLast_concat, List.getLast?_concat, Option.getD_some, String.join_append,
      String.join_cons, String.join_nil, String.append_empty, ← join_eq_empty]
    constructor
    · intro heq
      have hlength := congrArg String.length heq
      rw [String.length_append] at hlength
      exact String.length_eq_zero_iff.1 (by omega)
    · intro hempty
      rw [hempty, String.empty_append]

/-! ### The stream -/

/-- What is read of the chunk of an event. -/
def readChunk (g : ChatCompletionsStreamResponseChoiceDelta → String) (e : ClaudeStreamResponse) :
    String :=
  ((streamResponseClaude2OpenAI e).map fun chunk => g chunk.delta).getD ""

/-- The chunks of events, read one after the other. -/
theorem join_chunksOf (g : ChatCompletionsStreamResponseChoiceDelta → String)
    (es : List ClaudeStreamResponse) :
    String.join ((chunksOf es).map fun chunk => g chunk.delta) =
      String.join (es.map (readChunk g)) := by
  induction es with
  | nil => rfl
  | cons e es ih =>
    rw [List.map_cons, String.join_cons, ← ih, chunksOf, List.filterMap_cons, readChunk]
    cases streamResponseClaude2OpenAI e with
    | none => rw [Option.map_none, Option.getD_none, String.empty_append]; rfl
    | some chunk => rw [List.map_cons, String.join_cons]; rfl

/-- The text of an event. -/
def eventText (e : ClaudeStreamResponse) : String :=
  readChunk ChatCompletionsStreamResponseChoiceDelta.getContentString e

/-- The thinking of an event, apart from a signature. -/
def eventThinking (e : ClaudeStreamResponse) : String :=
  if e.unsigned then readChunk ChatCompletionsStreamResponseChoiceDelta.getReasoningContent e else ""

theorem join_filter_unsigned (es : List ClaudeStreamResponse) :
    String.join ((es.filter ClaudeStreamResponse.unsigned).map
      (readChunk ChatCompletionsStreamResponseChoiceDelta.getReasoningContent)) =
      String.join (es.map eventThinking) := by
  induction es with
  | nil => rfl
  | cons e es ih =>
    rw [List.map_cons, String.join_cons, ← ih, List.filter_cons, eventThinking]
    split
    · rw [List.map_cons, String.join_cons]
    · rw [String.empty_append]

/-- Pieces that are read as they are. -/
theorem join_pieces {α : Type*} (g : ClaudeStreamResponse → String)
    (event : α → ClaudeStreamResponse) (h : α → String) (hg : ∀ x, g (event x) = h x)
    (pieces : List α) : String.join ((pieces.map event).map g) = String.join (pieces.map h) := by
  rw [List.map_map]
  exact congrArg String.join (List.map_congr_left fun x _ => hg x)

theorem join_empty {α : Type*} (pieces : List α) :
    String.join (pieces.map fun _ => "") = "" :=
  join_eq_empty.2 fun x hx => by
    obtain ⟨_, _, rfl⟩ := List.mem_map.1 hx
    rfl

theorem join_cons_map (g : ClaudeStreamResponse → String) (e : ClaudeStreamResponse)
    (es : List ClaudeStreamResponse) :
    String.join ((e :: es).map g) = g e ++ String.join (es.map g) := by
  rw [List.map_cons, String.join_cons]

theorem join_append_map (g : ClaudeStreamResponse → String) (es es' : List ClaudeStreamResponse) :
    String.join ((es ++ es').map g) = String.join (es.map g) ++ String.join (es'.map g) := by
  rw [List.map_append, String.join_append]

/-- The events of a block have its text. -/
theorem events_text (index : ℤ) (cut : CutBlock J) :
    String.join ((cut.events index).map eventText) = cut.block.getText := by
  cases cut with
  | text start pieces =>
    have hpieces := join_pieces eventText (fun piece =>
      .contentBlockDelta index (.textDelta piece)) id (fun _ => rfl) pieces
    rw [CutBlock.events, join_append_map, join_cons_map, hpieces, List.map_id]
    exact String.append_empty
  | thinking pieces =>
    have hpieces := join_pieces eventText (fun piece =>
      .contentBlockDelta index (thinkingPiece piece)) (fun _ => "")
      (fun piece => by cases piece <;> rfl) pieces
    rw [CutBlock.events, join_append_map, join_cons_map, hpieces, join_empty]
    rfl
  | toolUse id name input pieces =>
    have hpieces := join_pieces eventText (fun piece =>
      .contentBlockDelta index (.inputJsonDelta piece)) (fun _ => "") (fun _ => rfl) pieces
    rw [CutBlock.events, join_append_map, join_cons_map, hpieces, join_empty]
    rfl

/-- And its thinking. -/
theorem events_thinking (index : ℤ) (cut : CutBlock J) :
    String.join ((cut.events index).map eventThinking) = cut.block.getThinking := by
  cases cut with
  | text start pieces =>
    have hpieces := join_pieces eventThinking (fun piece =>
      .contentBlockDelta index (.textDelta piece)) (fun _ => "") (fun _ => rfl) pieces
    rw [CutBlock.events, join_append_map, join_cons_map, hpieces, join_empty]
    rfl
  | thinking pieces =>
    have hpieces := join_pieces eventThinking (fun piece =>
      .contentBlockDelta index (thinkingPiece piece)) (fun piece => piece.getD "")
      (fun piece => by cases piece <;> rfl) pieces
    rw [CutBlock.events, join_append_map, join_cons_map, hpieces]
    exact String.append_empty.trans String.empty_append
  | toolUse id name input pieces =>
    have hpieces := join_pieces eventThinking (fun piece =>
      .contentBlockDelta index (.inputJsonDelta piece)) (fun _ => "") (fun _ => rfl) pieces
    rw [CutBlock.events, join_append_map, join_cons_map, hpieces, join_empty]
    rfl

theorem join_blockEvents {g : ClaudeStreamResponse → String} {h : ClaudeMediaMessage J → String}
    (hg : ∀ (index : ℤ) (cut : CutBlock J),
      String.join ((cut.events index).map g) = h cut.block)
    (index : ℤ) (cuts : List (CutBlock J)) :
    String.join ((blockEvents index cuts).map g) =
      String.join ((cuts.map CutBlock.block).map h) := by
  induction cuts generalizing index with
  | nil => rfl
  | cons cut cuts ih =>
    rw [blockEvents, join_append_map, hg, ih, List.map_cons, List.map_cons, String.join_cons]

theorem join_getText (content : List (ClaudeMediaMessage J)) :
    String.join (content.map ClaudeMediaMessage.getText) = String.join (texts content) := by
  induction content with
  | nil => rfl
  | cons block rest ih =>
    rw [List.map_cons, String.join_cons, ih]
    cases block with
    | text s => exact String.join_cons.symm
    | thinking s => exact String.empty_append
    | toolUse id name input => exact String.empty_append

theorem join_getThinking (content : List (ClaudeMediaMessage J)) :
    String.join (content.map ClaudeMediaMessage.getThinking) = String.join (thinkings content) := by
  induction content with
  | nil => rfl
  | cons block rest ih =>
    rw [List.map_cons, String.join_cons, ih]
    cases block with
    | text s => exact String.empty_append
    | thinking s => exact String.join_cons.symm
    | toolUse id name input => exact String.empty_append

section Stream

variable (id model : String) (usage finalUsage : Option ClaudeMessageUsage)
  (cuts : List (CutBlock J)) (stopReason : String)

/-- A client of the stream has all texts of the message. -/
theorem stream_content :
    contents (chunksOf (eventStream id model usage finalUsage cuts stopReason)) =
      String.join (texts (cuts.map CutBlock.block)) := by
  have hblocks := join_blockEvents (g := eventText) events_text 0 cuts
  rw [contents, join_chunksOf, eventStream]
  change String.join ((_ :: (_ ++ _)).map eventText) = _
  rw [join_cons_map, join_append_map, hblocks, join_getText]
  exact String.empty_append.trans String.append_empty

/-- And all of its thinking. -/
theorem stream_reasoning :
    reasonings (chunksOf ((eventStream id model usage finalUsage cuts stopReason).filter
      ClaudeStreamResponse.unsigned)) = String.join (thinkings (cuts.map CutBlock.block)) := by
  have hblocks := join_blockEvents (g := eventThinking) events_thinking 0 cuts
  rw [reasonings, join_chunksOf, join_filter_unsigned, eventStream, join_cons_map, join_append_map,
    hblocks, join_getThinking]
  exact String.empty_append.trans String.append_empty

theorem lastFinish_append (finish : String) (chunks chunks' : List ChatCompletionsStreamResponse) :
    lastFinish finish (chunks ++ chunks') = lastFinish (lastFinish finish chunks) chunks' := by
  induction chunks generalizing finish with
  | nil => rfl
  | cons chunk rest ih => exact ih _

theorem lastFinish_of_empty {chunks : List ChatCompletionsStreamResponse} (finish : String)
    (h : ∀ chunk ∈ chunks, chunk.finish = "") : lastFinish finish chunks = finish := by
  induction chunks generalizing finish with
  | nil => rfl
  | cons chunk rest ih =>
    rw [lastFinish, if_neg (not_not.2 (h chunk List.mem_cons_self))]
    exact ih _ fun chunk' hchunk' => h chunk' (List.mem_cons_of_mem _ hchunk')

/-- An event of a content block. -/
def ClaudeStreamResponse.isBlock : ClaudeStreamResponse → Bool
  | .contentBlockStart _ _ | .contentBlockDelta _ _ | .contentBlockStop _ => true
  | _ => false

theorem isBlock_blockEvents (index : ℤ) :
    ∀ e ∈ blockEvents index cuts, e.isBlock = true := by
  induction cuts generalizing index with
  | nil => simp [blockEvents]
  | cons cut cuts ih =>
    intro e he
    rcases List.mem_append.1 he with he | he
    · cases cut with
      | text start pieces | thinking pieces | toolUse id name input pieces =>
        simp only [CutBlock.events, List.cons_append, List.mem_cons, List.mem_append,
          List.mem_map, List.not_mem_nil, or_false] at he
        rcases he with rfl | ⟨_, _, rfl⟩ | rfl <;> rfl
    · exact ih _ e he

/-- Chunks of content blocks have no finish reason. -/
theorem finish_of_isBlock {e : ClaudeStreamResponse} (he : e.isBlock = true)
    {chunk : ChatCompletionsStreamResponse} (hchunk : streamResponseClaude2OpenAI e = some chunk) :
    chunk.finish = "" := by
  cases e with
  | contentBlockStart index block =>
    cases block <;> (cases hchunk; rfl)
  | contentBlockDelta index delta =>
    cases delta <;> (cases hchunk; rfl)
  | contentBlockStop index => cases hchunk
  | messageStart id model usage => cases he
  | messageDelta stopReason usage => cases he
  | messageStop => cases he
  | ping => cases he

theorem chunksOf_eventStream :
    chunksOf (eventStream id model usage finalUsage cuts stopReason) =
      oneChoice id model ⟨some "", none, none, []⟩ none :: (chunksOf (blockEvents 0 cuts) ++
        chunksOf [.messageDelta (some stopReason) finalUsage, .messageStop]) := by
  simp only [chunksOf, eventStream, List.filterMap_cons, List.filterMap_append]
  rfl

/-- The finish reason of the stream. -/
theorem stream_finishReason :
    lastFinish "" (chunksOf (eventStream id model usage finalUsage cuts stopReason)) =
      if stopReasonClaude2OpenAI stopReason ≠ "null" then stopReasonClaude2OpenAI stopReason
      else "" := by
  have hblocks : ∀ chunk ∈ chunksOf (blockEvents 0 cuts), chunk.finish = "" := by
    intro chunk hchunk
    obtain ⟨e, he, hsome⟩ := List.mem_filterMap.1 hchunk
    exact finish_of_isBlock (isBlock_blockEvents cuts 0 e he) hsome
  rw [chunksOf_eventStream, lastFinish, lastFinish_append, lastFinish_of_empty _ hblocks]
  simp only [chunksOf, List.filterMap_cons, streamResponseClaude2OpenAI, List.filterMap_nil,
    Option.bind_some, lastFinish, oneChoice, ChatCompletionsStreamResponse.finish,
    ChatCompletionsStreamResponseChoice.finish, List.head?_cons, Option.map_some,
    Option.getD_some, Option.getD_none]
  split
  · rw [Option.getD_some]
    split
    · rfl
    · rename_i hempty
      exact (not_not.1 hempty).symm
  · rfl

end Stream

/-! ### The tool calls of the stream -/

/-- The tool calls after a chunk. -/
def addChunk (calls : List (ℤ × ToolCallRequest)) (chunk : ChatCompletionsStreamResponse) :
    List (ℤ × ToolCallRequest) :=
  addPieces 0 calls chunk.delta.toolCalls

/-- Pieces of arguments for the last call. -/
theorem addChunk_pieces {calls : List (ℤ × ToolCallRequest)} {index : ℤ}
    (hindex : index ∉ Keyed.keys calls) (id name arguments : String) (pieces : List String) :
    (chunksOf (pieces.map fun piece => .contentBlockDelta index (.inputJsonDelta piece))).foldl
        addChunk (calls ++ [(index, ⟨id, name, arguments⟩)]) =
      calls ++ [(index, ⟨id, name, arguments ++ String.join pieces⟩)] := by
  induction pieces generalizing arguments with
  | nil => simp [chunksOf]
  | cons piece rest ih =>
    have hopen : index ∈ Keyed.keys
        (calls ++ [(index, (⟨id, name, arguments⟩ : ToolCallRequest))]) := by
      simp [Keyed.keys]
    have hchunks : chunksOf ((piece :: rest).map fun piece =>
        .contentBlockDelta index (.inputJsonDelta piece)) =
        oneChoice "" "" ⟨none, none, none, [⟨some index, "", "", piece⟩]⟩ none ::
          chunksOf (rest.map fun piece => .contentBlockDelta index (.inputJsonDelta piece)) := rfl
    have hstep : addChunk (calls ++ [(index, ⟨id, name, arguments⟩)])
        (oneChoice "" "" ⟨none, none, none, [⟨some index, "", "", piece⟩]⟩ none) =
        calls ++ [(index, ⟨id, name, arguments ++ piece⟩)] := by
      change addPiece _ index _ = _
      rw [addPiece, if_pos hopen, Keyed.update_concat _ _ hindex]
      rfl
    rw [hchunks, List.foldl_cons, hstep, ih, String.join_cons, String.append_assoc]

/-- Chunks without a tool call. -/
theorem foldl_addChunk_plain {calls : List (ℤ × ToolCallRequest)}
    {chunks : List ChatCompletionsStreamResponse} (h : ∀ chunk ∈ chunks, chunk.delta.toolCalls = []) :
    chunks.foldl addChunk calls = calls := by
  induction chunks with
  | nil => rfl
  | cons chunk rest ih =>
    have hchunk : addChunk calls chunk = calls := by
      rw [addChunk, h chunk List.mem_cons_self]
      rfl
    rw [List.foldl_cons, hchunk]
    exact ih fun chunk' hchunk' => h chunk' (List.mem_cons_of_mem _ hchunk')

/-- The call of a block, under its index. -/
def CutBlock.call (index : ℤ) : CutBlock J → List (ℤ × ToolCallRequest)
  | .toolUse id name _ pieces => [(index, ⟨id, name, String.join pieces⟩)]
  | _ => []

/-- **The tool call of a block.** -/
theorem addChunk_events {calls : List (ℤ × ToolCallRequest)} {index : ℤ}
    (hindex : index ∉ Keyed.keys calls) (cut : CutBlock J) :
    (chunksOf (cut.events index)).foldl addChunk calls = calls ++ cut.call index := by
  cases cut with
  | text start pieces =>
    have hcall : (CutBlock.text start pieces : CutBlock J).call index = [] := rfl
    rw [hcall, List.append_nil]
    refine foldl_addChunk_plain fun chunk hchunk => ?_
    obtain ⟨e, he, hsome⟩ := List.mem_filterMap.1 hchunk
    simp only [CutBlock.events, List.cons_append, List.mem_cons, List.mem_append, List.mem_map,
      List.not_mem_nil, or_false] at he
    rcases he with rfl | ⟨_, _, rfl⟩ | rfl
    · cases hsome
      rfl
    · cases hsome
      rfl
    · cases hsome
  | thinking pieces =>
    have hcall : (CutBlock.thinking pieces : CutBlock J).call index = [] := rfl
    rw [hcall, List.append_nil]
    refine foldl_addChunk_plain fun chunk hchunk => ?_
    obtain ⟨e, he, hsome⟩ := List.mem_filterMap.1 hchunk
    simp only [CutBlock.events, List.cons_append, List.mem_cons, List.mem_append, List.mem_map,
      List.not_mem_nil, or_false] at he
    rcases he with rfl | ⟨piece, _, rfl⟩ | rfl
    · cases hsome
      rfl
    · cases piece <;> (cases hsome; rfl)
    · cases hsome
  | toolUse id name input pieces =>
    have hchunks : chunksOf ((CutBlock.toolUse id name input pieces).events index) =
        oneChoice "" "" ⟨none, none, none, [⟨some index, id, name, ""⟩]⟩ none ::
          chunksOf (pieces.map fun piece => .contentBlockDelta index (.inputJsonDelta piece)) := by
      simp only [CutBlock.events, chunksOf, List.cons_append, List.filterMap_cons,
        List.filterMap_append]
      exact congrArg _ (List.append_nil _)
    have hstep : addChunk calls
        (oneChoice "" "" ⟨none, none, none, [⟨some index, id, name, ""⟩]⟩ none) =
        calls ++ [(index, ⟨id, name, ""⟩)] := by
      change addPiece calls index _ = _
      rw [addPiece, if_neg hindex]
    rw [hchunks, List.foldl_cons, hstep, addChunk_pieces hindex, String.empty_append]
    rfl

/-- The calls of the blocks from the given index on. -/
def callsFrom : ℤ → List (CutBlock J) → List (ℤ × ToolCallRequest)
  | _, [] => []
  | index, cut :: cuts => cut.call index ++ callsFrom (index + 1) cuts

theorem addChunk_blockEvents (calls : List (ℤ × ToolCallRequest)) (index : ℤ)
    (hindex : ∀ k ∈ Keyed.keys calls, k < index) (cuts : List (CutBlock J)) :
    (chunksOf (blockEvents index cuts)).foldl addChunk calls = calls ++ callsFrom index cuts := by
  induction cuts generalizing index calls with
  | nil => exact (List.append_nil calls).symm
  | cons cut cuts ih =>
    have hnew : index ∉ Keyed.keys calls := fun hmem => lt_irrefl index (hindex index hmem)
    have hnext : ∀ k ∈ Keyed.keys (calls ++ cut.call index), k < index + 1 := by
      intro k hk
      rw [Keyed.keys, List.map_append, List.mem_append] at hk
      rcases hk with hk | hk
      · have hlt := hindex k hk
        omega
      · cases cut with
        | text start pieces => simp [CutBlock.call] at hk
        | thinking pieces => simp [CutBlock.call] at hk
        | toolUse id name input pieces =>
          simp only [CutBlock.call, List.map_cons, List.map_nil, List.mem_singleton] at hk
          omega
    have hsplit : chunksOf (blockEvents index (cut :: cuts)) =
        chunksOf (cut.events index) ++ chunksOf (blockEvents (index + 1) cuts) :=
      List.filterMap_append
    rw [hsplit, List.foldl_append, addChunk_events hnew, ih _ _ hnext, List.append_assoc]
    rfl

/-- The calls of a message whose blocks are cut well. -/
theorem parsed_callsFrom {parse : String → Option J} {marshal : J → String}
    (hmarshal : ∀ v, parse (marshal v) = some v) (index : ℤ) {cuts : List (CutBlock J)}
    (hcut : ∀ cut ∈ cuts, cut.WellCut parse) :
    (Keyed.values (callsFrom index cuts)).map (ToolCallRequest.parsed parse) =
      (calls marshal (cuts.map CutBlock.block)).map (ToolCallRequest.parsed parse) := by
  induction cuts generalizing index with
  | nil => rfl
  | cons cut cuts ih =>
    have hrest := ih (index + 1) fun cut' hcut' => hcut cut' (List.mem_cons_of_mem _ hcut')
    have hhead := hcut cut List.mem_cons_self
    rw [callsFrom, Keyed.values, List.map_append, List.map_append]
    cases cut with
    | text start pieces => exact hrest
    | thinking pieces => exact hrest
    | toolUse id name input pieces =>
      have hblock : calls marshal ((CutBlock.toolUse id name input pieces :: cuts).map
          CutBlock.block) =
          ⟨id, name, marshal input⟩ :: calls marshal (cuts.map CutBlock.block) := rfl
      rw [hblock, List.map_cons, ← hrest]
      change ToolCallRequest.parsed parse ⟨id, name, String.join pieces⟩ :: _ = _
      rw [ToolCallRequest.parsed, ToolCallRequest.parsed, hmarshal, hhead]
      rfl

/-- The tool calls of the stream. -/
theorem stream_toolCalls (id model : String) (usage finalUsage : Option ClaudeMessageUsage)
    (cuts : List (CutBlock J)) (stopReason : String) :
    toolCalls (chunksOf (eventStream id model usage finalUsage cuts stopReason)) =
      callsFrom 0 cuts := by
  have hblocks := addChunk_blockEvents [] 0 (by simp [Keyed.keys]) cuts
  change List.foldl addChunk [] _ = _
  rw [chunksOf_eventStream, List.foldl_cons]
  change List.foldl addChunk [] _ = _
  rw [List.foldl_append, hblocks, List.nil_append]
  exact foldl_addChunk_plain fun chunk hchunk => by
    obtain ⟨e, he, hsome⟩ := List.mem_filterMap.1 hchunk
    rcases List.mem_cons.1 he with rfl | he
    · cases hsome
      rfl
    · rw [List.mem_singleton.1 he] at hsome
      cases hsome

/-! ### The conversions agree -/

/-- **A stream and the message it encodes.**  A client gets the same from both exactly if only the
last text of the message is not empty, so is its last thinking, or the first block if the last is
empty, and the stop reason is one. -/
theorem claude_stream_agrees {parse : String → Option J} {marshal : J → String}
    (hmarshal : ∀ v, parse (marshal v) = some v) (id model : String)
    (usage finalUsage : Option ClaudeMessageUsage) (cuts : List (CutBlock J)) (stopReason : String)
    (hcut : ∀ cut ∈ cuts, cut.WellCut parse) :
    Reassembles parse (eventStream id model usage finalUsage cuts stopReason)
        (responseClaude2OpenAI marshal (cuts.map CutBlock.block) stopReason) ↔
      OneText (cuts.map CutBlock.block) ∧ OneThinking (cuts.map CutBlock.block) ∧
        stopReasonClaude2OpenAI stopReason ≠ "null" := by
  have hcontent : contents (chunksOf (eventStream id model usage finalUsage cuts stopReason)) =
      (responseClaude2OpenAI marshal (cuts.map CutBlock.block) stopReason).content ↔
      OneText (cuts.map CutBlock.block) := by
    rw [stream_content, response_content]
    exact join_eq_last
  have hreasoning : reasonings (chunksOf ((eventStream id model usage finalUsage cuts
      stopReason).filter ClaudeStreamResponse.unsigned)) =
      (responseClaude2OpenAI marshal (cuts.map CutBlock.block) stopReason).reasoningContent.getD "" ↔
      OneThinking (cuts.map CutBlock.block) := by
    rw [stream_reasoning, response_reasoning, OneThinking]
    split
    · exact join_eq_last
    · cases cuts.map CutBlock.block with
      | nil => simp [thinkings]
      | cons block rest =>
        rw [List.tail_cons, ← join_eq_empty]
        cases block with
        | text s => rfl
        | thinking s =>
          have hthinkings : thinkings (.thinking s :: rest) = s :: thinkings rest := rfl
          rw [hthinkings, String.join_cons]
          constructor
          · intro heq
            have hlength := congrArg String.length heq
            rw [String.length_append] at hlength
            change _ = s.length at hlength
            exact String.length_eq_zero_iff.1 (by omega)
          · intro hempty
            rw [hempty, String.append_empty]
            rfl
        | toolUse id name input => rfl
  have hfinish : lastFinish "" (chunksOf (eventStream id model usage finalUsage cuts stopReason)) =
      (responseClaude2OpenAI marshal (cuts.map CutBlock.block) stopReason).finishReason ↔
      stopReasonClaude2OpenAI stopReason ≠ "null" := by
    rw [stream_finishReason]
    change _ = stopReasonClaude2OpenAI stopReason ↔ _
    split
    · rename_i hnull
      exact iff_of_true rfl hnull
    · rename_i hnull
      refine iff_of_false (fun hempty => hnull ?_) hnull
      rw [← hempty]
      decide
  constructor
  · intro h
    exact ⟨hcontent.1 h.content, hreasoning.1 h.reasoning, hfinish.1 h.finishReason⟩
  · rintro ⟨htext, hthinking, hnull⟩
    refine ⟨hcontent.2 htext, hreasoning.2 hthinking, ?_, hfinish.2 hnull⟩
    rw [stream_toolCalls, response_toolCalls]
    exact parsed_callsFrom hmarshal 0 hcut

end Cut

/-- A message of some text and a tool call, with JSON values taken as their texts. -/
theorem claude_stream_agrees_look :
    Reassembles some
      (eventStream "msg_1" "claude" none none
        [.text "" ["I will ", "look."], .toolUse "toolu_1" "look" "{}" ["", "{}"]]
        "tool_use")
      (responseClaude2OpenAI id [.text "I will look.", .toolUse "toolu_1" "look" "{}"]
        "tool_use") :=
  (claude_stream_agrees (fun _ => rfl) "msg_1" "claude" none none
    [.text "" ["I will ", "look."], .toolUse "toolu_1" "look" "{}" ["", "{}"]]
    "tool_use" (by simp [CutBlock.WellCut])).2
    ⟨by simp [OneText, texts, CutBlock.block], by simp [OneThinking, thinkings, CutBlock.block],
      by decide⟩

/-- **Two texts**, as around a web search: the answer that is not streamed has the second one only. -/
theorem two_texts_drift :
    let cuts : List (CutBlock String) := [.text "" ["I searched. "], .text "" ["It is ", "four."]]
    contents (chunksOf (eventStream "msg_1" "claude" none none cuts "end_turn")) =
        "I searched. It is four." ∧
      (responseClaude2OpenAI id (cuts.map CutBlock.block) "end_turn").content = "It is four." ∧
      ¬ Reassembles some (eventStream "msg_1" "claude" none none cuts "end_turn")
        (responseClaude2OpenAI id (cuts.map CutBlock.block) "end_turn") := by
  refine ⟨by decide, by decide, fun h => ?_⟩
  have hcontent := h.content
  revert hcontent
  decide

end NewApi
