/-
**An answer of a Responses upstream for a Chat Completions client.**

The upstream answers with a list of output items, whole or as a stream of events: for each item it
adds the item, sends its text or its arguments piece by piece, and says that the item is done.  The
conversion of a whole answer first looks for text, and takes the function calls only if there is none.
The conversion of a stream sends what comes.  It stops sending calls when there is text, but calls
that come before the text have been sent by then.

The conversions also look at different things.  The whole answer skips the calls without a name, the
stream those without an identifier; the stream puts calls with one identifier together; and if no
text has been found, the whole answer takes any content of any item for it.

Main definitions:

* `NewApi.responsesResponseToChatCompletionsResponse`, `NewApi.oaiResponsesToChatStreamHandler` —
  the conversions;
* `NewApi.CutItem`, `NewApi.responsesEvents` — an answer together with a stream of it;
* `NewApi.ResponsesAgree` — a client gets the same from both;
* `NewApi.TextKept`, `NewApi.CallsKept` — when they agree.

Main results:

* `NewApi.responses_stream_agrees` — **the conversions agree** on these answers, and on no others
  unless calls without a name repeat an identifier;
* `NewApi.call_before_text` — a call followed by a text.
-/

import NewApi.GeminiStream

set_option autoImplicit false

namespace NewApi

/-! ### Answers -/

structure ResponsesOutputContent where
  type : String
  text : String
deriving DecidableEq, Repr

/-- An output item.  Its arguments are given in the form in which they are sent. -/
structure ResponsesOutput where
  type : String
  id : String := ""
  role : String := ""
  content : List ResponsesOutputContent := []
  callId : String := ""
  name : String := ""
  arguments : String := ""
deriving DecidableEq, Repr

namespace ResponsesOutput

/-- The identifier of a call: its own, or that of its item. -/
def key (out : ResponsesOutput) : String :=
  let callId := trimSpace out.callId
  if callId = "" then trimSpace out.id else callId

/-- The output texts of an item. -/
def outputTexts (out : ResponsesOutput) : List String :=
  out.content.filterMap fun c =>
    if c.type = "output_text" ∧ c.text ≠ "" then some c.text else none

/-- All texts of an item. -/
def texts (out : ResponsesOutput) : List String :=
  out.content.filterMap fun c => if c.text ≠ "" then some c.text else none

end ResponsesOutput

/-! ### The whole answer -/

def extractOutputTextFromResponses (output : List ResponsesOutput) : String :=
  let text := String.join (output.flatMap fun out =>
    if out.type ≠ "message" then []
    else if out.role ≠ "" ∧ out.role ≠ "assistant" then []
    else out.outputTexts)
  if text ≠ "" then text else String.join (output.flatMap fun out => out.texts)

/-- The tool call for an item, if it is a function call with a name. -/
def ResponsesOutput.toolCall (out : ResponsesOutput) : Option ToolCallRequest :=
  if out.type ≠ "function_call" then none
  else
    let name := trimSpace out.name
    if name = "" then none else some ⟨out.key, name, out.arguments⟩

def responsesResponseToChatCompletionsResponse (output : List ResponsesOutput) :
    OpenAITextResponse :=
  let text := extractOutputTextFromResponses output
  let toolCalls := if text = "" then output.filterMap ResponsesOutput.toolCall else []
  { content := if toolCalls ≠ [] then "" else text
    reasoningContent := none
    toolCalls
    finishReason := if toolCalls ≠ [] then "tool_calls" else "stop" }

/-! ### The stream -/

inductive ResponsesStreamEvent where
  | created (model : String)
  | reasoningSummaryTextDelta (delta : String)
  | reasoningSummaryTextDone
  | outputTextDelta (delta : String)
  | outputItemAdded (item : ResponsesOutput)
  | functionCallArgumentsDelta (itemId delta : String)
  | functionCallArgumentsDone
  | outputItemDone (item : ResponsesOutput)
  | completed (model : String)
deriving DecidableEq, Repr

/-- The state of the handler.  The calls are listed in the order of their indexes. -/
structure ResponsesChatState where
  model : String
  outputText : String := ""
  sentStart : Bool := false
  sentStop : Bool := false
  sawToolCall : Bool := false
  toolCallIDs : List String := []
  toolCallNameByID : String → String := fun _ => ""
  toolCallArgsByID : String → String := fun _ => ""
  toolCallNameSent : String → Bool := fun _ => false
  toolCallCanonicalIDByItemID : String → String := fun _ => ""
  hasSentReasoningSummary : Bool := false
  needsReasoningSummarySeparator : Bool := false
  sent : List ChatCompletionsStreamResponse := []

/-- What is new in a text that may continue an earlier one. -/
def argumentsDelta (prevArgs newArgs : String) : String :=
  if hasPrefix newArgs prevArgs then String.ofList (newArgs.toList.drop prevArgs.toList.length)
  else newArgs

namespace ResponsesChatState

variable (responseId : String)

/-- Send a chunk with the given delta. -/
def sendDelta (delta : ChatCompletionsStreamResponseChoiceDelta) (s : ResponsesChatState) :
    ResponsesChatState :=
  { s with sent := s.sent ++ [oneChoice responseId s.model delta none] }

def sendStartIfNeeded (s : ResponsesChatState) : ResponsesChatState :=
  if s.sentStart then s
  else
    { s with
      sentStart := true
      sent := s.sent ++ [generateStartEmptyResponse responseId s.model []] }

def sendReasoningSummaryDelta (delta : String) (s : ResponsesChatState) : ResponsesChatState :=
  if delta = "" then s
  else
    let delta :=
      if s.needsReasoningSummarySeparator then
        if hasPrefix delta "\n\n" then delta
        else if hasPrefix delta "\n" then "\n" ++ delta
        else "\n\n" ++ delta
      else delta
    let s := ({ s with needsReasoningSummarySeparator := false }).sendStartIfNeeded responseId
    { s.sendDelta responseId ⟨none, some delta, none, []⟩ with hasSentReasoningSummary := true }

def sendToolCallDelta (callID name argsDelta : String) (s : ResponsesChatState) :
    ResponsesChatState :=
  if callID = "" then s
  -- text goes before tool calls
  else if s.outputText ≠ "" then s
  else
    let s := s.sendStartIfNeeded responseId
    let toolCallIDs :=
      if callID ∈ s.toolCallIDs then s.toolCallIDs else s.toolCallIDs ++ [callID]
    let toolCallNameByID :=
      if name ≠ "" then Function.update s.toolCallNameByID callID name else s.toolCallNameByID
    let name := if toolCallNameByID callID ≠ "" then toolCallNameByID callID else name
    let sendsName : Bool := name ≠ "" ∧ ¬ s.toolCallNameSent callID
    let tool : ToolCallResponse :=
      { index := some (toolCallIDs.idxOf callID)
        id := callID
        name := if sendsName then name else ""
        arguments := argsDelta }
    let toolCallNameSent :=
      if sendsName then Function.update s.toolCallNameSent callID true else s.toolCallNameSent
    { s with
      toolCallIDs
      toolCallNameByID
      toolCallNameSent
      sawToolCall := true
      sent := s.sent ++ [oneChoice responseId s.model ⟨none, none, none, [tool]⟩ none] }

/-- An item is added or done. -/
def receiveItem (item : ResponsesOutput) (s : ResponsesChatState) : ResponsesChatState :=
  if item.type ≠ "function_call" then s
  else
    let itemID := trimSpace item.id
    let callID := item.key
    let toolCallCanonicalIDByItemID :=
      if itemID ≠ "" ∧ callID ≠ "" then
        Function.update s.toolCallCanonicalIDByItemID itemID callID
      else s.toolCallCanonicalIDByItemID
    let name := trimSpace item.name
    let toolCallNameByID :=
      if name ≠ "" then Function.update s.toolCallNameByID callID name else s.toolCallNameByID
    let newArgs := item.arguments
    let prevArgs := s.toolCallArgsByID callID
    let argsDelta := if newArgs ≠ "" then argumentsDelta prevArgs newArgs else ""
    let toolCallArgsByID :=
      if newArgs ≠ "" then Function.update s.toolCallArgsByID callID newArgs
      else s.toolCallArgsByID
    ({ s with toolCallCanonicalIDByItemID, toolCallNameByID, toolCallArgsByID }).sendToolCallDelta
      responseId callID name argsDelta

/-- The chunk with the finish reason. -/
def sendStop (s : ResponsesChatState) : ResponsesChatState :=
  if s.sentStop then s
  else
    let finishReason :=
      if s.sawToolCall ∧ s.outputText = "" then "tool_calls" else "stop"
    { s with
      sentStop := true
      sent := s.sent ++ [generateStopResponse responseId s.model finishReason] }

/-- The handler receives an event. -/
def receive (s : ResponsesChatState) : ResponsesStreamEvent → ResponsesChatState
  | .created model => if model ≠ "" then { s with model } else s
  | .reasoningSummaryTextDelta delta => s.sendReasoningSummaryDelta responseId delta
  | .reasoningSummaryTextDone =>
    if s.hasSentReasoningSummary then { s with needsReasoningSummarySeparator := true } else s
  | .outputTextDelta delta =>
    let s := s.sendStartIfNeeded responseId
    if delta ≠ "" then
      ({ s with outputText := s.outputText ++ delta }).sendDelta responseId
        ⟨some delta, none, none, []⟩
    else s
  | .outputItemAdded item | .outputItemDone item => s.receiveItem responseId item
  | .functionCallArgumentsDelta itemId delta =>
    let itemID := trimSpace itemId
    let callID := s.toolCallCanonicalIDByItemID itemID
    let callID := if callID = "" then itemID else callID
    if callID = "" then s
    else
      ({ s with toolCallArgsByID :=
          Function.update s.toolCallArgsByID callID (s.toolCallArgsByID callID ++ delta)
        }).sendToolCallDelta responseId callID "" delta
  | .functionCallArgumentsDone => s
  | .completed model =>
    let s := if model ≠ "" then { s with model } else s
    (s.sendStartIfNeeded responseId).sendStop responseId

end ResponsesChatState

/-- The chunks that a client gets for a stream, with a usage at the end if it is asked for. -/
def oaiResponsesToChatStreamHandler (responseId model : String) (usage : Option OpenAIUsage)
    (events : List ResponsesStreamEvent) : List ChatCompletionsStreamResponse :=
  let s := events.foldl (ResponsesChatState.receive responseId) { model }
  let s := (s.sendStartIfNeeded responseId).sendStop responseId
  s.sent ++ (usage.map (generateFinalUsageResponse responseId s.model)).toList

/-! ### An answer and a stream of it -/

/-- An item with the pieces in which it comes. -/
structure CutItem where
  item : ResponsesOutput
  /-- The arguments that come with the item. -/
  start : String := ""
  pieces : List String := []
  /-- The parts of a summary, each with its pieces. -/
  summary : List (List String) := []

namespace CutItem

/-- The pieces are those of the item's output text or arguments. -/
def WellCut (cut : CutItem) : Prop :=
  if cut.item.type = "message" then String.join cut.pieces = String.join cut.item.outputTexts
  else if cut.item.type = "function_call" then
    cut.start ++ String.join cut.pieces = cut.item.arguments
  else True

instance instDecidableWellCut (cut : CutItem) : Decidable cut.WellCut :=
  inferInstanceAs (Decidable (ite _ _ _))

/-- The item as it is added. -/
def added (cut : CutItem) : ResponsesOutput :=
  { cut.item with content := [], arguments := cut.start }

/-- The events between those that the item is added and done. -/
def deltas (cut : CutItem) : List ResponsesStreamEvent :=
  if cut.item.type = "message" then cut.pieces.map .outputTextDelta
  else if cut.item.type = "function_call" then
    cut.pieces.map (ResponsesStreamEvent.functionCallArgumentsDelta cut.item.id) ++
      [ResponsesStreamEvent.functionCallArgumentsDone]
  else
    cut.summary.flatMap fun pieces =>
      pieces.map ResponsesStreamEvent.reasoningSummaryTextDelta ++
        [ResponsesStreamEvent.reasoningSummaryTextDone]

def events (cut : CutItem) : List ResponsesStreamEvent :=
  .outputItemAdded cut.added :: (cut.deltas ++ [ResponsesStreamEvent.outputItemDone cut.item])

end CutItem

/-- The events of an answer in the order of its items. -/
def responsesEvents (model : String) (cuts : List CutItem) : List ResponsesStreamEvent :=
  .created model :: (cuts.flatMap CutItem.events ++ [ResponsesStreamEvent.completed model])

/-- A client that puts the chunks together has the answer: its content, its tool calls and its finish
reason. -/
structure ResponsesAgree (chunks : List ChatCompletionsStreamResponse)
    (answer : OpenAITextResponse) : Prop where
  content : contents chunks = answer.content
  toolCalls : Keyed.values (NewApi.toolCalls chunks) = answer.toolCalls
  finishReason : lastFinish "" chunks = answer.finishReason

/-! ### When they agree -/

namespace ResponsesOutput

/-- The text of an item that comes in a stream. -/
def streamText (out : ResponsesOutput) : String :=
  if out.type = "message" then String.join out.outputTexts else ""

/-- Whether a message is one of the assistant. -/
def Assistant (out : ResponsesOutput) : Prop :=
  out.type = "message" ∧ (out.role = "" ∨ out.role = "assistant")

instance instDecidableAssistant (out : ResponsesOutput) : Decidable out.Assistant :=
  inferInstanceAs (Decidable (_ ∧ _))

/-- Whether an item is a function call with an identifier. -/
def HasKey (out : ResponsesOutput) : Prop := out.type = "function_call" ∧ out.key ≠ ""

instance instDecidableHasKey (out : ResponsesOutput) : Decidable out.HasKey :=
  inferInstanceAs (Decidable (_ ∧ _))

/-- Whether an item is a function call with a name. -/
def HasName (out : ResponsesOutput) : Prop := out.type = "function_call" ∧ trimSpace out.name ≠ ""

instance instDecidableHasName (out : ResponsesOutput) : Decidable out.HasName :=
  inferInstanceAs (Decidable (_ ∧ _))

end ResponsesOutput

/-- The output text of a stream. -/
def streamTexts (output : List ResponsesOutput) : String :=
  String.join (output.map ResponsesOutput.streamText)

/-- The text of the messages is that of the assistant's; and if there is none, no item has any other
content. -/
def TextKept (output : List ResponsesOutput) : Prop :=
  if ∃ out ∈ output, out.Assistant ∧ out.streamText ≠ "" then
    ∀ out ∈ output, ¬ out.Assistant → out.streamText = ""
  else ∀ out ∈ output, String.join out.texts = out.streamText

instance instDecidableTextKept (output : List ResponsesOutput) : Decidable (TextKept output) :=
  inferInstanceAs (Decidable (ite _ _ _))

/-- No call comes before a text; and if there is no text, the calls with a name are those with an
identifier, and no two of them have the same. -/
def CallsKept (output : List ResponsesOutput) : Prop :=
  if ∃ out ∈ output, out.streamText ≠ "" then
    ∀ out ∈ output.takeWhile fun out => out.streamText = "", ¬ out.HasKey
  else (∀ out ∈ output, out.HasName ↔ out.HasKey) ∧
    ((output.filter fun out => out.HasName).map ResponsesOutput.key).Nodup

instance instDecidableCallsKept (output : List ResponsesOutput) : Decidable (CallsKept output) :=
  inferInstanceAs (Decidable (ite _ _ _))

/-- No call without a name has the identifier of a call with one. -/
def NamelessApart (output : List ResponsesOutput) : Prop :=
  ∀ out ∈ output, out.HasKey → ¬ out.HasName → ∀ out' ∈ output, out'.HasName → out'.key ≠ out.key

/-! ### Chunks -/

section Chunks

variable {responseId : String}

@[simp] theorem contents_concat (chunks : List ChatCompletionsStreamResponse) (model : String)
    (delta : ChatCompletionsStreamResponseChoiceDelta) (finishReason : Option String) :
    contents (chunks ++ [oneChoice responseId model delta finishReason]) =
      contents chunks ++ delta.getContentString := by
  rw [contents, List.map_append, String.join_append, List.map_singleton, String.join_cons,
    String.join_nil, String.append_empty, oneChoice_delta]
  rfl

@[simp] theorem toolCalls_concat (chunks : List ChatCompletionsStreamResponse) (model : String)
    (delta : ChatCompletionsStreamResponseChoiceDelta) (finishReason : Option String) :
    toolCalls (chunks ++ [oneChoice responseId model delta finishReason]) =
      addPieces 0 (toolCalls chunks) delta.toolCalls :=
  List.foldl_append

@[simp] theorem lastFinish_concat (chunks : List ChatCompletionsStreamResponse) (model : String)
    (delta : ChatCompletionsStreamResponseChoiceDelta) :
    lastFinish "" (chunks ++ [oneChoice responseId model delta none]) = lastFinish "" chunks := by
  rw [lastFinish_append]
  rfl

end Chunks

/-! ### What an event changes -/

namespace ResponsesChatState

variable {responseId : String}

/-- A state of the handler before the end: the client has the text and, under their indexes, the
calls that have one. -/
structure Sound (s : ResponsesChatState) : Prop where
  running : s.sentStop = false
  contents : NewApi.contents s.sent = s.outputText
  finish : lastFinish "" s.sent = ""
  keys : Keyed.keys (toolCalls s.sent) = (List.range s.toolCallIDs.length).map Int.ofNat
  ids : (Keyed.values (toolCalls s.sent)).map ToolCallRequest.id = s.toolCallIDs
  nodup : s.toolCallIDs.Nodup
  saw : s.sawToolCall = true ↔ s.toolCallIDs ≠ []
  canonical : s.toolCallCanonicalIDByItemID "" = ""

theorem sound_start (model : String) : Sound { model } where
  running := rfl
  contents := rfl
  finish := rfl
  keys := rfl
  ids := rfl
  nodup := List.nodup_nil
  saw := by simp
  canonical := rfl

/-- The calls of two states are the same. -/
structure SameCalls (s s' : ResponsesChatState) : Prop where
  ids : s'.toolCallIDs = s.toolCallIDs
  args : s'.toolCallArgsByID = s.toolCallArgsByID
  nameSent : s'.toolCallNameSent = s.toolCallNameSent
  toolCalls : NewApi.toolCalls s'.sent = NewApi.toolCalls s.sent

theorem SameCalls.refl (s : ResponsesChatState) : SameCalls s s := ⟨rfl, rfl, rfl, rfl⟩

theorem SameCalls.trans {s s' s'' : ResponsesChatState} (h : SameCalls s s')
    (h' : SameCalls s' s'') : SameCalls s s'' :=
  ⟨h'.ids.trans h.ids, h'.args.trans h.args, h'.nameSent.trans h.nameSent,
    h'.toolCalls.trans h.toolCalls⟩

variable {s : ResponsesChatState}

theorem sendStartIfNeeded_sent (s : ResponsesChatState) :
    contents (s.sendStartIfNeeded responseId).sent = contents s.sent ∧
      toolCalls (s.sendStartIfNeeded responseId).sent = toolCalls s.sent ∧
      lastFinish "" (s.sendStartIfNeeded responseId).sent = lastFinish "" s.sent := by
  rw [sendStartIfNeeded]
  split
  · exact ⟨rfl, rfl, rfl⟩
  · simp only [generateStartEmptyResponse, contents_concat, toolCalls_concat, lastFinish_concat]
    exact ⟨String.append_empty, rfl, trivial⟩

/-- The start is sent, and nothing else changes. -/
theorem sendStartIfNeeded_same (s : ResponsesChatState) :
    ∃ sentStart sent, s.sendStartIfNeeded responseId = { s with sentStart, sent } := by
  rw [sendStartIfNeeded]
  split
  · exact ⟨s.sentStart, s.sent, rfl⟩
  · exact ⟨_, _, rfl⟩

theorem Sound.start (h : Sound s) : Sound (s.sendStartIfNeeded responseId) := by
  obtain ⟨hcontents, hcalls, hfinish⟩ := @sendStartIfNeeded_sent responseId s
  obtain ⟨sentStart, sent, heq⟩ := @sendStartIfNeeded_same responseId s
  rw [heq] at hcontents hcalls hfinish ⊢
  exact ⟨h.running, hcontents.trans h.contents, hfinish.trans h.finish,
    (congrArg Keyed.keys hcalls).trans h.keys,
    (congrArg (fun calls => (Keyed.values calls).map ToolCallRequest.id) hcalls).trans h.ids,
    h.nodup, h.saw, h.canonical⟩

theorem sameCalls_start (s : ResponsesChatState) :
    SameCalls s (s.sendStartIfNeeded responseId) := by
  obtain ⟨_, hcalls, _⟩ := @sendStartIfNeeded_sent responseId s
  obtain ⟨sentStart, sent, heq⟩ := @sendStartIfNeeded_same responseId s
  rw [heq] at hcalls ⊢
  exact ⟨rfl, rfl, rfl, hcalls⟩

/-! #### Text and reasoning -/

/-- A chunk without a tool call. -/
theorem Sound.plain (h : Sound s) {delta : ChatCompletionsStreamResponseChoiceDelta}
    (htools : delta.toolCalls = []) {text : String}
    (htext : text = s.outputText ++ delta.getContentString) :
    Sound (({ s with outputText := text }).sendDelta responseId delta) ∧
      SameCalls s (({ s with outputText := text }).sendDelta responseId delta) := by
  have hcalls : toolCalls (({ s with outputText := text }).sendDelta responseId delta).sent =
      toolCalls s.sent := by
    simp only [sendDelta, toolCalls_concat, htools]
    rfl
  refine ⟨⟨h.running, ?_, ?_, ?_, ?_, h.nodup, h.saw, h.canonical⟩, ⟨rfl, rfl, rfl, hcalls⟩⟩
  · simp only [sendDelta, contents_concat]
    rw [h.contents, htext]
  · simp only [sendDelta, lastFinish_concat]
    exact h.finish
  · rw [hcalls]
    exact h.keys
  · rw [hcalls]
    exact h.ids

theorem sendStartIfNeeded_outputText (s : ResponsesChatState) :
    (s.sendStartIfNeeded responseId).outputText = s.outputText := by
  obtain ⟨_, _, heq⟩ := @sendStartIfNeeded_same responseId s
  rw [heq]

/-- A piece of text. -/
theorem Sound.textDelta (h : Sound s) (delta : String) :
    Sound (s.receive responseId (.outputTextDelta delta)) ∧
      SameCalls s (s.receive responseId (.outputTextDelta delta)) ∧
      (s.receive responseId (.outputTextDelta delta)).outputText = s.outputText ++ delta := by
  have hstart := @Sound.start responseId s h
  have hsame := @sameCalls_start responseId s
  have htext := @sendStartIfNeeded_outputText responseId s
  simp only [receive]
  split
  · obtain ⟨hsound, hcalls⟩ := @Sound.plain responseId _ hstart ⟨some delta, none, none, []⟩ rfl
      ((s.sendStartIfNeeded responseId).outputText ++ delta) rfl
    exact ⟨hsound, hsame.trans hcalls, congrArg (· ++ delta) htext⟩
  · rename_i hempty
    rw [not_not.1 hempty, String.append_empty]
    exact ⟨hstart, hsame, htext⟩

/-- A piece of a summary. -/
theorem Sound.summaryDelta (h : Sound s) (delta : String) :
    Sound (s.receive responseId (.reasoningSummaryTextDelta delta)) ∧
      SameCalls s (s.receive responseId (.reasoningSummaryTextDelta delta)) ∧
      (s.receive responseId (.reasoningSummaryTextDelta delta)).outputText = s.outputText := by
  simp only [receive, sendReasoningSummaryDelta]
  split
  · exact ⟨h, .refl s, rfl⟩
  · have hreset : Sound { s with needsReasoningSummarySeparator := false } :=
      ⟨h.running, h.contents, h.finish, h.keys, h.ids, h.nodup, h.saw, h.canonical⟩
    have hstart := @Sound.start responseId _ hreset
    have hsame := @sameCalls_start responseId { s with needsReasoningSummarySeparator := false }
    have htext := @sendStartIfNeeded_outputText responseId
      { s with needsReasoningSummarySeparator := false }
    generalize (if s.needsReasoningSummarySeparator = true then
      if hasPrefix delta "\n\n" = true then delta
      else if hasPrefix delta "\n" = true then "\n" ++ delta else "\n\n" ++ delta
      else delta) = summary
    obtain ⟨hsound, hcalls⟩ := @Sound.plain responseId _ hstart ⟨none, some summary, none, []⟩ rfl
      _ (String.append_empty).symm
    refine ⟨⟨hsound.running, hsound.contents, hsound.finish, hsound.keys, hsound.ids, hsound.nodup,
      hsound.saw, hsound.canonical⟩, ?_, htext⟩
    have hall : SameCalls s _ :=
      SameCalls.trans ⟨hsame.ids, hsame.args, hsame.nameSent, hsame.toolCalls⟩ hcalls
    exact ⟨hall.ids, hall.args, hall.nameSent, hall.toolCalls⟩

/-! #### Tool calls -/

/-- The identifiers with one more. -/
def addID (ids : List String) (callID : String) : List String :=
  if callID ∈ ids then ids else ids ++ [callID]

theorem mem_addID {ids : List String} {callID k : String} :
    k ∈ addID ids callID ↔ k ∈ ids ∨ k = callID := by
  rw [addID]
  split
  · rename_i hmem
    exact ⟨.inl, fun h => h.elim id fun heq => heq ▸ hmem⟩
  · rw [List.mem_append, List.mem_singleton]

theorem addID_of_mem {ids : List String} {callID : String} (h : callID ∈ ids) :
    addID ids callID = ids := if_pos h

/-- A piece of a call that is sent. -/
structure CallSent (s s' : ResponsesChatState) (callID name argsDelta : String) : Prop where
  running : s'.sentStop = s.sentStop
  text : s'.outputText = s.outputText
  args : s'.toolCallArgsByID = s.toolCallArgsByID
  canonical : s'.toolCallCanonicalIDByItemID = s.toolCallCanonicalIDByItemID
  nameSent : ∀ k ≠ callID, s'.toolCallNameSent k = s.toolCallNameSent k
  saw : s'.sawToolCall = true
  ids : s'.toolCallIDs = addID s.toolCallIDs callID
  contents : NewApi.contents s'.sent = NewApi.contents s.sent
  finish : lastFinish "" s'.sent = lastFinish "" s.sent
  toolCalls : NewApi.toolCalls s'.sent =
    addPiece (NewApi.toolCalls s.sent) ((addID s.toolCallIDs callID).idxOf callID)
      ⟨some ((addID s.toolCallIDs callID).idxOf callID), callID, name, argsDelta⟩

theorem sendToolCallDelta_of_empty (name argsDelta : String) (s : ResponsesChatState) :
    s.sendToolCallDelta responseId "" name argsDelta = s := if_pos rfl

theorem sendToolCallDelta_of_text (callID name argsDelta : String) (htext : s.outputText ≠ "") :
    s.sendToolCallDelta responseId callID name argsDelta = s := by
  by_cases hid : callID = ""
  · rw [hid, sendToolCallDelta_of_empty]
  · rw [sendToolCallDelta, if_neg hid, if_pos htext]

/-- The name that is sent with a piece of a call. -/
def sentName (s : ResponsesChatState) (callID name : String) : String :=
  let toolCallNameByID :=
    if name ≠ "" then Function.update s.toolCallNameByID callID name else s.toolCallNameByID
  let name := if toolCallNameByID callID ≠ "" then toolCallNameByID callID else name
  if name ≠ "" ∧ ¬ s.toolCallNameSent callID then name else ""

theorem sentName_of_new {callID name : String} (hname : name ≠ "")
    (hsent : s.toolCallNameSent callID = false) : s.sentName callID name = name := by
  simp [sentName, hname, hsent]

/-- A piece of a call is sent if there is no text, with its name if that has not been sent. -/
theorem callSent {callID name argsDelta : String} (hid : callID ≠ "") (htext : s.outputText = "") :
    CallSent s (s.sendToolCallDelta responseId callID name argsDelta) callID
      (s.sentName callID name) argsDelta := by
  obtain ⟨hcontents, hcalls, hfinish⟩ := @sendStartIfNeeded_sent responseId s
  obtain ⟨sentStart, sent, heq⟩ := @sendStartIfNeeded_same responseId s
  rw [heq] at hcontents hcalls hfinish
  rw [sendToolCallDelta, if_neg hid, if_neg (not_not.2 htext), heq]
  refine ⟨rfl, rfl, rfl, rfl, fun k hk => ?_, rfl, rfl, ?_, ?_, ?_⟩
  · have hother : ∀ sendsName : Bool, (if sendsName then
        Function.update s.toolCallNameSent callID true else s.toolCallNameSent) k =
          s.toolCallNameSent k := by
      intro sendsName
      cases sendsName with
      | false => rfl
      | true => exact Function.update_of_ne hk _ _
    exact hother _
  · dsimp only
    rw [contents_concat]
    exact String.append_empty.trans hcontents
  · dsimp only
    rw [lastFinish_concat]
    exact hfinish
  · dsimp only
    rw [toolCalls_concat, hcalls]
    simp only [addPieces, ToolCallResponse.offset, Option.getD_some, addID, sentName,
      decide_eq_true_eq]

/-- A piece of a call goes to the call under its index. -/
theorem Sound.addPiece (h : Sound s) (callID name argsDelta : String) :
    let ids := addID s.toolCallIDs callID
    let calls := NewApi.addPiece (toolCalls s.sent) (ids.idxOf callID)
      ⟨some (ids.idxOf callID), callID, name, argsDelta⟩
    Keyed.keys calls = (List.range ids.length).map Int.ofNat ∧
      (Keyed.values calls).map ToolCallRequest.id = ids := by
  intro ids calls
  by_cases hmem : callID ∈ s.toolCallIDs
  · have hids : ids = s.toolCallIDs := addID_of_mem hmem
    have hkey : ((ids.idxOf callID : ℕ) : ℤ) ∈ Keyed.keys (toolCalls s.sent) := by
      rw [h.keys, hids]
      exact List.mem_map_of_mem (List.mem_range.2 (List.idxOf_lt_length_of_mem hmem))
    have hcalls : calls = Keyed.update (ids.idxOf callID : ℤ) (ToolCallRequest.append argsDelta)
        (toolCalls s.sent) := if_pos hkey
    have hid : ∀ call : ToolCallRequest, (call.append argsDelta).id = call.id := fun _ => rfl
    rw [hcalls, hids]
    exact ⟨(Keyed.keys_update _ _ _).trans h.keys,
      (Keyed.map_values_update _ hid _).trans h.ids⟩
  · have hids : ids = s.toolCallIDs ++ [callID] := if_neg hmem
    have hidx : ids.idxOf callID = s.toolCallIDs.length := by
      rw [hids, List.idxOf_append_of_notMem hmem]
      simp
    have hkey : ((ids.idxOf callID : ℕ) : ℤ) ∉ Keyed.keys (toolCalls s.sent) := by
      rw [h.keys, hidx]
      simp
    have hcalls : calls = toolCalls s.sent ++
        [((ids.idxOf callID : ℤ), ⟨callID, name, argsDelta⟩)] := if_neg hkey
    rw [hcalls, hidx, hids]
    constructor
    · have hkeys := h.keys
      rw [Keyed.keys] at hkeys
      simp [Keyed.keys, hkeys, List.range_succ]
    · have hvalues := h.ids
      rw [Keyed.values] at hvalues
      simp [Keyed.values, hvalues]

/-- Sending a piece of a call keeps the client's calls sound. -/
theorem Sound.callSent (h : Sound s) {s' : ResponsesChatState} {callID name argsDelta : String}
    (hsent : CallSent s s' callID name argsDelta) : Sound s' := by
  refine ⟨hsent.running.trans h.running, ?_, hsent.finish.trans h.finish, ?_, ?_, ?_, ?_, ?_⟩
  · rw [hsent.contents, h.contents, hsent.text]
  · rw [hsent.toolCalls, hsent.ids]
    exact (h.addPiece callID name argsDelta).1
  · rw [hsent.toolCalls, hsent.ids]
    exact (h.addPiece callID name argsDelta).2
  · rw [hsent.ids, addID]
    split
    · exact h.nodup
    · rename_i hmem
      exact List.nodup_append.2 ⟨h.nodup, List.nodup_singleton _, fun x hx y hy =>
        fun heq => hmem (List.mem_singleton.1 hy ▸ heq ▸ hx)⟩
  · rw [hsent.saw]
    have hmem : callID ∈ s'.toolCallIDs := hsent.ids ▸ mem_addID.2 (.inr rfl)
    exact ⟨fun _ => List.ne_nil_of_mem hmem, fun _ => rfl⟩
  · rw [hsent.canonical]
    exact h.canonical

/-- What a piece of a call changes, whether or not it is sent. -/
theorem Sound.sendToolCallDelta (h : Sound s) (callID name argsDelta : String) :
    Sound (s.sendToolCallDelta responseId callID name argsDelta) ∧
      (s.sendToolCallDelta responseId callID name argsDelta).outputText = s.outputText ∧
      (s.sendToolCallDelta responseId callID name argsDelta).toolCallCanonicalIDByItemID =
        s.toolCallCanonicalIDByItemID ∧
      (s.sendToolCallDelta responseId callID name argsDelta).toolCallIDs =
        if s.outputText = "" ∧ callID ≠ "" then addID s.toolCallIDs callID
        else s.toolCallIDs := by
  by_cases hid : callID = ""
  · subst hid
    rw [sendToolCallDelta_of_empty, if_neg fun hopen => hopen.2 rfl]
    exact ⟨h, rfl, rfl, rfl⟩
  · by_cases htext : s.outputText = ""
    · have hsent := @ResponsesChatState.callSent responseId s callID name argsDelta hid htext
      rw [if_pos ⟨htext, hid⟩]
      exact ⟨h.callSent hsent, hsent.text, hsent.canonical, hsent.ids⟩
    · rw [sendToolCallDelta_of_text _ _ _ htext, if_neg fun hopen => htext hopen.1]
      exact ⟨h, rfl, rfl, rfl⟩

/-- The same when names, arguments or identifiers have been noted before. -/
theorem Sound.sendNoted (h : Sound s) (canonical nameByID argsByID : String → String)
    (hcanonical : canonical "" = s.toolCallCanonicalIDByItemID "")
    (callID name argsDelta : String) :
    let s' := ({ s with
      toolCallCanonicalIDByItemID := canonical
      toolCallNameByID := nameByID
      toolCallArgsByID := argsByID }).sendToolCallDelta responseId callID name argsDelta
    Sound s' ∧ s'.outputText = s.outputText ∧ s'.toolCallCanonicalIDByItemID = canonical ∧
      s'.toolCallIDs =
        if s.outputText = "" ∧ callID ≠ "" then addID s.toolCallIDs callID
        else s.toolCallIDs := by
  have hnoted : Sound { s with
      toolCallCanonicalIDByItemID := canonical
      toolCallNameByID := nameByID
      toolCallArgsByID := argsByID } :=
    ⟨h.running, h.contents, h.finish, h.keys, h.ids, h.nodup, h.saw,
      hcanonical.trans h.canonical⟩
  exact @Sound.sendToolCallDelta responseId _ hnoted callID name argsDelta

end ResponsesChatState

theorem ResponsesOutput.key_of_id {item : ResponsesOutput} (hid : trimSpace item.id ≠ "") :
    item.key ≠ "" := by
  rw [ResponsesOutput.key]
  split
  · exact hid
  · assumption

namespace ResponsesChatState

variable {responseId : String} {s : ResponsesChatState}

/-- The state after an item has been noted, before its piece is sent. -/
theorem receiveItem_eq {item : ResponsesOutput} (htype : item.type = "function_call") :
    ∃ canonical nameByID, s.receiveItem responseId item =
      ({ s with
        toolCallCanonicalIDByItemID := canonical
        toolCallNameByID := nameByID
        toolCallArgsByID :=
          if item.arguments ≠ "" then
            Function.update s.toolCallArgsByID item.key item.arguments
          else s.toolCallArgsByID }).sendToolCallDelta responseId item.key (trimSpace item.name)
        (if item.arguments ≠ "" then
          argumentsDelta (s.toolCallArgsByID item.key) item.arguments
        else "") ∧
      canonical "" = s.toolCallCanonicalIDByItemID "" ∧
      (trimSpace item.id ≠ "" → canonical (trimSpace item.id) = item.key) := by
  rw [receiveItem, if_neg (not_not.2 htype)]
  refine ⟨_, _, rfl, ?_, fun hid => ?_⟩
  · split
    · rename_i hboth
      exact Function.update_of_ne (Ne.symm hboth.1) _ _
    · rfl
  · rw [if_pos ⟨hid, ResponsesOutput.key_of_id hid⟩, Function.update_self]

/-- The canonical identifier of a call that has been added. -/
def Canonical (s : ResponsesChatState) (item : ResponsesOutput) : Prop :=
  trimSpace item.id ≠ "" → s.toolCallCanonicalIDByItemID (trimSpace item.id) = item.key

/-- A call that is added or done. -/
theorem Sound.receiveItem (h : Sound s) {item : ResponsesOutput}
    (htype : item.type = "function_call") :
    Sound (s.receiveItem responseId item) ∧
      (s.receiveItem responseId item).outputText = s.outputText ∧
      (s.receiveItem responseId item).Canonical item ∧
      (s.receiveItem responseId item).toolCallIDs =
        if s.outputText = "" ∧ item.key ≠ "" then addID s.toolCallIDs item.key
        else s.toolCallIDs := by
  obtain ⟨canonical, nameByID, heq, hempty, hcanonical⟩ :=
    @receiveItem_eq responseId s item htype
  rw [heq]
  obtain ⟨hsound, htext, hsame, hids⟩ := @Sound.sendNoted responseId s h canonical nameByID
    (if item.arguments ≠ "" then Function.update s.toolCallArgsByID item.key item.arguments
      else s.toolCallArgsByID) hempty item.key (trimSpace item.name)
    (if item.arguments ≠ "" then argumentsDelta (s.toolCallArgsByID item.key) item.arguments
      else "")
  refine ⟨hsound, htext, fun hid => ?_, hids⟩
  rw [hsame]
  exact hcanonical hid

/-- A piece of arguments that comes for a call. -/
theorem receive_argumentsDelta (h : Sound s) {item : ResponsesOutput} (hcanonical : s.Canonical item)
    (delta : String) :
    s.receive responseId (.functionCallArgumentsDelta item.id delta) =
      if trimSpace item.id = "" then s
      else
        ({ s with toolCallArgsByID :=
            Function.update s.toolCallArgsByID item.key (s.toolCallArgsByID item.key ++ delta)
          }).sendToolCallDelta responseId item.key "" delta := by
  by_cases hid : trimSpace item.id = ""
  · rw [if_pos hid]
    simp only [receive, hid, h.canonical, if_true]
  · have hkey := ResponsesOutput.key_of_id hid
    rw [if_neg hid]
    simp only [receive, hcanonical hid, if_neg hkey]

/-- The pieces of arguments of a call that has its index, or is not to be sent. -/
theorem Sound.pieces (h : Sound s) {item : ResponsesOutput} (hcanonical : s.Canonical item)
    (hopen : s.outputText = "" → item.key ≠ "" → item.key ∈ s.toolCallIDs) (pieces : List String) :
    let s' := (pieces.map (.functionCallArgumentsDelta item.id)).foldl (receive responseId) s
    Sound s' ∧ s'.outputText = s.outputText ∧ s'.Canonical item ∧
      s'.toolCallIDs = s.toolCallIDs := by
  induction pieces generalizing s with
  | nil => exact ⟨h, rfl, hcanonical, rfl⟩
  | cons piece rest ih =>
    rw [List.map_cons, List.foldl_cons, receive_argumentsDelta h hcanonical]
    by_cases hid : trimSpace item.id = ""
    · rw [if_pos hid]
      exact ih h hcanonical hopen
    · rw [if_neg hid]
      obtain ⟨hsound, htext, hsame, hids⟩ := @Sound.sendNoted responseId s h
        s.toolCallCanonicalIDByItemID s.toolCallNameByID
        (Function.update s.toolCallArgsByID item.key (s.toolCallArgsByID item.key ++ piece)) rfl
        item.key "" piece
      have hknown : (if s.outputText = "" ∧ item.key ≠ "" then addID s.toolCallIDs item.key
          else s.toolCallIDs) = s.toolCallIDs := by
        split
        · rename_i hboth
          exact addID_of_mem (hopen hboth.1 hboth.2)
        · rfl
      rw [hknown] at hids
      obtain ⟨hsound', htext', hcanonical', hids''⟩ := ih hsound
        (fun hne => (congrFun hsame _).trans (hcanonical hne))
        (fun hempty hkey => by
          rw [hids]
          exact hopen (htext.symm.trans hempty) hkey)
      exact ⟨hsound', htext'.trans htext, hcanonical', hids''.trans hids⟩

/-! #### Items -/

theorem Sound.texts (h : Sound s) (pieces : List String) :
    let s' := (pieces.map .outputTextDelta).foldl (receive responseId) s
    Sound s' ∧ SameCalls s s' ∧ s'.outputText = s.outputText ++ String.join pieces := by
  induction pieces generalizing s with
  | nil => exact ⟨h, .refl s, String.append_empty.symm⟩
  | cons piece rest ih =>
    obtain ⟨hsound, hcalls, htext⟩ := @Sound.textDelta responseId s h piece
    obtain ⟨hsound', hcalls', htext'⟩ := ih hsound
    refine ⟨hsound', hcalls.trans hcalls', htext'.trans ?_⟩
    rw [htext, String.join_cons, String.append_assoc]

theorem Sound.summary (h : Sound s) (summary : List (List String)) :
    let s' := (summary.flatMap fun pieces =>
      pieces.map ResponsesStreamEvent.reasoningSummaryTextDelta ++
        [ResponsesStreamEvent.reasoningSummaryTextDone]).foldl
        (receive responseId) s
    Sound s' ∧ SameCalls s s' ∧ s'.outputText = s.outputText := by
  induction summary generalizing s with
  | nil => exact ⟨h, .refl s, rfl⟩
  | cons pieces rest ih =>
    have hpieces : ∀ (pieces : List String) {s : ResponsesChatState}, Sound s →
        let s' := (pieces.map .reasoningSummaryTextDelta).foldl (receive responseId) s
        Sound s' ∧ SameCalls s s' ∧ s'.outputText = s.outputText := by
      intro pieces
      induction pieces with
      | nil => exact fun {s} h => ⟨h, .refl s, rfl⟩
      | cons piece rest ih =>
        intro s h
        obtain ⟨hsound, hcalls, htext⟩ := @Sound.summaryDelta responseId s h piece
        obtain ⟨hsound', hcalls', htext'⟩ := ih hsound
        exact ⟨hsound', hcalls.trans hcalls', htext'.trans htext⟩
    have hdone : ∀ {s : ResponsesChatState}, Sound s →
        Sound (s.receive responseId .reasoningSummaryTextDone) ∧
          SameCalls s (s.receive responseId .reasoningSummaryTextDone) ∧
          (s.receive responseId .reasoningSummaryTextDone).outputText = s.outputText := by
      intro s h
      simp only [receive]
      split
      · exact ⟨⟨h.running, h.contents, h.finish, h.keys, h.ids, h.nodup, h.saw, h.canonical⟩,
          ⟨rfl, rfl, rfl, rfl⟩, rfl⟩
      · exact ⟨h, .refl s, rfl⟩
    obtain ⟨hsound, hcalls, htext⟩ := hpieces pieces h
    obtain ⟨hsound', hcalls', htext'⟩ := hdone hsound
    obtain ⟨hsound'', hcalls'', htext''⟩ := ih hsound'
    rw [List.flatMap_cons, List.foldl_append, List.foldl_append]
    exact ⟨hsound'', (hcalls.trans hcalls').trans hcalls'',
      (htext''.trans htext').trans htext⟩

theorem receiveItem_of_other {item : ResponsesOutput} (htype : item.type ≠ "function_call") :
    s.receiveItem responseId item = s := if_pos htype

/-- **What the events of an item change**: the text grows by the item's text, and a call with an
identifier gets an index if there is no text. -/
theorem Sound.item (h : Sound s) {cut : CutItem} (hcut : cut.WellCut) :
    let s' := cut.events.foldl (receive responseId) s
    Sound s' ∧ s'.outputText = s.outputText ++ cut.item.streamText ∧
      s'.toolCallIDs =
        if s.outputText = "" ∧ cut.item.HasKey then addID s.toolCallIDs cut.item.key
        else s.toolCallIDs := by
  simp only [CutItem.events, List.foldl_cons, List.foldl_append, List.foldl_nil]
  by_cases hmessage : cut.item.type = "message"
  · have hother : cut.item.type ≠ "function_call" := by
      rw [hmessage]
      decide
    obtain ⟨hsound, hcalls, htext⟩ := @Sound.texts responseId s h cut.pieces
    rw [CutItem.WellCut, if_pos hmessage] at hcut
    simp only [receive, CutItem.deltas, if_pos hmessage]
    rw [receiveItem_of_other (show cut.added.type ≠ _ from hother), receiveItem_of_other hother,
      ResponsesOutput.streamText, if_pos hmessage, if_neg fun hboth => hother hboth.2.1, ← hcut]
    exact ⟨hsound, htext, hcalls.ids⟩
  · rw [ResponsesOutput.streamText, if_neg hmessage, String.append_empty]
    by_cases hcall : cut.item.type = "function_call"
    · simp only [receive, CutItem.deltas, if_neg hmessage, if_pos hcall, List.foldl_append,
        List.foldl_cons, List.foldl_nil]
      obtain ⟨hsound, htext, hcanonical, hids⟩ := @Sound.receiveItem responseId s h
        cut.added hcall
      obtain ⟨hsound', htext', _, hids'⟩ := @Sound.pieces responseId _ hsound cut.item hcanonical
        (fun hempty hkey => by
          rw [hids, if_pos ⟨htext.symm.trans hempty, hkey⟩]
          exact mem_addID.2 (.inr rfl)) cut.pieces
      obtain ⟨hsound'', htext'', _, hids''⟩ := @Sound.receiveItem responseId _ hsound' cut.item hcall
      refine ⟨hsound'', (htext''.trans htext').trans htext, hids''.trans ?_⟩
      have hkey : cut.added.key = cut.item.key := rfl
      rw [htext', htext, hids', hids, hkey]
      by_cases hopen : s.outputText = "" ∧ cut.item.key ≠ ""
      · rw [if_pos hopen, if_pos hopen, if_pos ⟨hopen.1, hcall, hopen.2⟩]
        exact addID_of_mem (mem_addID.2 (.inr rfl))
      · rw [if_neg hopen, if_neg hopen, if_neg fun hboth => hopen ⟨hboth.1, hboth.2.2⟩]
    · obtain ⟨hsound, hcalls, htext⟩ := @Sound.summary responseId s h cut.summary
      simp only [receive, CutItem.deltas, if_neg hmessage, if_neg hcall]
      rw [receiveItem_of_other (show cut.added.type ≠ _ from hcall), receiveItem_of_other hcall,
        if_neg fun hboth => hcall hboth.2.1]
      exact ⟨hsound, htext, hcalls.ids⟩

/-- **What the events of the items change**: the text grows by theirs, and the calls with an
identifier that come before a text get an index. -/
theorem Sound.items (h : Sound s) {cuts : List CutItem} (hcuts : ∀ cut ∈ cuts, cut.WellCut) :
    let s' := (cuts.flatMap CutItem.events).foldl (receive responseId) s
    let output := cuts.map CutItem.item
    Sound s' ∧ s'.outputText = s.outputText ++ streamTexts output ∧
      ∀ k, k ∈ s'.toolCallIDs ↔ k ∈ s.toolCallIDs ∨ (s.outputText = "" ∧
        ∃ out ∈ output.takeWhile fun out => out.streamText = "", out.HasKey ∧ out.key = k) := by
  induction cuts generalizing s with
  | nil => exact ⟨h, String.append_empty.symm, fun k => by simp⟩
  | cons cut rest ih =>
    obtain ⟨hsound, htext, hids⟩ := @Sound.item responseId s h cut (hcuts cut List.mem_cons_self)
    obtain ⟨hsound', htext', hids'⟩ := ih hsound fun cut' hcut' =>
      hcuts cut' (List.mem_cons_of_mem _ hcut')
    rw [List.flatMap_cons, List.foldl_append]
    refine ⟨hsound', ?_, fun k => ?_⟩
    · rw [htext', htext, List.map_cons, streamTexts, streamTexts, List.map_cons, String.join_cons,
        String.append_assoc]
    · rw [hids' k, hids, htext, String.append_eq_empty_iff, List.map_cons, List.takeWhile_cons]
      by_cases hempty : cut.item.streamText = ""
      · simp only [hempty, decide_true, if_true, List.exists_mem_cons_iff, and_true]
        generalize (∃ out ∈ (rest.map CutItem.item).takeWhile fun out => out.streamText = "",
          out.HasKey ∧ out.key = k) = later
        by_cases hboth : s.outputText = "" ∧ cut.item.HasKey
        · rw [if_pos hboth, mem_addID, or_assoc]
          refine or_congr_right ⟨fun h => ⟨hboth.1, ?_⟩, fun h => ?_⟩
          · exact h.elim (fun heq => .inl ⟨hboth.2, heq.symm⟩) fun hlater => .inr hlater.2
          · exact h.2.elim (fun hkey => .inl hkey.2.symm) fun hlater => .inr ⟨h.1, hlater⟩
        · rw [if_neg hboth]
          refine or_congr_right ⟨fun h => ⟨h.1, .inr h.2⟩, fun h => ⟨h.1, ?_⟩⟩
          exact h.2.elim (fun hkey => absurd ⟨h.1, hkey.1⟩ hboth) id
      · have hnokey : ¬ (s.outputText = "" ∧ cut.item.HasKey) := fun hboth => hempty (by
          rw [ResponsesOutput.streamText, if_neg]
          rw [hboth.2.1]
          decide)
        rw [if_neg hnokey]
        simp [hempty]

/-! #### Calls that are sent -/

/-- There is no text, and the last of the client's calls is the given one. -/
structure LastCall (s : ResponsesChatState) (before : List (ℤ × ToolCallRequest))
    (call : ToolCallRequest) : Prop where
  sound : Sound s
  text : s.outputText = ""
  calls : toolCalls s.sent = before ++ [((before.length : ℤ), call)]

/-- What is noted of other calls is the same in two states. -/
def SameElsewhere (callID : String) (s s' : ResponsesChatState) : Prop :=
  ∀ k ≠ callID, s'.toolCallArgsByID k = s.toolCallArgsByID k ∧
    s'.toolCallNameSent k = s.toolCallNameSent k

theorem SameElsewhere.trans {callID : String} {s s' s'' : ResponsesChatState}
    (h : SameElsewhere callID s s') (h' : SameElsewhere callID s' s'') :
    SameElsewhere callID s s'' :=
  fun k hk => ⟨(h' k hk).1.trans (h k hk).1, (h' k hk).2.trans (h k hk).2⟩

variable {before : List (ℤ × ToolCallRequest)} {call : ToolCallRequest}

theorem Sound.length (h : Sound s) : (toolCalls s.sent).length = s.toolCallIDs.length := by
  rw [← h.ids, List.length_map, Keyed.values, List.length_map]

theorem LastCall.ids (h : LastCall s before call) :
    s.toolCallIDs = (Keyed.values before).map ToolCallRequest.id ++ [call.id] := by
  rw [← h.sound.ids, h.calls]
  simp [Keyed.values]

/-- A piece of the last call, when something has been noted before. -/
theorem LastCall.sendNoted (h : LastCall s before call) (hid : call.id ≠ "")
    (canonical nameByID argsByID : String → String)
    (hcanonical : canonical "" = s.toolCallCanonicalIDByItemID "") (name argsDelta : String) :
    let s' := ({ s with
      toolCallCanonicalIDByItemID := canonical
      toolCallNameByID := nameByID
      toolCallArgsByID := argsByID }).sendToolCallDelta responseId call.id name argsDelta
    LastCall s' before (call.append argsDelta) ∧ s'.toolCallArgsByID = argsByID ∧
      s'.toolCallCanonicalIDByItemID = canonical ∧
      ∀ k ≠ call.id, s'.toolCallNameSent k = s.toolCallNameSent k := by
  intro s'
  have hsent := @callSent responseId { s with
      toolCallCanonicalIDByItemID := canonical
      toolCallNameByID := nameByID
      toolCallArgsByID := argsByID } call.id name argsDelta hid h.text
  have hnoted := @Sound.sendNoted responseId s h.sound canonical nameByID argsByID hcanonical
    call.id name argsDelta
  have hidx : (addID s.toolCallIDs call.id).idxOf call.id = before.length := by
    have hnodup := h.sound.nodup
    rw [h.ids, List.nodup_append] at hnodup
    have hnew : call.id ∉ (Keyed.values before).map ToolCallRequest.id := fun hmem =>
      hnodup.2.2 _ hmem _ (List.mem_singleton.2 rfl) rfl
    rw [h.ids, addID_of_mem (List.mem_append_right _ (List.mem_singleton.2 rfl)),
      List.idxOf_append_of_notMem hnew]
    simp [Keyed.values]
  have hkey : (before.length : ℤ) ∉ Keyed.keys before := by
    have hnodup : (Keyed.keys (toolCalls s.sent)).Nodup := by
      rw [h.sound.keys]
      exact List.nodup_range.map Int.ofNat_injective
    rw [h.calls, Keyed.keys, List.map_append, List.nodup_append] at hnodup
    exact fun hmem => hnodup.2.2 _ hmem _ (List.mem_singleton.2 rfl) rfl
  refine ⟨⟨hnoted.1, hsent.text.trans h.text, ?_⟩, hsent.args, hsent.canonical, hsent.nameSent⟩
  have hcalls := hsent.toolCalls
  dsimp only at hcalls
  rw [hidx, h.calls, NewApi.addPiece, if_pos (by simp [Keyed.keys]),
    Keyed.update_concat _ _ hkey] at hcalls
  exact hcalls

/-- The first piece of a call with a name, when something has been noted before. -/
theorem Sound.firstCall (h : Sound s) (htext : s.outputText = "") {callID name : String}
    (hid : callID ≠ "") (hname : name ≠ "") (hnew : callID ∉ s.toolCallIDs)
    (hsent : s.toolCallNameSent callID = false) (canonical nameByID argsByID : String → String)
    (hcanonical : canonical "" = s.toolCallCanonicalIDByItemID "") (argsDelta : String) :
    let s' := ({ s with
      toolCallCanonicalIDByItemID := canonical
      toolCallNameByID := nameByID
      toolCallArgsByID := argsByID }).sendToolCallDelta responseId callID name argsDelta
    LastCall s' (toolCalls s.sent) ⟨callID, name, argsDelta⟩ ∧ s'.toolCallArgsByID = argsByID ∧
      s'.toolCallCanonicalIDByItemID = canonical ∧
      ∀ k ≠ callID, s'.toolCallNameSent k = s.toolCallNameSent k := by
  intro s'
  have hcall := @ResponsesChatState.callSent responseId { s with
      toolCallCanonicalIDByItemID := canonical
      toolCallNameByID := nameByID
      toolCallArgsByID := argsByID } callID name argsDelta hid htext
  have hnoted := @Sound.sendNoted responseId s h canonical nameByID argsByID hcanonical
    callID name argsDelta
  have hidx : (addID s.toolCallIDs callID).idxOf callID = (toolCalls s.sent).length := by
    rw [addID, if_neg hnew, List.idxOf_append_of_notMem hnew, h.length]
    simp
  refine ⟨⟨hnoted.1, hcall.text.trans htext, ?_⟩, hcall.args, hcall.canonical, hcall.nameSent⟩
  have hcalls := hcall.toolCalls
  dsimp only at hcalls
  have hsentName := @sentName_of_new { s with
      toolCallCanonicalIDByItemID := canonical
      toolCallNameByID := nameByID
      toolCallArgsByID := argsByID } callID name hname hsent
  rw [hidx, NewApi.addPiece, if_neg, hsentName] at hcalls
  · exact hcalls
  · rw [h.keys, h.length]
    simp

/-- A text that is what has come before and more. -/
theorem argumentsDelta_append (prevArgs more : String) :
    argumentsDelta prevArgs (prevArgs ++ more) = more := by
  have hprefix : hasPrefix (prevArgs ++ more) prevArgs = true := by
    rw [hasPrefix, List.isPrefixOf_iff_prefix, String.toList_append]
    exact List.prefix_append _ _
  rw [argumentsDelta, if_pos hprefix, String.toList_append, List.drop_left, String.ofList_toList]

theorem append_empty (call : ToolCallRequest) : call.append "" = call := by
  rw [ToolCallRequest.append, String.append_empty]

theorem append_append (call : ToolCallRequest) (a b : String) :
    (call.append a).append b = call.append (a ++ b) := by
  simp only [ToolCallRequest.append, String.append_assoc]

/-- Pieces of arguments are lost if the item has no identifier. -/
theorem pieces_lost (h : Sound s) {item : ResponsesOutput} (hcanonical : s.Canonical item)
    (hitem : trimSpace item.id = "") (pieces : List String) :
    (pieces.map (.functionCallArgumentsDelta item.id)).foldl (receive responseId) s = s := by
  induction pieces with
  | nil => rfl
  | cons piece rest ih =>
    rw [List.map_cons, List.foldl_cons, receive_argumentsDelta h hcanonical, if_pos hitem]
    exact ih

/-- The pieces of the last call's arguments. -/
theorem LastCall.pieces (h : LastCall s before call) {item : ResponsesOutput}
    (hid : call.id ≠ "") (hkey : item.key = call.id) (hcanonical : s.Canonical item)
    (pieces : List String) :
    let s' := (pieces.map (.functionCallArgumentsDelta item.id)).foldl (receive responseId) s
    let got := if trimSpace item.id = "" then "" else String.join pieces
    LastCall s' before (call.append got) ∧
      s'.toolCallArgsByID call.id = s.toolCallArgsByID call.id ++ got ∧
      SameElsewhere call.id s s' := by
  by_cases hitem : trimSpace item.id = ""
  · have hlost := @pieces_lost responseId s h.sound item hcanonical hitem pieces
    rw [hlost, if_pos hitem]
    dsimp only
    rw [append_empty, String.append_empty]
    exact ⟨h, rfl, fun k _ => ⟨rfl, rfl⟩⟩
  · rw [if_neg hitem]
    dsimp only
    induction pieces generalizing s call with
    | nil =>
      rw [String.join_nil, append_empty, String.append_empty]
      exact ⟨h, rfl, fun k _ => ⟨rfl, rfl⟩⟩
    | cons piece rest ih =>
      rw [List.map_cons, List.foldl_cons, receive_argumentsDelta h.sound hcanonical,
        if_neg hitem, hkey]
      obtain ⟨hlast, hargs, hsame, hnames⟩ := @LastCall.sendNoted responseId s before call h hid
        s.toolCallCanonicalIDByItemID s.toolCallNameByID
        (Function.update s.toolCallArgsByID call.id (s.toolCallArgsByID call.id ++ piece)) rfl
        "" piece
      obtain ⟨hlast', hargs', helse'⟩ := ih hlast hid hkey fun hne =>
        (congrFun hsame _).trans (hcanonical hne)
      rw [append_append, ← String.join_cons] at hlast'
      refine ⟨hlast', ?_, SameElsewhere.trans (fun k hk => ⟨?_, hnames k hk⟩) helse'⟩
      · rw [String.join_cons, ← String.append_assoc]
        refine hargs'.trans (congrArg (· ++ String.join rest) ?_)
        exact (congrFun hargs _).trans (Function.update_self ..)
      · exact (congrFun hargs k).trans (Function.update_of_ne hk _ _)

/-- **A call with a name and a new identifier** reaches the client with its arguments. -/
theorem Sound.namedCall (h : Sound s) (htext : s.outputText = "") {cut : CutItem}
    (hcut : cut.WellCut) (hname : cut.item.HasName) (hkey : cut.item.HasKey)
    (hnew : cut.item.key ∉ s.toolCallIDs) (hargs : s.toolCallArgsByID cut.item.key = "")
    (hsent : s.toolCallNameSent cut.item.key = false) :
    let s' := cut.events.foldl (receive responseId) s
    LastCall s' (toolCalls s.sent) ⟨cut.item.key, trimSpace cut.item.name, cut.item.arguments⟩ ∧
      SameElsewhere cut.item.key s s' := by
  have hcall := hkey.1
  have hmessage : cut.item.type ≠ "message" := by
    rw [hcall]
    decide
  rw [CutItem.WellCut, if_neg hmessage, if_pos hcall] at hcut
  simp only [CutItem.events, CutItem.deltas, if_neg hmessage, if_pos hcall, List.foldl_cons,
    List.foldl_append, List.foldl_nil, receive]
  -- the item is added
  obtain ⟨canonical, nameByID, heq, hempty, hcanonical⟩ :=
    @receiveItem_eq responseId s cut.added hcall
  have hadded : cut.added.key = cut.item.key ∧ cut.added.name = cut.item.name ∧
      cut.added.arguments = cut.start ∧ cut.added.id = cut.item.id := ⟨rfl, rfl, rfl, rfl⟩
  rw [hadded.1, hadded.2.1, hadded.2.2.1] at heq
  rw [hadded.2.2.2] at hcanonical
  have hstart : (if cut.start ≠ "" then
      argumentsDelta (s.toolCallArgsByID cut.item.key) cut.start else "") = cut.start := by
    split
    · have happend := argumentsDelta_append "" cut.start
      rwa [String.empty_append, ← hargs] at happend
    · rename_i hnone
      exact (not_not.1 hnone).symm
  rw [hstart] at heq
  obtain ⟨hlast, hargs₁, hcanonical₁, hnames₁⟩ := @Sound.firstCall responseId s h htext
    cut.item.key (trimSpace cut.item.name) hkey.2 hname.2 hnew hsent canonical nameByID
    (if cut.start ≠ "" then Function.update s.toolCallArgsByID cut.item.key cut.start
      else s.toolCallArgsByID) hempty cut.start
  rw [← heq] at hlast hargs₁ hcanonical₁ hnames₁
  have hkeyArgs₁ : (s.receiveItem responseId cut.added).toolCallArgsByID cut.item.key =
      cut.start := by
    rw [hargs₁]
    split
    · exact Function.update_self ..
    · rename_i hnone
      rw [hargs, not_not.1 hnone]
  have helse₁ : SameElsewhere cut.item.key s (s.receiveItem responseId cut.added) := by
    intro k hk
    refine ⟨?_, hnames₁ k hk⟩
    rw [hargs₁]
    split
    · exact Function.update_of_ne hk _ _
    · rfl
  -- its arguments come
  obtain ⟨hlast₂, hargs₂, helse₂⟩ := @LastCall.pieces responseId _ _ _ hlast cut.item
    (by dsimp only; exact hkey.2) (by with_reducible rfl) (fun hne => (congrFun hcanonical₁ _).trans (hcanonical hne)) cut.pieces
  dsimp only at hlast₂ hargs₂ helse₂
  rw [hkeyArgs₁] at hargs₂
  generalize (cut.pieces.map (ResponsesStreamEvent.functionCallArgumentsDelta cut.item.id)).foldl
    (receive responseId) (s.receiveItem responseId cut.added) = s₂ at hlast₂ hargs₂ helse₂ ⊢
  -- it is done
  obtain ⟨more, hmore⟩ : ∃ more, cut.item.arguments =
      cut.start ++ (if trimSpace cut.item.id = "" then "" else String.join cut.pieces) ++ more := by
    by_cases hitem : trimSpace cut.item.id = ""
    · refine ⟨String.join cut.pieces, ?_⟩
      rw [if_pos hitem, String.append_empty, hcut]
    · refine ⟨"", ?_⟩
      rw [if_neg hitem, String.append_empty, hcut]
  obtain ⟨canonical', nameByID', heq', hempty', _⟩ := @receiveItem_eq responseId s₂ cut.item hcall
  have hdone : (if cut.item.arguments ≠ "" then
      argumentsDelta (s₂.toolCallArgsByID cut.item.key) cut.item.arguments else "") = more := by
    rw [hargs₂]
    split
    · rw [hmore, argumentsDelta_append]
    · rename_i hnone
      rw [not_not.1 hnone, eq_comm, String.append_eq_empty_iff] at hmore
      exact hmore.2.symm
  rw [hdone] at heq'
  obtain ⟨hlast₃, hargs₃, _, hnames₃⟩ := @LastCall.sendNoted responseId s₂ _ _ hlast₂
    (by dsimp only [ToolCallRequest.append]; exact hkey.2)
    canonical' nameByID'
    (if cut.item.arguments ≠ "" then
      Function.update s₂.toolCallArgsByID cut.item.key cut.item.arguments
    else s₂.toolCallArgsByID) hempty' (trimSpace cut.item.name) more
  have hcallID : (ToolCallRequest.append
      (if trimSpace cut.item.id = "" then "" else String.join cut.pieces)
      ⟨cut.item.key, trimSpace cut.item.name, cut.start⟩).id = cut.item.key := by
    dsimp only [ToolCallRequest.append]
  rw [hcallID, ← heq'] at hlast₃ hargs₃ hnames₃
  rw [append_append] at hlast₃
  have hcall : ToolCallRequest.append
      ((if trimSpace cut.item.id = "" then "" else String.join cut.pieces) ++ more)
      ⟨cut.item.key, trimSpace cut.item.name, cut.start⟩ =
      ⟨cut.item.key, trimSpace cut.item.name, cut.item.arguments⟩ := by
    rw [ToolCallRequest.append, hmore, ← String.append_assoc]
  rw [hcall] at hlast₃
  refine ⟨hlast₃, (helse₁.trans helse₂).trans fun k hk => ⟨?_, hnames₃ k hk⟩⟩
  rw [hargs₃]
  split
  · exact Function.update_of_ne hk _ _
  · rfl

/-- An item that is no call with an identifier changes no call. -/
theorem Sound.otherItem (h : Sound s) {cut : CutItem} (hkey : ¬ cut.item.HasKey) :
    let s' := cut.events.foldl (receive responseId) s
    toolCalls s'.sent = toolCalls s.sent ∧ SameElsewhere "" s s' := by
  have hsame : ∀ {s s' : ResponsesChatState}, SameCalls s s' →
      toolCalls s'.sent = toolCalls s.sent ∧ SameElsewhere "" s s' := fun hcalls =>
    ⟨hcalls.toolCalls, fun k _ => ⟨congrFun hcalls.args k, congrFun hcalls.nameSent k⟩⟩
  simp only [CutItem.events, List.foldl_cons, List.foldl_append, List.foldl_nil]
  by_cases hcall : cut.item.type = "function_call"
  · have hempty : cut.item.key = "" := not_not.1 fun hne => hkey ⟨hcall, hne⟩
    have hid : trimSpace cut.item.id = "" :=
      not_not.1 fun hne => ResponsesOutput.key_of_id hne hempty
    have hmessage : cut.item.type ≠ "message" := by
      rw [hcall]
      decide
    have hnoted : ∀ {s : ResponsesChatState} {item : ResponsesOutput},
        item.type = "function_call" → item.key = "" →
        toolCalls (s.receiveItem responseId item).sent = toolCalls s.sent ∧
          SameElsewhere "" s (s.receiveItem responseId item) := by
      intro s item htype hnone
      obtain ⟨canonical, nameByID, heq, _⟩ := @receiveItem_eq responseId s item htype
      rw [hnone, sendToolCallDelta_of_empty] at heq
      rw [heq]
      refine ⟨rfl, fun k hk => ⟨?_, rfl⟩⟩
      dsimp only
      split
      · exact Function.update_of_ne hk _ _
      · rfl
    obtain ⟨hsound, _, hcanonical, _⟩ := @Sound.receiveItem responseId s h cut.added hcall
    have hlost := @pieces_lost responseId _ hsound cut.item hcanonical hid cut.pieces
    obtain ⟨hcalls, helse⟩ := @hnoted s cut.added hcall hempty
    obtain ⟨hcalls', helse'⟩ :=
      @hnoted (s.receiveItem responseId cut.added) cut.item hcall hempty
    simp only [receive, CutItem.deltas, if_neg hmessage, if_pos hcall, List.foldl_append,
      List.foldl_cons, List.foldl_nil, hlost]
    exact ⟨hcalls'.trans hcalls, helse.trans helse'⟩
  · simp only [receive]
    rw [receiveItem_of_other (show cut.added.type ≠ _ from hcall), receiveItem_of_other hcall]
    by_cases hmessage : cut.item.type = "message"
    · rw [CutItem.deltas, if_pos hmessage]
      exact hsame (@Sound.texts responseId s h cut.pieces).2.1
    · rw [CutItem.deltas, if_neg hmessage, if_neg hcall]
      exact hsame (@Sound.summary responseId s h cut.summary).2.1

/-- **Calls with names and different identifiers** all reach the client if there is no text. -/
theorem Sound.namedItems (h : Sound s) (htext : s.outputText = "") {cuts : List CutItem}
    (hcuts : ∀ cut ∈ cuts, cut.WellCut) (hquiet : ∀ cut ∈ cuts, cut.item.streamText = "")
    (hboth : ∀ cut ∈ cuts, cut.item.HasName ↔ cut.item.HasKey)
    (hnodup : (((cuts.map CutItem.item).filter fun out => out.HasName).map
      ResponsesOutput.key).Nodup)
    (hnew : ∀ cut ∈ cuts, cut.item.HasName → cut.item.key ∉ s.toolCallIDs ∧
      s.toolCallArgsByID cut.item.key = "" ∧ s.toolCallNameSent cut.item.key = false) :
    Keyed.values (toolCalls ((cuts.flatMap CutItem.events).foldl (receive responseId) s).sent) =
      Keyed.values (toolCalls s.sent) ++
        (cuts.map CutItem.item).filterMap ResponsesOutput.toolCall := by
  induction cuts generalizing s with
  | nil => exact (List.append_nil _).symm
  | cons cut rest ih =>
    obtain ⟨hcut, hrest⟩ := List.forall_mem_cons.1 hcuts
    obtain ⟨hempty, hquiet'⟩ := List.forall_mem_cons.1 hquiet
    obtain ⟨hsound, htext', hids⟩ := @Sound.item responseId s h cut hcut
    rw [hempty, htext, String.append_empty] at htext'
    rw [List.flatMap_cons, List.foldl_append, List.map_cons, List.filterMap_cons]
    rw [List.map_cons, List.filter_cons] at hnodup
    by_cases hname : cut.item.HasName
    · have hkey := (hboth cut List.mem_cons_self).1 hname
      obtain ⟨hfresh, hargs, hsent⟩ := hnew cut List.mem_cons_self hname
      obtain ⟨hlast, helse⟩ := @Sound.namedCall responseId s h htext cut hcut hname hkey hfresh
        hargs hsent
      rw [if_pos (decide_eq_true hname), List.map_cons, List.nodup_cons] at hnodup
      rw [ih hsound htext' hrest hquiet' (fun cut' hcut' => hboth cut' (List.mem_cons_of_mem _ hcut'))
        hnodup.2 ?_, hlast.calls]
      · have hcall : cut.item.toolCall =
            some ⟨cut.item.key, trimSpace cut.item.name, cut.item.arguments⟩ := by
          rw [ResponsesOutput.toolCall, if_neg (not_not.2 hname.1)]
          exact if_neg hname.2
        simp [Keyed.values, hcall]
      · intro cut' hcut' hname'
        obtain ⟨hfresh', hargs', hsent'⟩ := hnew cut' (List.mem_cons_of_mem _ hcut') hname'
        have hne : cut'.item.key ≠ cut.item.key := fun heq => hnodup.1 (heq ▸
          List.mem_map_of_mem (List.mem_filter.2
            ⟨List.mem_map_of_mem hcut', decide_eq_true hname'⟩))
        refine ⟨?_, (helse _ hne).1.trans hargs', (helse _ hne).2.trans hsent'⟩
        rw [hids, if_pos ⟨htext, hkey⟩, mem_addID]
        exact fun hmem => hmem.elim hfresh' hne
    · have hkey : ¬ cut.item.HasKey := fun hkey => hname ((hboth cut List.mem_cons_self).2 hkey)
      obtain ⟨hcalls, helse⟩ := @Sound.otherItem responseId s h cut hkey
      rw [if_neg (by simpa using hname)] at hnodup
      rw [ih hsound htext' hrest hquiet' (fun cut' hcut' => hboth cut' (List.mem_cons_of_mem _ hcut'))
        hnodup ?_, hcalls]
      · have hcall : cut.item.toolCall = none := by
          rw [ResponsesOutput.toolCall]
          split
          · rfl
          · rename_i htype
            exact if_pos (not_not.1 fun hne => hname ⟨not_not.1 htype, hne⟩)
        rw [hcall]
      · intro cut' hcut' hname'
        obtain ⟨hfresh', hargs', hsent'⟩ := hnew cut' (List.mem_cons_of_mem _ hcut') hname'
        have hne := ((hboth cut' (List.mem_cons_of_mem _ hcut')).1 hname').2
        refine ⟨?_, (helse _ hne).1.trans hargs', (helse _ hne).2.trans hsent'⟩
        rw [hids, if_neg fun hopen => hkey hopen.2]
        exact hfresh'

end ResponsesChatState

/-! ### Texts -/

theorem join_flatMap {α : Type*} (f : α → List String) (xs : List α) :
    String.join (xs.flatMap f) = String.join (xs.map fun x => String.join (f x)) := by
  induction xs with
  | nil => rfl
  | cons x xs ih => rw [List.flatMap_cons, String.join_append, ih, List.map_cons, String.join_cons]

/-- Joined texts of which those on one side are no longer than those on the other. -/
theorem join_map_eq_map_iff {α : Type*} {f g : α → String} {xs : List α}
    (hle : ∀ x ∈ xs, (f x).length ≤ (g x).length ∧ ((f x).length = (g x).length → f x = g x)) :
    String.join (xs.map f) = String.join (xs.map g) ↔ ∀ x ∈ xs, f x = g x := by
  constructor
  · intro heq
    have hlength : ∀ ys : List α, (∀ y ∈ ys, (f y).length ≤ (g y).length) →
        (String.join (ys.map f)).length ≤ (String.join (ys.map g)).length ∧
          ((String.join (ys.map f)).length = (String.join (ys.map g)).length →
            ∀ y ∈ ys, (f y).length = (g y).length) := by
      intro ys hys
      induction ys with
      | nil => exact ⟨le_rfl, fun _ y hy => by cases hy⟩
      | cons y ys ih =>
        obtain ⟨hy, hrest⟩ := List.forall_mem_cons.1 hys
        obtain ⟨hsum, hall⟩ := ih hrest
        rw [List.map_cons, List.map_cons, String.join_cons, String.join_cons,
          String.length_append, String.length_append]
        refine ⟨by omega, fun hsame => ?_⟩
        exact List.forall_mem_cons.2 ⟨by omega, hall (by omega)⟩
    intro x hx
    exact (hle x hx).2 ((hlength xs fun y hy => (hle y hy).1).2 (congrArg String.length heq) x hx)
  · intro hall
    exact congrArg String.join (List.map_congr_left hall)

/-- Texts that are left out of a list show in the length of the joined texts. -/
theorem join_sublist {xs ys : List String} (hsub : xs.Sublist ys) (hys : ∀ y ∈ ys, y ≠ "") :
    (String.join xs).length ≤ (String.join ys).length ∧
      ((String.join xs).length = (String.join ys).length → xs = ys) := by
  induction hsub with
  | slnil => exact ⟨le_rfl, fun _ => rfl⟩
  | cons y _ ih =>
    obtain ⟨hy, hrest⟩ := List.forall_mem_cons.1 hys
    obtain ⟨hle, _⟩ := ih hrest
    have hpos : 0 < y.length := Nat.pos_of_ne_zero fun h => hy (String.length_eq_zero_iff.1 h)
    rw [String.join_cons, String.length_append]
    exact ⟨by omega, fun heq => by omega⟩
  | cons_cons y _ ih =>
    obtain ⟨_, hrest⟩ := List.forall_mem_cons.1 hys
    obtain ⟨hle, hall⟩ := ih hrest
    rw [String.join_cons, String.join_cons, String.length_append, String.length_append]
    exact ⟨by omega, fun heq => congrArg (y :: ·) (hall (by omega))⟩

theorem outputTexts_sublist (out : ResponsesOutput) : out.outputTexts.Sublist out.texts := by
  rw [ResponsesOutput.outputTexts, ResponsesOutput.texts]
  induction out.content with
  | nil => exact .slnil
  | cons c rest ih =>
    rw [List.filterMap_cons, List.filterMap_cons]
    by_cases htext : c.text = ""
    · simpa [htext] using ih
    · by_cases htype : c.type = "output_text"
      · simpa [htext, htype] using ih
      · simpa [htext, htype] using ih.cons c.text

theorem texts_ne_empty (out : ResponsesOutput) : ∀ text ∈ out.texts, text ≠ "" := by
  intro text htext
  obtain ⟨c, _, hc⟩ := List.mem_filterMap.1 htext
  by_cases hempty : c.text = ""
  · simp [hempty] at hc
  · rw [if_pos hempty] at hc
    exact Option.some.inj hc ▸ hempty

/-- The text of the assistant's messages. -/
theorem assistant_text (output : List ResponsesOutput) :
    String.join (output.flatMap fun out =>
      if out.type ≠ "message" then []
      else if out.role ≠ "" ∧ out.role ≠ "assistant" then []
      else out.outputTexts) =
    String.join (output.map fun out => if out.Assistant then out.streamText else "") := by
  rw [join_flatMap]
  refine congrArg String.join (List.map_congr_left fun out _ => ?_)
  by_cases hmessage : out.type = "message"
  · by_cases hrole : out.role = "" ∨ out.role = "assistant"
    · have hassistant : out.Assistant := ⟨hmessage, hrole⟩
      have hnot : ¬ (out.role ≠ "" ∧ out.role ≠ "assistant") := by tauto
      rw [if_neg (not_not.2 hmessage), if_neg hnot, if_pos hassistant, ResponsesOutput.streamText,
        if_pos hmessage]
    · have hassistant : ¬ out.Assistant := fun h => hrole h.2
      have hother : out.role ≠ "" ∧ out.role ≠ "assistant" := by tauto
      rw [if_neg (not_not.2 hmessage), if_pos hother, if_neg hassistant]
      rfl
  · have hassistant : ¬ out.Assistant := fun h => hmessage h.1
    rw [if_pos hmessage, if_neg hassistant]
    rfl

/-- **The text of the whole answer is that of a stream** exactly if it is kept. -/
theorem text_iff (output : List ResponsesOutput) :
    extractOutputTextFromResponses output = streamTexts output ↔ TextKept output := by
  have hassistant : (∃ out ∈ output, out.Assistant ∧ out.streamText ≠ "") ↔
      String.join (output.map fun out => if out.Assistant then out.streamText else "") ≠ "" := by
    rw [ne_eq, join_eq_empty]
    simp only [List.forall_mem_map, not_forall]
    constructor
    · rintro ⟨out, hout, hmessage, htext⟩
      exact ⟨out, hout, by rwa [if_pos hmessage]⟩
    · rintro ⟨out, hout, htext⟩
      by_cases hmessage : out.Assistant
      · exact ⟨out, hout, hmessage, by rwa [if_pos hmessage] at htext⟩
      · rw [if_neg hmessage] at htext
        exact absurd rfl htext
  rw [extractOutputTextFromResponses, assistant_text, TextKept, streamTexts]
  simp only [hassistant]
  split
  · rw [join_map_eq_map_iff]
    · refine forall₂_congr fun out _ => ?_
      by_cases hmessage : out.Assistant
      · simp [hmessage]
      · rw [if_neg hmessage, eq_comm]
        exact ⟨fun h _ => h, fun h => h hmessage⟩
    · intro out _
      split
      · exact ⟨le_rfl, fun _ => rfl⟩
      · exact ⟨Nat.zero_le _, fun h => (String.length_eq_zero_iff.1 h.symm).symm⟩
  · rw [join_flatMap, eq_comm, join_map_eq_map_iff]
    · exact forall₂_congr fun out _ => eq_comm
    · intro out _
      rw [ResponsesOutput.streamText]
      split
      · obtain ⟨hle, heq⟩ := join_sublist (outputTexts_sublist out) (texts_ne_empty out)
        exact ⟨hle, fun h => congrArg String.join (heq h)⟩
      · exact ⟨Nat.zero_le _, fun h => (String.length_eq_zero_iff.1 h.symm).symm⟩

/-! ### The conversions agree -/

section Agree

variable {responseId : String}

theorem answer_content (output : List ResponsesOutput) :
    (responsesResponseToChatCompletionsResponse output).content =
      extractOutputTextFromResponses output := by
  by_cases htext : extractOutputTextFromResponses output = ""
  · simp [responsesResponseToChatCompletionsResponse, htext]
  · simp [responsesResponseToChatCompletionsResponse, htext]

/-- The tool calls of a whole answer, and its finish reason. -/
theorem answer_toolCalls (output : List ResponsesOutput) :
    (responsesResponseToChatCompletionsResponse output).toolCalls =
      (if extractOutputTextFromResponses output = "" then
        output.filterMap ResponsesOutput.toolCall
      else []) ∧
    (responsesResponseToChatCompletionsResponse output).finishReason =
      if (responsesResponseToChatCompletionsResponse output).toolCalls = [] then "stop"
      else "tool_calls" := by
  refine ⟨rfl, ?_⟩
  simp only [responsesResponseToChatCompletionsResponse, ne_eq, ite_not]

theorem ids_of_toolCall (output : List ResponsesOutput) :
    (output.filterMap ResponsesOutput.toolCall).map ToolCallRequest.id =
      (output.filter fun out => out.HasName).map ResponsesOutput.key := by
  induction output with
  | nil => rfl
  | cons out rest ih =>
    rw [List.filterMap_cons, List.filter_cons, ResponsesOutput.toolCall]
    by_cases htype : out.type = "function_call"
    · by_cases hname : trimSpace out.name = ""
      · have hnot : ¬ out.HasName := fun h => h.2 hname
        simpa [htype, hname, hnot] using ih
      · have hhas : out.HasName := ⟨htype, hname⟩
        simpa [htype, hname, hhas] using ih
    · have hnot : ¬ out.HasName := fun h => htype h.1
      simpa [htype, hnot] using ih

/-- The end of a stream. -/
theorem handler_end (usage : Option OpenAIUsage) {s : ResponsesChatState} (h : s.Sound)
    (model : String) :
    let s' := ((s.receive responseId (.completed model)).sendStartIfNeeded responseId).sendStop
      responseId
    let chunks := s'.sent ++ (usage.map (generateFinalUsageResponse responseId s'.model)).toList
    contents chunks = s.outputText ∧ toolCalls chunks = toolCalls s.sent ∧
      lastFinish "" chunks = if s.toolCallIDs ≠ [] ∧ s.outputText = "" then "tool_calls"
        else "stop" := by
  intro s' chunks
  obtain ⟨model', hmodel⟩ : ∃ model',
      (if model ≠ "" then { s with model } else s) = { s with model := model' } := by
    split
    · exact ⟨model, rfl⟩
    · exact ⟨s.model, rfl⟩
  have hsound : ResponsesChatState.Sound { s with model := model' } :=
    ⟨h.running, h.contents, h.finish, h.keys, h.ids, h.nodup, h.saw, h.canonical⟩
  have hstart := @ResponsesChatState.Sound.start responseId _ hsound
  have hsame := @ResponsesChatState.sameCalls_start responseId { s with model := model' }
  have htext := @ResponsesChatState.sendStartIfNeeded_outputText responseId
    { s with model := model' }
  have hstarted : (({ s with model := model' } : ResponsesChatState).sendStartIfNeeded
      responseId).sentStart = true := by
    rw [ResponsesChatState.sendStartIfNeeded]
    split
    · assumption
    · rfl
  have hs' : s' = ((({ s with model := model' } : ResponsesChatState).sendStartIfNeeded
      responseId).sendStop responseId) := by
    simp only [s', ResponsesChatState.receive, hmodel]
    generalize ({ s with model := model' } : ResponsesChatState).sendStartIfNeeded responseId = s₂
      at hstarted hstart
    simp only [ResponsesChatState.sendStop, hstart.running, Bool.false_eq_true, if_false,
      ResponsesChatState.sendStartIfNeeded, hstarted, if_true]
  have husage : ∀ (chunks : List ChatCompletionsStreamResponse) (usage : Option OpenAIUsage),
      let all := chunks ++
        (usage.map (generateFinalUsageResponse responseId s'.model)).toList
      contents all = contents chunks ∧ toolCalls all = toolCalls chunks ∧
        lastFinish "" all = lastFinish "" chunks := by
    intro chunks usage
    cases usage with
    | none => simp
    | some usage =>
      refine ⟨?_, List.foldl_append, ?_⟩
      · simp only [Option.map_some, Option.toList_some, contents, List.map_append,
          String.join_append]
        exact String.append_empty
      · simp only [Option.map_some, Option.toList_some, lastFinish_append]
        rfl
  obtain ⟨hcontents, hcalls, hfinish⟩ := husage s'.sent usage
  rw [hcontents, hcalls, hfinish, hs']
  have hsaw := hstart.saw
  rw [hsame.ids] at hsaw
  generalize ({ s with model := model' } : ResponsesChatState).sendStartIfNeeded responseId = s₂
    at hstart hsame htext hsaw
  rw [ResponsesChatState.sendStop, hstart.running, if_neg Bool.false_ne_true]
  dsimp only
  rw [generateStopResponse, contents_concat, toolCalls_concat, lastFinish_append, hstart.contents,
    htext]
  refine ⟨String.append_empty, hsame.toolCalls, ?_⟩
  simp only [hsaw, hstart.finish]
  split <;> rfl

theorem created_model (model₀ model : String) :
    ∃ model', ({ model := model₀ } : ResponsesChatState).receive responseId (.created model) =
      { model := model' } := by
  simp only [ResponsesChatState.receive]
  split
  · exact ⟨model, rfl⟩
  · exact ⟨model₀, rfl⟩

/-- The state after the items of an answer, and what the client has at the end. -/
theorem handler_run (model₀ model : String) (usage : Option OpenAIUsage) {cuts : List CutItem}
    (hcuts : ∀ cut ∈ cuts, cut.WellCut) :
    let s := (cuts.flatMap CutItem.events).foldl (ResponsesChatState.receive responseId)
      (({ model := model₀ } : ResponsesChatState).receive responseId (.created model))
    let chunks := oaiResponsesToChatStreamHandler responseId model₀ usage
      (responsesEvents model cuts)
    s.Sound ∧ s.outputText = streamTexts (cuts.map CutItem.item) ∧
      (∀ k, k ∈ s.toolCallIDs ↔ ∃ out ∈ (cuts.map CutItem.item).takeWhile
        fun out => out.streamText = "", out.HasKey ∧ out.key = k) ∧
      contents chunks = s.outputText ∧ toolCalls chunks = toolCalls s.sent ∧
      lastFinish "" chunks = if s.toolCallIDs ≠ [] ∧ s.outputText = "" then "tool_calls"
        else "stop" := by
  intro s chunks
  obtain ⟨model', hmodel⟩ := @created_model responseId model₀ model
  obtain ⟨hsound, htext, hids⟩ := @ResponsesChatState.Sound.items responseId _
    (ResponsesChatState.sound_start model') cuts hcuts
  rw [← hmodel] at hsound htext hids
  have hend := @handler_end responseId usage s hsound model
  have hchunks : chunks =
      (((s.receive responseId (.completed model)).sendStartIfNeeded responseId).sendStop
        responseId).sent ++
      (usage.map (generateFinalUsageResponse responseId
        (((s.receive responseId (.completed model)).sendStartIfNeeded responseId).sendStop
          responseId).model)).toList := by
    simp only [chunks, oaiResponsesToChatStreamHandler, responsesEvents, List.foldl_cons,
      List.foldl_append, List.foldl_nil, s]
  rw [hchunks]
  refine ⟨hsound, htext.trans ?_, fun k => (hids k).trans ?_, hend⟩
  · rw [hmodel, String.empty_append]
  · rw [hmodel]
    simp

/-- **The conversions of a Responses answer agree** if the text is kept and the calls are kept; and
unless calls without a name repeat the identifier of a call with one, they agree on no other
answers. -/
theorem responses_stream_agrees (model₀ model : String) (usage : Option OpenAIUsage)
    {cuts : List CutItem} (hcuts : ∀ cut ∈ cuts, cut.WellCut) :
    let output := cuts.map CutItem.item
    let agree := ResponsesAgree
      (oaiResponsesToChatStreamHandler responseId model₀ usage (responsesEvents model cuts))
      (responsesResponseToChatCompletionsResponse output)
    (TextKept output ∧ CallsKept output → agree) ∧
      (NamelessApart output → agree → TextKept output ∧ CallsKept output) := by
  intro output agree
  obtain ⟨hsound, htext, hids, hcontents, hcalls, hfinish⟩ :=
    @handler_run responseId model₀ model usage cuts hcuts
  obtain ⟨hanswer, hreason⟩ := answer_toolCalls output
  have hquiet : (∃ out ∈ output, out.streamText ≠ "") ↔ streamTexts output ≠ "" := by
    rw [ne_eq, streamTexts, join_eq_empty]
    simp only [List.forall_mem_map, not_forall, ne_eq, exists_prop]
  have hname : ∀ out ∈ output, out.HasName →
      out.key ∈ (output.filter fun out => out.HasName).map ResponsesOutput.key :=
    fun out hout hhas => List.mem_map_of_mem (List.mem_filter.2 ⟨hout, decide_eq_true hhas⟩)
  constructor
  · rintro ⟨hkept, hcallsKept⟩
    have hextract := (text_iff output).2 hkept
    rw [CallsKept] at hcallsKept
    by_cases hsome : ∃ out ∈ output, out.streamText ≠ ""
    · -- there is text, and no call has come before it
      rw [if_pos hsome] at hcallsKept
      have hne := hquiet.1 hsome
      generalize (cuts.flatMap CutItem.events).foldl (ResponsesChatState.receive responseId)
        (({ model := model₀ } : ResponsesChatState).receive responseId (.created model)) = s
        at hsound htext hids hcontents hcalls hfinish
      have hnone : s.toolCallIDs = [] := by
        refine List.eq_nil_iff_forall_not_mem.2 fun k hk => ?_
        obtain ⟨out, hout, hkey, _⟩ := (hids k).1 hk
        exact hcallsKept out hout hkey
      have hlength := hsound.length
      rw [hnone, List.length_nil, List.length_eq_zero_iff] at hlength
      rw [hextract, if_neg hne] at hanswer
      rw [hanswer, if_pos rfl] at hreason
      refine ⟨?_, ?_, ?_⟩
      · rw [hcontents, htext, answer_content, hextract]
      · rw [hcalls, hlength, hanswer]
        rfl
      · rw [hfinish, hreason, if_neg fun h => h.1 hnone]
    · -- there is no text, and the calls with a name are those with an identifier
      rw [if_neg hsome] at hcallsKept
      obtain ⟨hboth, hnodup⟩ := hcallsKept
      have hempty : streamTexts output = "" := not_not.1 fun hne => hsome (hquiet.2 hne)
      have hsilent : ∀ out ∈ output, out.streamText = "" :=
        fun out hout => not_not.1 fun hne => hsome ⟨out, hout, hne⟩
      have hvalues : Keyed.values (toolCalls ((cuts.flatMap CutItem.events).foldl
          (ResponsesChatState.receive responseId)
          (({ model := model₀ } : ResponsesChatState).receive responseId (.created model))).sent) =
          output.filterMap ResponsesOutput.toolCall := by
        obtain ⟨model', hmodel⟩ := @created_model responseId model₀ model
        rw [hmodel]
        exact (ResponsesChatState.sound_start model').namedItems rfl hcuts
          (fun cut hcut => hsilent _ (List.mem_map_of_mem hcut))
          (fun cut hcut => hboth _ (List.mem_map_of_mem hcut)) hnodup
          fun cut _ _ => ⟨List.not_mem_nil, rfl, rfl⟩
      generalize (cuts.flatMap CutItem.events).foldl (ResponsesChatState.receive responseId)
        (({ model := model₀ } : ResponsesChatState).receive responseId (.created model)) = s
        at hsound htext hids hcontents hcalls hfinish hvalues
      rw [hextract, if_pos hempty] at hanswer
      have hidsNil : s.toolCallIDs = [] ↔ output.filterMap ResponsesOutput.toolCall = [] := by
        rw [← hsound.ids, List.map_eq_nil_iff, hvalues]
      refine ⟨?_, ?_, ?_⟩
      · rw [hcontents, htext, answer_content, hextract]
      · rw [hcalls, hvalues, hanswer]
      · rw [hfinish, hreason, hanswer, htext]
        by_cases hnil : output.filterMap ResponsesOutput.toolCall = []
        · rw [if_neg fun h => h.1 (hidsNil.2 hnil), if_pos hnil]
        · rw [if_pos ⟨fun h => hnil (hidsNil.1 h), hempty⟩, if_neg hnil]
  · intro hapart hagree
    have hextract : extractOutputTextFromResponses output = streamTexts output := by
      rw [← answer_content, ← hagree.content, hcontents, htext]
    refine ⟨(text_iff output).1 hextract, ?_⟩
    have hvalues := hagree.toolCalls
    rw [hcalls, hanswer, hextract] at hvalues
    generalize (cuts.flatMap CutItem.events).foldl (ResponsesChatState.receive responseId)
      (({ model := model₀ } : ResponsesChatState).receive responseId (.created model)) = s
      at hsound htext hids hcontents hcalls hfinish hvalues
    have hsoundIDs := hsound.ids
    rw [hvalues] at hsoundIDs
    rw [CallsKept]
    split
    · rename_i hsome
      rw [if_neg (hquiet.1 hsome)] at hsoundIDs
      intro out hout hkey
      have hmem := (hids out.key).2 ⟨out, hout, hkey, rfl⟩
      rw [← hsoundIDs] at hmem
      cases hmem
    · rename_i hsome
      have hempty : streamTexts output = "" := not_not.1 fun hne => hsome (hquiet.2 hne)
      have hall : (output.takeWhile fun out => out.streamText = "") = output :=
        List.takeWhile_eq_self_iff.2 fun out hout =>
          decide_eq_true (not_not.1 fun hne => hsome ⟨out, hout, hne⟩)
      rw [if_pos hempty, ids_of_toolCall] at hsoundIDs
      refine ⟨fun out hout => ⟨fun hhas => ?_, fun hkey => ?_⟩, ?_⟩
      · have hmem := hname out hout hhas
        rw [hsoundIDs] at hmem
        obtain ⟨out', _, hkey', heq⟩ := (hids out.key).1 hmem
        exact ⟨hhas.1, heq ▸ hkey'.2⟩
      · have hmem : out.key ∈ s.toolCallIDs := (hids out.key).2 ⟨out, hall.symm ▸ hout, hkey, rfl⟩
        rw [← hsoundIDs] at hmem
        obtain ⟨out', hout', heq⟩ := List.mem_map.1 hmem
        obtain ⟨hmem', hhas'⟩ := List.mem_filter.1 hout'
        by_contra hnot
        exact hapart out hout hkey hnot out' hmem' (of_decide_eq_true hhas') heq
      · rw [hsoundIDs]
        exact hsound.nodup

/-- A call with an identifier, a name and its arguments in two pieces. -/
def cutCall : CutItem where
  item := { type := "function_call", id := "fc_1", callId := "call_1", name := "f",
            arguments := "\x7b\x7d" }
  pieces := ["\x7b", "\x7d"]

/-- A message of the assistant in two pieces. -/
def cutMessage : CutItem where
  item := { type := "message", id := "msg_1", role := "assistant",
            content := [⟨"output_text", "done"⟩] }
  pieces := ["do", "ne"]

/-- Two calls and no text. -/
theorem responses_stream_agrees_calls :
    ResponsesAgree
      (oaiResponsesToChatStreamHandler "chatcmpl-1" "gpt" none (responsesEvents "gpt"
        [cutCall, { cutCall with item := { cutCall.item with id := "", callId := "call_2" } }]))
      (responsesResponseToChatCompletionsResponse
        [cutCall.item, { cutCall.item with id := "", callId := "call_2" }]) :=
  (@responses_stream_agrees "chatcmpl-1" "gpt" "gpt" none
    [cutCall, { cutCall with item := { cutCall.item with id := "", callId := "call_2" } }]
    (by decide)).1 (by decide)

/-- **A call before a text**: the stream has sent the call when the text comes. -/
theorem call_before_text :
    ¬ ResponsesAgree
      (oaiResponsesToChatStreamHandler "chatcmpl-1" "gpt" none (responsesEvents "gpt"
        [cutCall, cutMessage]))
      (responsesResponseToChatCompletionsResponse [cutCall.item, cutMessage.item]) := by
  intro h
  exact absurd h.toolCalls (by decide)

end Agree

end NewApi
