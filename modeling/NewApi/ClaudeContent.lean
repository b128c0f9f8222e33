/-
**What a client is told of a stream's content.**

The converter sends at most one piece of text or of thinking for a chunk.  The first chunk comes
through with its first tool call and with its reasoning, or its text if there is none; a later chunk
with its tool calls, or its reasoning, or its text, whichever is there first.  A chunk that finishes
the message without a usage does not come through at all, and neither does one after the message has
been closed.  So each chunk has a *fate*, which its finish reason and usage and those of the chunks
before it decide, and what a client is told depends on the fates alone.

Main definitions:

* `NewApi.fates` — the fate of each chunk, with its delta;
* `NewApi.deliver` — the pieces of content that come through;
* `NewApi.said`, `NewApi.stopReasons`, `NewApi.toolUses` — what a client makes of the events;
* `NewApi.Fate.KeepsText`, `NewApi.Fate.KeepsReasoning`, `NewApi.StopKept`, `NewApi.ToolsKept` — the
  streams of which nothing is lost.

Main results:

* `NewApi.contents_handleStream` — the events of a stream are those of the deltas that come through;
* `NewApi.claude_content` — **text, reasoning and the stop reason arrive for exactly these streams**,
  and the tool calls do for them;
* `NewApi.last_words_are_lost` — a stream whose last text is lost.
-/

import NewApi.ClaudeStream
import NewApi.Lib.Keyed

set_option autoImplicit false

namespace NewApi

/-! ### What the upstream says -/

namespace ChatCompletionsStreamResponse

/-- The delta of the first choice. -/
def delta (r : ChatCompletionsStreamResponse) : ChatCompletionsStreamResponseChoiceDelta :=
  (r.choices.head?.map fun choice => choice.delta).getD ⟨none, none, none, []⟩

/-- The finish reason of the first choice. -/
def finish (r : ChatCompletionsStreamResponse) : String :=
  (r.choices.head?.map fun choice => choice.finish).getD ""

end ChatCompletionsStreamResponse

/-- The text of a stream. -/
def contents (chunks : List ChatCompletionsStreamResponse) : String :=
  String.join (chunks.map fun chunk => chunk.delta.getContentString)

/-- The reasoning of a stream. -/
def reasonings (chunks : List ChatCompletionsStreamResponse) : String :=
  String.join (chunks.map fun chunk => chunk.delta.getReasoningContent)

/-- The last finish reason, or the one given if there is none. -/
def lastFinish : String → List ChatCompletionsStreamResponse → String
  | finish, [] => finish
  | finish, chunk :: rest =>
    lastFinish (if chunk.finish ≠ "" then chunk.finish else finish) rest

/-- A tool call with all of its arguments. -/
structure ToolCallRequest where
  id : String
  name : String
  arguments : String
deriving DecidableEq, Repr

/-- The tool call with a further piece of its arguments. -/
def ToolCallRequest.append (arguments : String) (toolCall : ToolCallRequest) : ToolCallRequest :=
  { toolCall with arguments := toolCall.arguments ++ arguments }

/-- A piece of a tool call: the first one with its number, or a continuation. -/
def addPiece (calls : List (ℤ × ToolCallRequest)) (number : ℤ) (piece : ToolCallResponse) :
    List (ℤ × ToolCallRequest) :=
  if number ∈ Keyed.keys calls then
    Keyed.update number (ToolCallRequest.append piece.arguments) calls
  else calls ++ [(number, ⟨piece.id, piece.name, piece.arguments⟩)]

/-- The pieces of a chunk from the `i`-th on. -/
def addPieces : ℕ → List (ℤ × ToolCallRequest) → List ToolCallResponse →
    List (ℤ × ToolCallRequest)
  | _, calls, [] => calls
  | i, calls, piece :: rest => addPieces (i + 1) (addPiece calls (piece.offset i) piece) rest

/-- The tool calls of a stream, by their numbers. -/
def toolCalls (chunks : List ChatCompletionsStreamResponse) : List (ℤ × ToolCallRequest) :=
  chunks.foldl (fun calls chunk => addPieces 0 calls chunk.delta.toolCalls) []

/-! ### What the client is told -/

def ContentDelta.text : ContentDelta → String
  | .textDelta text => text
  | _ => ""

def ContentDelta.thinking : ContentDelta → String
  | .thinkingDelta thinking => thinking
  | _ => ""

/-- What is read of the delta of an event. -/
def ClaudeEvent.read (f : ContentDelta → String) : ClaudeEvent → String
  | .contentBlockDelta _ delta => f delta
  | _ => ""

/-- What is read of the deltas of events, one after the other. -/
def said (f : ContentDelta → String) (es : List ClaudeEvent) : String :=
  String.join (es.map (ClaudeEvent.read f))

def ClaudeEvent.stopReason : ClaudeEvent → Option String
  | .messageDelta stopReason _ => some stopReason
  | _ => none

def stopReasons (es : List ClaudeEvent) : List String := es.filterMap ClaudeEvent.stopReason

/-- An event that starts a tool call, under an index of its own, or continues one. -/
def addUse (uses : List (ℤ × ToolCallRequest)) :
    ClaudeEvent → Option (List (ℤ × ToolCallRequest))
  | .contentBlockStart index (.toolUse id name) =>
    if index ∈ Keyed.keys uses then none else some (uses ++ [(index, ⟨id, name, ""⟩)])
  | .contentBlockDelta index (.inputJsonDelta partialJson) =>
    if index ∈ Keyed.keys uses then
      some (Keyed.update index (ToolCallRequest.append partialJson) uses)
    else none
  | _ => some uses

/-- The tool calls of a message, by the indexes of their blocks. -/
def toolUses (uses : List (ℤ × ToolCallRequest)) (es : List ClaudeEvent) :
    Option (List (ℤ × ToolCallRequest)) :=
  es.foldlM addUse uses

/-! ### What becomes of a chunk -/

/-- How a chunk comes through: as the first one, as a later one, or not at all. -/
inductive Fate where
  | first
  | later
  | lost
deriving DecidableEq, Repr

/-- The fates of the chunks after the first. -/
def laterFates : Bool → List ChatCompletionsStreamResponse →
    List (Fate × ChatCompletionsStreamResponseChoiceDelta)
  | _, [] => []
  | usageKnown, chunk :: rest =>
    let known := chunk.usage.isSome || usageKnown
    (if chunk.isFinished && chunk.usage.isNone then .lost else .later, chunk.delta) ::
      if chunk.closes known then rest.map fun chunk => (.lost, chunk.delta)
      else laterFates known rest

/-- The fate of each chunk of a stream, with its delta. -/
def fates : List ChatCompletionsStreamResponse →
    List (Fate × ChatCompletionsStreamResponseChoiceDelta)
  | [] => []
  | chunk :: rest =>
    (.first, chunk.delta) ::
      if chunk.isFinished then rest.map fun chunk => (.lost, chunk.delta)
      else laterFates chunk.usage.isSome rest

namespace Fate

/-- The events of a delta, and the state after it. -/
def deliver (info : ClaudeRelayInfo) :
    Fate × ChatCompletionsStreamResponseChoiceDelta → List ClaudeEvent × ClaudeRelayInfo
  | (.first, delta) =>
    let (tools, info) := firstToolCall delta info
    let (contents, info) := firstContent delta info
    (tools ++ contents, info)
  | (.later, delta) => laterContent delta info
  | (.lost, _) => ([], info)

/-- The text of a chunk comes through unless there is something else in it. -/
def KeepsText : Fate × ChatCompletionsStreamResponseChoiceDelta → Prop
  | (.first, delta) => delta.getContentString ≠ "" → delta.getReasoningContent = ""
  | (.later, delta) => delta.getContentString ≠ "" →
      delta.toolCalls = [] ∧ delta.getReasoningContent = ""
  | (.lost, delta) => delta.getContentString = ""

/-- The reasoning of a chunk comes through unless there are tool calls in a later one. -/
def KeepsReasoning : Fate × ChatCompletionsStreamResponseChoiceDelta → Prop
  | (.first, _) => True
  | (.later, delta) => delta.getReasoningContent ≠ "" → delta.toolCalls = []
  | (.lost, delta) => delta.getReasoningContent = ""

end Fate

/-- The events of the deltas that come through. -/
def deliver (info : ClaudeRelayInfo) :
    List (Fate × ChatCompletionsStreamResponseChoiceDelta) → List ClaudeEvent
  | [] => []
  | x :: rest => (Fate.deliver info x).1 ++ deliver (Fate.deliver info x).2 rest

/-! ### The stop reason -/

/-- The chunks after the first, down to the one that closes the message. -/
def closedLater : Bool → List ChatCompletionsStreamResponse →
    Option (List ChatCompletionsStreamResponse)
  | _, [] => none
  | usageKnown, chunk :: rest =>
    let known := chunk.usage.isSome || usageKnown
    if chunk.closes known then some [chunk]
    else (closedLater known rest).map (chunk :: ·)

/-- The chunks down to the one that closes the message with a usage. -/
def closedChunks : List ChatCompletionsStreamResponse →
    Option (List ChatCompletionsStreamResponse)
  | [] => none
  | chunk :: rest =>
    if chunk.isFinished then if chunk.usage.isSome then some [chunk] else none
    else (closedLater chunk.usage.isSome rest).map (chunk :: ·)

/-- The stop reason that is sent for a finish reason. -/
def sentReason (finish : String) : String :=
  if stopReasonOpenAI2Claude finish = "" then "end_turn" else stopReasonOpenAI2Claude finish

/-- The message is closed with a usage, and by then the last finish reason has come in, or one with
the same stop reason. -/
def StopKept (chunks : List ChatCompletionsStreamResponse) : Prop :=
  ∃ closed, closedChunks chunks = some closed ∧
    sentReason (lastFinish "" closed) = stopReasonOpenAI2Claude (lastFinish "" chunks)

/-! ### The tool calls -/

/-- The numbers of the calls so far, and of those of the open group whose pieces find their block;
the indexes of the blocks of calls; and what is open, with its index, which is that of the first
block of a group, and the greatest number in the group. -/
structure Numbering where
  seen : List ℤ := []
  group : List ℤ := []
  taken : List ℤ := []
  last : LastMessageType := .none
  index : ℤ := 0
  maxOffset : ℤ := 0
deriving DecidableEq, Repr

namespace Numbering

/-- The index after what is open. -/
def next (s : Numbering) : ℤ :=
  match s.last with
  | .none => s.index
  | .tools => s.index + s.maxOffset + 1
  | .text | .thinking => s.index + 1

/-- A block, or a group, is opened unless one of its kind is open. -/
def switchTo (type : LastMessageType) (s : Numbering) : Numbering :=
  if s.last = type then s
  else { s with group := [], last := type, index := s.next, maxOffset := 0 }

/-- The pieces of a later chunk, from the `i`-th on: the first piece of a call has its name and a
block that is free, another one no name, and arguments only if the call is one of the group. -/
def pieces : ℕ → Numbering → List ToolCallResponse → Option Numbering
  | _, s, [] => some s
  | i, s, piece :: rest =>
    let number := piece.offset i
    let maxOffset := max s.maxOffset number
    if number ∈ s.seen then
      if piece.name = "" ∧ (piece.arguments = "" ∨ number ∈ s.group) then
        pieces (i + 1) { s with maxOffset := maxOffset } rest
      else none
    else if piece.name ≠ "" ∧ s.index + number ∉ s.taken then
      pieces (i + 1)
        { s with
          seen := number :: s.seen
          group := number :: s.group
          taken := (s.index + number) :: s.taken
          maxOffset := maxOffset } rest
    else none

/-- Text or reasoning comes through. -/
def plain (s : Numbering) (delta : ChatCompletionsStreamResponseChoiceDelta) : Numbering :=
  if delta.getReasoningContent ≠ "" then s.switchTo .thinking
  else if delta.getContentString ≠ "" then s.switchTo .text
  else s

/-- The numbers after a chunk, if none of its tool calls is lost. -/
def keep (s : Numbering) :
    Fate × ChatCompletionsStreamResponseChoiceDelta → Option Numbering
  | (.first, delta) =>
    match delta.toolCalls with
    | [] => some (s.plain delta)
    | [piece] =>
      let number := piece.offset 0
      some (plain
        { seen := [number]
          group := if number = 0 then [number] else []
          taken := [0]
          last := .tools } delta)
    | _ => none
  | (.later, delta) =>
    if delta.toolCalls ≠ [] then (s.switchTo .tools).pieces 0 delta.toolCalls
    else some (s.plain delta)
  | (.lost, delta) => if delta.toolCalls = [] then some s else none

end Numbering

/-- None of the tool calls is lost. -/
def ToolsKept : Numbering → List (Fate × ChatCompletionsStreamResponseChoiceDelta) → Prop
  | _, [] => True
  | s, x :: rest =>
    match s.keep x with
    | none => False
    | some s' => ToolsKept s' rest

/-! ### The deltas that come through -/

section Frame

variable (usage : Option OpenAIUsage) (finishReason : String) (done : Bool) (sendResponseCount : ℕ)

/-- The state with another view of the message, and the blocks as they are. -/
def ClaudeRelayInfo.reframe (info : ClaudeRelayInfo) : ClaudeRelayInfo :=
  { info with
    usage := usage
    finishReason := finishReason
    done := done
    sendResponseCount := sendResponseCount }

/-- Events and a state with another view of the message. -/
def reframed (result : List ClaudeEvent × ClaudeRelayInfo) : List ClaudeEvent × ClaudeRelayInfo :=
  (result.1, result.2.reframe usage finishReason done sendResponseCount)

theorem reframe_lastMessagesType (info : ClaudeRelayInfo) :
    (info.reframe usage finishReason done sendResponseCount).lastMessagesType =
      info.lastMessagesType := rfl

theorem advance_reframe (info : ClaudeRelayInfo) :
    stopOpenBlocksAndAdvance (info.reframe usage finishReason done sendResponseCount) =
      reframed usage finishReason done sendResponseCount (stopOpenBlocksAndAdvance info) := by
  unfold stopOpenBlocksAndAdvance
  rw [reframe_lastMessagesType]
  cases info.lastMessagesType with
  | none => rfl
  | text => rfl
  | tools => rfl
  | thinking => rfl

theorem laterBlock_reframe (type : LastMessageType) (block : ContentBlock) (delta : ContentDelta)
    (info : ClaudeRelayInfo) :
    laterBlock type block delta (info.reframe usage finishReason done sendResponseCount) =
      reframed usage finishReason done sendResponseCount (laterBlock type block delta info) := by
  simp only [laterBlock, advance_reframe, reframe_lastMessagesType]
  split
  · rfl
  · rfl

theorem laterToolCalls_reframe (toolCalls : List ToolCallResponse) (info : ClaudeRelayInfo) :
    laterToolCalls toolCalls (info.reframe usage finishReason done sendResponseCount) =
      reframed usage finishReason done sendResponseCount (laterToolCalls toolCalls info) := by
  simp only [laterToolCalls, advance_reframe, reframe_lastMessagesType]
  split
  · rfl
  · rfl

theorem firstBlock_reframe (type : LastMessageType) (block : ContentBlock) (delta : ContentDelta)
    (info : ClaudeRelayInfo) :
    firstBlock type block delta (info.reframe usage finishReason done sendResponseCount) =
      reframed usage finishReason done sendResponseCount (firstBlock type block delta info) := by
  simp only [firstBlock, switchTo, advance_reframe, reframe_lastMessagesType]
  split
  · rfl
  · rfl

/-- What comes through does not depend on the view of the message. -/
theorem fate_deliver_reframe (info : ClaudeRelayInfo)
    (x : Fate × ChatCompletionsStreamResponseChoiceDelta) :
    Fate.deliver (info.reframe usage finishReason done sendResponseCount) x =
      reframed usage finishReason done sendResponseCount (Fate.deliver info x) := by
  rcases x with ⟨fate, delta⟩
  cases fate with
  | first =>
    have htool : firstToolCall delta (info.reframe usage finishReason done sendResponseCount) =
        reframed usage finishReason done sendResponseCount (firstToolCall delta info) := by
      unfold firstToolCall
      cases delta.toolCalls with
      | nil => rfl
      | cons toolCall rest => rfl
    simp only [Fate.deliver, htool, reframed, firstContent, firstBlock_reframe]
    split
    · rfl
    · split
      · rfl
      · rfl
  | later =>
    simp only [Fate.deliver, laterContent, laterToolCalls_reframe, laterBlock_reframe]
    split
    · rfl
    · split
      · rfl
      · split
        · rfl
        · rfl
  | lost => rfl

theorem deliver_reframe (info : ClaudeRelayInfo)
    (xs : List (Fate × ChatCompletionsStreamResponseChoiceDelta)) :
    deliver (info.reframe usage finishReason done sendResponseCount) xs = deliver info xs := by
  induction xs generalizing info with
  | nil => rfl
  | cons x rest ih =>
    rw [deliver, deliver, fate_deliver_reframe]
    exact congrArg _ (ih _)

end Frame

/-- An event that starts a block or continues one. -/
def ClaudeEvent.isContent : ClaudeEvent → Bool
  | .contentBlockStart _ _ | .contentBlockDelta _ _ => true
  | _ => false

def contentEvents (es : List ClaudeEvent) : List ClaudeEvent := es.filter ClaudeEvent.isContent

@[simp] theorem contentEvents_nil : contentEvents [] = [] := rfl

@[simp] theorem contentEvents_append (es es' : List ClaudeEvent) :
    contentEvents (es ++ es') = contentEvents es ++ contentEvents es' := List.filter_append es es'

@[simp] theorem contentEvents_stops (info : ClaudeRelayInfo) :
    contentEvents (stopOpenBlocks info) = [] := by
  unfold stopOpenBlocks contentEvents
  split
  · rfl
  · rfl
  · rw [List.filter_eq_nil_iff]
    intro e he
    obtain ⟨offset, _, rfl⟩ := List.mem_map.1 he
    simp [ClaudeEvent.isContent]
  · rfl

@[simp] theorem contentEvents_closeMessage (usage : Option OpenAIUsage) (info : ClaudeRelayInfo) :
    contentEvents (closeMessage usage info) = [] := by
  unfold closeMessage
  rw [contentEvents_append, contentEvents_append, contentEvents_stops]
  split
  · rfl
  · rfl

theorem receive_initialInfo (estimatePromptTokens : ℤ) (chunk : ChatCompletionsStreamResponse) :
    (initialInfo estimatePromptTokens).receive chunk =
      (initialInfo estimatePromptTokens).reframe chunk.usage "" false 1 := by
  cases husage : chunk.usage <;>
    simp [ClaudeRelayInfo.receive, ClaudeRelayInfo.reframe, initialInfo, husage]

/-- A chunk without a choice says nothing. -/
theorem said_of_no_choice {chunk : ChatCompletionsStreamResponse} (h : chunk.choices = []) :
    chunk.isFinished = false ∧ chunk.finish = "" ∧ chunk.delta = ⟨none, none, none, []⟩ := by
  simp [ChatCompletionsStreamResponse.isFinished, ChatCompletionsStreamResponse.finish,
    ChatCompletionsStreamResponse.delta, h]

/-- A chunk says what its first choice does. -/
theorem said_of_choice {chunk : ChatCompletionsStreamResponse}
    {choice : ChatCompletionsStreamResponseChoice}
    {others : List ChatCompletionsStreamResponseChoice} (h : chunk.choices = choice :: others) :
    chunk.isFinished = decide (choice.finish ≠ "") ∧ chunk.finish = choice.finish ∧
      chunk.delta = choice.delta := by
  simp [ChatCompletionsStreamResponse.isFinished, ChatCompletionsStreamResponse.finish,
    ChatCompletionsStreamResponse.delta, h]

/-- A chunk without a choice closes the message if a usage is known. -/
theorem closes_of_no_choice {chunk : ChatCompletionsStreamResponse} (h : chunk.choices = [])
    (info : ClaudeRelayInfo) :
    chunk.closes (info.receive chunk).usage.isSome = (info.receive chunk).usage.isSome ∧
      chunk.usage.or (info.receive chunk).usage = (info.receive chunk).usage := by
  rw [receive_usage_isSome]
  refine ⟨by simp [ChatCompletionsStreamResponse.closes, h], ?_⟩
  simp only [ClaudeRelayInfo.receive]
  cases chunk.usage <;> rfl

theorem closes_of_choice {chunk : ChatCompletionsStreamResponse}
    {choice : ChatCompletionsStreamResponseChoice}
    {others : List ChatCompletionsStreamResponseChoice} (h : chunk.choices = choice :: others)
    (known : Bool) :
    chunk.closes known = (decide (choice.finish ≠ "") && chunk.usage.isSome) := by
  simp [ChatCompletionsStreamResponse.closes, ChatCompletionsStreamResponse.isFinished, h]

/-- Nothing of the chunks after the message has been closed. -/
theorem deliver_lost (info : ClaudeRelayInfo) (chunks : List ChatCompletionsStreamResponse) :
    deliver info (chunks.map fun chunk => (.lost, chunk.delta)) = [] := by
  induction chunks with
  | nil => rfl
  | cons chunk rest ih => exact ih

/-- The content of the chunks after the first. -/
theorem contents_handleLater (info : ClaudeRelayInfo) (chunks : List ChatCompletionsStreamResponse)
    (hdone : info.done = false) (hcount : 0 < info.sendResponseCount) :
    contentEvents (handleStream info chunks).1 =
      contentEvents (deliver info (laterFates info.usage.isSome chunks)) := by
  induction chunks generalizing info with
  | nil => rfl
  | cons chunk rest ih =>
    have hcount' : 0 < (info.receive chunk).sendResponseCount := Nat.succ_pos _
    have hgo : (info.receive chunk).done = false := hdone
    have hreceive : info.receive chunk = info.reframe (chunk.usage.or info.usage)
        info.finishReason info.done (info.sendResponseCount + 1) := rfl
    simp only [handleStream, handleStreamFormat_later chunk info hdone hcount, laterFates, deliver]
    rw [← receive_usage_isSome, convertLater]
    cases hchoices : chunk.choices with
    | nil =>
      obtain ⟨hfinished, _, hdelta⟩ := said_of_no_choice hchoices
      obtain ⟨hcloses, hknown⟩ := closes_of_no_choice hchoices info
      have hnothing : Fate.deliver info (.later, ⟨none, none, none, []⟩) = ([], info) := rfl
      rw [hfinished, hdelta, hcloses]
      simp only [Bool.false_and, Bool.false_eq_true, if_false, hnothing, hknown,
        List.nil_append]
      cases husage : (info.receive chunk).usage with
      | none =>
        have hrest := ih _ hgo hcount'
        rw [husage, hreceive, deliver_reframe] at hrest
        simpa [hreceive] using hrest
      | some usage =>
        simp only [Option.isSome_some, if_true]
        rw [handleStream_of_done rfl, deliver_lost, List.append_nil, contentEvents_append,
          contentEvents_stops]
        rfl
    | cons choice others =>
      obtain ⟨hfinished, _, hdelta⟩ := said_of_choice hchoices
      rw [hfinished, hdelta, closes_of_choice hchoices]
      by_cases hfinish : choice.finish = ""
      · -- the message goes on
        have hlater : laterContent choice.delta (info.receive chunk) =
            reframed (chunk.usage.or info.usage) info.finishReason info.done
              (info.sendResponseCount + 1) (Fate.deliver info (.later, choice.delta)) := by
          rw [hreceive]
          exact fate_deliver_reframe _ _ _ _ info (.later, choice.delta)
        obtain ⟨_, hsame⟩ := blocksOnly_laterContent choice.delta (info.receive chunk)
        have hgo' : (laterContent choice.delta (info.receive chunk)).2.done = false :=
          hsame.done.trans hdone
        have hrest := ih _ hgo' (by rw [hsame.sendResponseCount]; exact hcount')
        rw [hsame.usage] at hrest
        simp only [hfinish, ne_eq, not_true_eq_false, decide_false, Bool.false_and,
          Bool.false_eq_true, if_false, hgo', Bool.or_false, contentEvents_append, hrest]
        rw [hlater]
        simp only [reframed, deliver_reframe]
      · cases husage : chunk.usage with
        | none =>
          -- it is finished, and waits for a usage
          have hframe : { info.receive chunk with finishReason := choice.finish } =
              info.reframe (chunk.usage.or info.usage) choice.finish info.done
                (info.sendResponseCount + 1) := rfl
          have hrest := ih { info.receive chunk with finishReason := choice.finish }
            hgo hcount'
          rw [hframe, deliver_reframe] at hrest
          simp only [hfinish, ne_eq, not_false_eq_true, decide_true, Option.isNone_none,
            Bool.and_self, if_true, Option.isSome_none, Bool.and_false, Bool.false_eq_true,
            if_false, List.nil_append, Fate.deliver]
          exact hrest
        | some usage =>
          have hframe : { info.receive chunk with finishReason := choice.finish } =
              info.reframe (chunk.usage.or info.usage) choice.finish info.done
                (info.sendResponseCount + 1) := rfl
          have hlater : laterContent choice.delta
              { info.receive chunk with finishReason := choice.finish } =
              reframed (chunk.usage.or info.usage) choice.finish info.done
                (info.sendResponseCount + 1) (Fate.deliver info (.later, choice.delta)) := by
            rw [hframe]
            exact fate_deliver_reframe _ _ _ _ info (.later, choice.delta)
          simp only [hfinish, ne_eq, not_false_eq_true, decide_true, Option.isNone_some,
            Bool.and_false, Bool.false_eq_true, if_true, if_false, Bool.true_or,
            Option.isSome_some, Bool.and_self]
          rw [handleStream_of_done rfl, deliver_lost, hlater]
          simp [reframed]

/-- **The content of a stream** is that of the deltas that come through. -/
theorem contents_handleStream (estimatePromptTokens : ℤ)
    (chunks : List ChatCompletionsStreamResponse) :
    contentEvents (handleStream (initialInfo estimatePromptTokens) chunks).1 =
      contentEvents (deliver (initialInfo estimatePromptTokens) (fates chunks)) := by
  cases chunks with
  | nil => rfl
  | cons chunk rest =>
    have hstart : ∀ id model inputTokens (es : List ClaudeEvent),
        contentEvents (.messageStart id model inputTokens :: es) = contentEvents es :=
      fun _ _ _ _ => rfl
    simp only [handleStream, fates, deliver]
    rw [handleStreamFormat_first chunk _ rfl rfl, receive_initialInfo, convertFirst]
    cases hchoices : chunk.choices with
    | nil =>
      obtain ⟨hfinished, _, hdelta⟩ := said_of_no_choice hchoices
      have hnothing : Fate.deliver (initialInfo estimatePromptTokens)
          (.first, ⟨none, none, none, []⟩) = ([], initialInfo estimatePromptTokens) := rfl
      have hrest := contents_handleLater
        ((initialInfo estimatePromptTokens).reframe chunk.usage "" false 1) rest rfl
        (Nat.succ_pos 0)
      rw [deliver_reframe] at hrest
      rw [hfinished, hdelta, hnothing]
      simp only [contentEvents_append, hstart, hrest]
      rfl
    | cons choice others =>
      obtain ⟨hfinished, _, hdelta⟩ := said_of_choice hchoices
      have hfirst := fate_deliver_reframe chunk.usage "" false 1
        (initialInfo estimatePromptTokens) (.first, choice.delta)
      have hsame := (blocksOnly_firstToolCall choice.delta
        ((initialInfo estimatePromptTokens).reframe chunk.usage "" false 1)).2.trans
        (blocksOnly_firstContent choice.delta _).2
      have hevents := congrArg Prod.fst hfirst
      have hinfo := congrArg Prod.snd hfirst
      simp only [Fate.deliver, reframed] at hevents hinfo
      rw [hfinished, hdelta]
      by_cases hfinish : choice.finish = ""
      · have hrest := contents_handleLater
          (firstContent choice.delta (firstToolCall choice.delta
            ((initialInfo estimatePromptTokens).reframe chunk.usage "" false 1)).2).2 rest
          hsame.done (by rw [hsame.sendResponseCount]; exact Nat.succ_pos 0)
        rw [hsame.usage] at hrest
        simp only [hfinish, ne_eq, not_true_eq_false, decide_false, Bool.false_eq_true,
          if_false, contentEvents_append, hstart, hrest]
        rw [← contentEvents_append, hevents, hinfo, deliver_reframe]
        rfl
      · simp only [hfinish, ne_eq, not_false_eq_true, decide_true, if_true]
        rw [handleStream_of_done rfl, deliver_lost, List.append_nil, List.append_nil, hstart,
          hevents, contentEvents_append, contentEvents_closeMessage, List.append_nil]
        rfl

/-! ### Text and reasoning -/

/-- Pieces of which each is kept or left out: together they are the same only if none is missing. -/
theorem join_map_eq_iff {α : Type*} {f g : α → String} {xs : List α}
    (hkept : ∀ x ∈ xs, f x = g x ∨ f x = "") :
    String.join (xs.map f) = String.join (xs.map g) ↔ ∀ x ∈ xs, f x = g x := by
  have hlength : ∀ ys : List α, (∀ x ∈ ys, f x = g x ∨ f x = "") →
      (String.join (ys.map f)).length ≤ (String.join (ys.map g)).length := by
    intro ys hys
    induction ys with
    | nil => exact le_refl _
    | cons y ys ih =>
      have hrest := ih fun x hx => hys x (List.mem_cons_of_mem _ hx)
      rw [List.map_cons, List.map_cons, String.join_cons, String.join_cons, String.length_append,
        String.length_append]
      rcases hys y List.mem_cons_self with hy | hy
      · rw [hy]
        omega
      · rw [hy, String.length_empty]
        omega
  induction xs with
  | nil => simp
  | cons x xs ih =>
    have hxs : ∀ y ∈ xs, f y = g y ∨ f y = "" := fun y hy => hkept y (List.mem_cons_of_mem _ hy)
    have hrest := hlength xs hxs
    have htail := ih hxs
    rw [List.map_cons, List.map_cons, String.join_cons, String.join_cons, List.forall_mem_cons]
    rcases hkept x List.mem_cons_self with hx | hx
    · rw [hx, String.append_right_inj]
      exact htail.trans (and_iff_right rfl).symm
    · rw [hx, String.empty_append]
      constructor
      · intro heq
        have hsum := congrArg String.length heq
        rw [String.length_append] at hsum
        have hg : g x = "" := String.length_eq_zero_iff.1 (by omega)
        rw [hg, String.empty_append] at heq
        exact ⟨hg.symm, htail.1 heq⟩
      · rintro ⟨hg, heq⟩
        rw [← hg, String.empty_append]
        exact htail.2 heq

theorem said_append (f : ContentDelta → String) (es es' : List ClaudeEvent) :
    said f (es ++ es') = said f es ++ said f es' := by
  rw [said, said, said, List.map_append, String.join_append]

theorem said_contentEvents (f : ContentDelta → String) (es : List ClaudeEvent) :
    said f (contentEvents es) = said f es := by
  induction es with
  | nil => rfl
  | cons e es ih =>
    have hcons : ∀ es', said f (e :: es') = e.read f ++ said f es' := fun es' => by
      rw [said, List.map_cons, String.join_cons]
      rfl
    rw [hcons, ← ih, contentEvents, List.filter_cons]
    split
    · rw [hcons]
      rfl
    · rename_i he
      have hnothing : e.read f = "" := by
        cases e with
        | contentBlockDelta index delta => exact absurd rfl he
        | messageStart id model inputTokens => rfl
        | contentBlockStart index block => rfl
        | contentBlockStop index => rfl
        | messageDelta stopReason usage => rfl
        | messageStop => rfl
      rw [hnothing, String.empty_append]
      rfl

section Reader

variable {f : ContentDelta → String}

@[simp] theorem said_nil : said f [] = "" := rfl

@[simp] theorem said_start (index : ℤ) (block : ContentBlock) :
    said f [.contentBlockStart index block] = "" := by simp [said, ClaudeEvent.read]

@[simp] theorem said_delta (index : ℤ) (delta : ContentDelta) :
    said f [.contentBlockDelta index delta] = f delta := by simp [said, ClaudeEvent.read]

theorem said_start_delta (index index' : ℤ) (block : ContentBlock) (delta : ContentDelta) :
    said f [.contentBlockStart index block, .contentBlockDelta index' delta] = f delta := by
  simp [said, ClaudeEvent.read]

@[simp] theorem said_stops (info : ClaudeRelayInfo) : said f (stopOpenBlocks info) = "" := by
  rw [← said_contentEvents, contentEvents_stops, said_nil]

@[simp] theorem said_advance (info : ClaudeRelayInfo) :
    said f (stopOpenBlocksAndAdvance info).1 = "" := by
  unfold stopOpenBlocksAndAdvance
  split
  · rfl
  · exact said_stops info
  · exact said_stops info
  · exact said_stops info

/-- What is read of the text or the reasoning of a delta. -/
def readPlain (f : ContentDelta → String) (delta : ChatCompletionsStreamResponseChoiceDelta) :
    String :=
  if delta.getReasoningContent ≠ "" then f (.thinkingDelta delta.getReasoningContent)
  else if delta.getContentString ≠ "" then f (.textDelta delta.getContentString)
  else ""

/-- What is read of a delta that has a fate. -/
def Fate.told (f : ContentDelta → String) :
    Fate × ChatCompletionsStreamResponseChoiceDelta → String
  | (.first, delta) => readPlain f delta
  | (.later, delta) => if delta.toolCalls ≠ [] then "" else readPlain f delta
  | (.lost, _) => ""

theorem said_laterBlock (type : LastMessageType) (block : ContentBlock) (delta : ContentDelta)
    (info : ClaudeRelayInfo) : said f (laterBlock type block delta info).1 = f delta := by
  simp only [laterBlock]
  split
  · simp [said_append, said_start_delta]
  · simp

theorem said_firstBlock (type : LastMessageType) (block : ContentBlock) (delta : ContentDelta)
    (info : ClaudeRelayInfo) : said f (firstBlock type block delta info).1 = f delta := by
  simp only [firstBlock, switchTo]
  split
  · simp [said_start_delta]
  · simp [said_append, said_start_delta]

theorem said_toolCallEvents (hf : ∀ json, f (.inputJsonDelta json) = "") (blockIndex : ℤ)
    (toolCall : ToolCallResponse) : said f (toolCallEvents blockIndex toolCall) = "" := by
  unfold toolCallEvents
  rw [said_append]
  split
  · split
    · simp [hf]
    · simp
  · split
    · simp [hf]
    · simp

theorem said_toolCallsEvents (hf : ∀ json, f (.inputJsonDelta json) = "") (base : ℤ)
    (toolCalls : List ToolCallResponse) (i : ℕ) (maxOffset : ℤ) :
    said f (toolCallsEvents base i maxOffset toolCalls).1 = "" := by
  induction toolCalls generalizing i maxOffset with
  | nil => rfl
  | cons toolCall rest ih =>
    simp only [toolCallsEvents]
    rw [said_append, said_toolCallEvents hf, ih, String.empty_append]

/-- **What a client reads of a chunk.** -/
theorem said_fate_deliver (hf : ∀ json, f (.inputJsonDelta json) = "") (info : ClaudeRelayInfo)
    (x : Fate × ChatCompletionsStreamResponseChoiceDelta) :
    said f (Fate.deliver info x).1 = Fate.told f x := by
  rcases x with ⟨fate, delta⟩
  cases fate with
  | first =>
    have htool : said f (firstToolCall delta info).1 = "" := by
      unfold firstToolCall
      split
      · rfl
      · split
        · rw [said_start_delta, hf]
        · exact said_start _ _
    simp only [Fate.deliver, Fate.told, readPlain, said_append, htool, String.empty_append,
      firstContent]
    split
    · exact said_firstBlock _ _ _ _
    · split
      · exact said_firstBlock _ _ _ _
      · rfl
  | later =>
    simp only [Fate.deliver, Fate.told, readPlain, laterContent]
    split
    · simp only [laterToolCalls, said_append, said_toolCallsEvents hf]
      split
      · rw [said_advance, String.empty_append]
      · rw [said_nil, String.empty_append]
    · split
      · exact said_laterBlock _ _ _ _
      · split
        · exact said_laterBlock _ _ _ _
        · rfl
  | lost => rfl

theorem said_deliver (hf : ∀ json, f (.inputJsonDelta json) = "") (info : ClaudeRelayInfo)
    (xs : List (Fate × ChatCompletionsStreamResponseChoiceDelta)) :
    said f (deliver info xs) = String.join (xs.map (Fate.told f)) := by
  induction xs generalizing info with
  | nil => rfl
  | cons x rest ih =>
    rw [deliver, said_append, said_fate_deliver hf, ih, List.map_cons, String.join_cons]

end Reader

theorem laterFates_deltas (usageKnown : Bool) (chunks : List ChatCompletionsStreamResponse) :
    (laterFates usageKnown chunks).map Prod.snd = chunks.map fun chunk => chunk.delta := by
  induction chunks generalizing usageKnown with
  | nil => rfl
  | cons chunk rest ih =>
    simp only [laterFates, List.map_cons]
    split
    · rw [List.map_map]
      rfl
    · rw [ih]

/-- Every delta has a fate. -/
theorem fates_deltas (chunks : List ChatCompletionsStreamResponse) :
    (fates chunks).map Prod.snd = chunks.map fun chunk => chunk.delta := by
  cases chunks with
  | nil => rfl
  | cons chunk rest =>
    simp only [fates, List.map_cons]
    split
    · rw [List.map_map]
      rfl
    · rw [laterFates_deltas]

/-- The text or the reasoning of a stream arrives exactly if that of each chunk does. -/
theorem said_handleStream_iff {f : ContentDelta → String}
    (hf : ∀ json, f (.inputJsonDelta json) = "") (estimatePromptTokens : ℤ)
    (chunks : List ChatCompletionsStreamResponse)
    {g : ChatCompletionsStreamResponseChoiceDelta → String}
    (hg : ∀ x ∈ fates chunks, Fate.told f x = g x.2 ∨ Fate.told f x = "") :
    said f (handleStream (initialInfo estimatePromptTokens) chunks).1 =
        String.join (chunks.map fun chunk => g chunk.delta) ↔
      ∀ x ∈ fates chunks, Fate.told f x = g x.2 := by
  have hdeltas : (chunks.map fun chunk => g chunk.delta) = (fates chunks).map fun x => g x.2 := by
    have hmap := congrArg (List.map g) (fates_deltas chunks)
    rw [List.map_map, List.map_map] at hmap
    exact hmap.symm
  rw [hdeltas, ← said_contentEvents, contents_handleStream, said_contentEvents, said_deliver hf]
  exact join_map_eq_iff hg

theorem empty_eq_iff {s : String} {p : Prop} (hp : ¬ p) : "" = s ↔ (s ≠ "" → p) := by
  constructor
  · intro hs hne
    exact absurd hs.symm hne
  · intro h
    by_contra hne
    exact hp (h (Ne.symm hne))

/-- The text of a chunk comes through whole or not at all. -/
theorem told_text (x : Fate × ChatCompletionsStreamResponseChoiceDelta) :
    (Fate.told ContentDelta.text x = x.2.getContentString ∨ Fate.told ContentDelta.text x = "") ∧
      (Fate.told ContentDelta.text x = x.2.getContentString ↔ Fate.KeepsText x) := by
  rcases x with ⟨fate, delta⟩
  cases fate with
  | first =>
    simp only [Fate.told, readPlain, Fate.KeepsText, ContentDelta.text]
    split_ifs with hreasoning hcontent
    · exact ⟨.inr rfl, empty_eq_iff (by simp [hreasoning])⟩
    · have hempty := not_not.1 hreasoning
      simp [hempty]
    · have hempty := not_not.1 hcontent
      simp [hempty]
  | later =>
    simp only [Fate.told, readPlain, Fate.KeepsText, ContentDelta.text]
    split_ifs with htools hreasoning hcontent
    · exact ⟨.inr rfl, empty_eq_iff (by simp [htools])⟩
    · exact ⟨.inr rfl, empty_eq_iff (by simp [hreasoning])⟩
    · have hempty := not_not.1 hreasoning
      simp [not_not.1 htools, hempty]
    · have hempty := not_not.1 hcontent
      simp [hempty]
  | lost => exact ⟨.inr rfl, eq_comm⟩

/-- So does its reasoning. -/
theorem told_thinking (x : Fate × ChatCompletionsStreamResponseChoiceDelta) :
    (Fate.told ContentDelta.thinking x = x.2.getReasoningContent ∨
        Fate.told ContentDelta.thinking x = "") ∧
      (Fate.told ContentDelta.thinking x = x.2.getReasoningContent ↔ Fate.KeepsReasoning x) := by
  rcases x with ⟨fate, delta⟩
  have hplain : readPlain ContentDelta.thinking delta = delta.getReasoningContent := by
    simp only [readPlain, ContentDelta.thinking]
    split_ifs with hreasoning hcontent
    · rfl
    · exact (not_not.1 hreasoning).symm
    · exact (not_not.1 hreasoning).symm
  cases fate with
  | first => exact ⟨.inl hplain, iff_of_true hplain trivial⟩
  | later =>
    simp only [Fate.told, Fate.KeepsReasoning, hplain]
    split_ifs with htools
    · exact ⟨.inr rfl, empty_eq_iff (by simp [htools])⟩
    · simp [not_not.1 htools]
  | lost => exact ⟨.inr rfl, eq_comm⟩

/-! ### Stop reasons -/

theorem stopReasons_append (es es' : List ClaudeEvent) :
    stopReasons (es ++ es') = stopReasons es ++ stopReasons es' := List.filterMap_append

theorem stopReasons_of_blocks {es : List ClaudeEvent} (h : AllBlocks es) : stopReasons es = [] := by
  refine List.filterMap_eq_nil_iff.2 fun e he => ?_
  have hblock := h e he
  cases e with
  | messageDelta stopReason usage => simp [ClaudeEvent.isBlock] at hblock
  | messageStart id model inputTokens => rfl
  | contentBlockStart index block => rfl
  | contentBlockDelta index delta => rfl
  | contentBlockStop index => rfl
  | messageStop => rfl

theorem stopReasons_closeMessage (usage : OpenAIUsage) (info : ClaudeRelayInfo) :
    stopReasons (closeMessage (some usage) info) = [stopReasonOpenAI2Claude info.finishReason] := by
  have hclose := closeMessage_some [] usage info
  rw [List.nil_append, List.nil_append] at hclose
  rw [hclose, stopReasons_append, stopReasons_of_blocks (allBlocks_stopOpenBlocks info)]
  rfl

theorem sentReason_of_ne_empty {finish : String} (h : finish ≠ "") :
    sentReason finish = stopReasonOpenAI2Claude finish :=
  if_neg (stopReasonOpenAI2Claude_ne_empty h)

theorem toList_map_congr {α β : Type*} {f g : α → β} (o : Option α) (h : ∀ a, f a = g a) :
    (o.map f).toList = (o.map g).toList := by
  rw [funext h]

/-- The stop reason that the chunks after the first give. -/
theorem stopReasons_handleLater (info : ClaudeRelayInfo)
    (chunks : List ChatCompletionsStreamResponse) (hdone : info.done = false)
    (hcount : 0 < info.sendResponseCount) :
    stopReasons (handleStream info chunks).1 =
      ((closedLater info.usage.isSome chunks).map fun closed =>
        sentReason (lastFinish info.finishReason closed)).toList := by
  induction chunks generalizing info with
  | nil => rfl
  | cons chunk rest ih =>
    have hcount' : 0 < (info.receive chunk).sendResponseCount := Nat.succ_pos _
    have hgo : (info.receive chunk).done = false := hdone
    simp only [handleStream, handleStreamFormat_later chunk info hdone hcount, closedLater]
    rw [← receive_usage_isSome, convertLater]
    cases hchoices : chunk.choices with
    | nil =>
      have hfinish := (said_of_no_choice hchoices).2.1
      obtain ⟨hcloses, hknown⟩ := closes_of_no_choice hchoices info
      rw [hcloses, hknown]
      cases husage : (info.receive chunk).usage with
      | none =>
        have hrest := ih _ hgo hcount'
        rw [husage] at hrest
        simp only [Option.isSome_none, Bool.false_eq_true, if_false, List.nil_append, hrest,
          Option.map_map]
        refine toList_map_congr _ fun closed => ?_
        simp only [Function.comp_apply, lastFinish, hfinish, ne_eq, not_true_eq_false,
          if_false]
        rfl
      | some usage =>
        simp only [Option.isSome_some, if_true, Option.map_some, lastFinish, hfinish, ne_eq,
          not_true_eq_false, if_false]
        rw [handleStream_of_done rfl, List.append_nil, stopReasons_append,
          stopReasons_of_blocks (allBlocks_stopOpenBlocks _)]
        rfl
    | cons choice others =>
      have hchunk := (said_of_choice hchoices).2.1
      rw [closes_of_choice hchoices]
      by_cases hfinish : choice.finish = ""
      · -- the message goes on
        obtain ⟨hblocks, hsame⟩ := blocksOnly_laterContent choice.delta (info.receive chunk)
        have hgo' : (laterContent choice.delta (info.receive chunk)).2.done = false :=
          hsame.done.trans hdone
        have hrest := ih _ hgo' (by rw [hsame.sendResponseCount]; exact hcount')
        rw [hsame.usage, hsame.finishReason] at hrest
        simp only [hfinish, ne_eq, not_true_eq_false, decide_false, Bool.false_and,
          Bool.false_eq_true, if_false, hgo', Bool.or_false, stopReasons_append,
          stopReasons_of_blocks hblocks, List.nil_append, hrest, Option.map_map]
        refine toList_map_congr _ fun closed => ?_
        simp only [Function.comp_apply, lastFinish, hchunk, hfinish, ne_eq, not_true_eq_false,
          if_false]
        rfl
      · cases husage : chunk.usage with
        | none =>
          -- its reason is kept until a usage closes the message
          have hrest := ih { info.receive chunk with finishReason := choice.finish }
            hgo hcount'
          simp only [hfinish, ne_eq, not_false_eq_true, decide_true, if_true,
            Option.isNone_none, Bool.and_self, Option.isSome_none, Bool.and_false,
            Bool.false_eq_true, if_false, List.nil_append, hrest, Option.map_map]
          refine toList_map_congr _ fun closed => ?_
          simp [lastFinish, hchunk, hfinish]
        | some usage =>
          -- its own usage closes the message, and later chunks are lost
          obtain ⟨hblocks, hsame⟩ := blocksOnly_laterContent choice.delta
            { info.receive chunk with finishReason := choice.finish }
          simp only [hfinish, ne_eq, not_false_eq_true, decide_true, if_true,
            Option.isNone_some, Bool.and_false, Bool.false_eq_true, if_false, Bool.true_or,
            Option.isSome_some, Bool.and_self, Option.map_some, lastFinish, hchunk]
          rw [handleStream_of_done rfl, List.append_nil, stopReasons_append,
            stopReasons_of_blocks hblocks, stopReasons_closeMessage, hsame.finishReason,
            sentReason_of_ne_empty hfinish]
          rfl

/-- **The stop reason that is sent.** -/
theorem stopReasons_handleStream (estimatePromptTokens : ℤ)
    (chunks : List ChatCompletionsStreamResponse) :
    stopReasons (handleStream (initialInfo estimatePromptTokens) chunks).1 =
      ((closedChunks chunks).map fun closed => sentReason (lastFinish "" closed)).toList := by
  cases chunks with
  | nil => rfl
  | cons chunk rest =>
    have hstart : ∀ id model inputTokens (es : List ClaudeEvent),
        stopReasons (.messageStart id model inputTokens :: es) = stopReasons es :=
      fun _ _ _ _ => rfl
    simp only [handleStream, closedChunks]
    rw [handleStreamFormat_first chunk _ rfl rfl, receive_initialInfo, convertFirst]
    cases hchoices : chunk.choices with
    | nil =>
      obtain ⟨hfinished, hfinish, _⟩ := said_of_no_choice hchoices
      have hrest := stopReasons_handleLater
        ((initialInfo estimatePromptTokens).reframe chunk.usage "" false 1) rest rfl
        (Nat.succ_pos 0)
      rw [hfinished]
      simp only [stopReasons_append, hstart, hrest, Bool.false_eq_true, if_false,
        Option.map_map]
      rw [stopReasons_of_blocks allBlocks_nil, List.nil_append]
      refine toList_map_congr _ fun closed => ?_
      simp only [Function.comp_apply, lastFinish, hfinish, ne_eq, not_true_eq_false, if_false]
      rfl
    | cons choice others =>
      obtain ⟨hfinished, hchunk, _⟩ := said_of_choice hchoices
      obtain ⟨htools, hsame⟩ := blocksOnly_firstToolCall choice.delta
        ((initialInfo estimatePromptTokens).reframe chunk.usage "" false 1)
      obtain ⟨hcontents, hsame'⟩ := blocksOnly_firstContent choice.delta
        (firstToolCall choice.delta
          ((initialInfo estimatePromptTokens).reframe chunk.usage "" false 1)).2
      have hinfo := hsame.trans hsame'
      have hbody := stopReasons_of_blocks (allBlocks_append.2 ⟨htools, hcontents⟩)
      rw [hfinished]
      by_cases hfinish : choice.finish = ""
      · have hrest := stopReasons_handleLater
          (firstContent choice.delta (firstToolCall choice.delta
            ((initialInfo estimatePromptTokens).reframe chunk.usage "" false 1)).2).2 rest
          hinfo.done (by rw [hinfo.sendResponseCount]; exact Nat.succ_pos 0)
        rw [hinfo.usage, hinfo.finishReason] at hrest
        simp only [hfinish, ne_eq, not_true_eq_false, decide_false, Bool.false_eq_true,
          if_false, stopReasons_append (.messageStart _ _ _ :: _), hstart, hbody, hrest,
          Option.map_map, List.nil_append]
        refine toList_map_congr _ fun closed => ?_
        simp only [Function.comp_apply, lastFinish, hchunk, hfinish, ne_eq, not_true_eq_false,
          if_false]
        rfl
      · simp only [hfinish, ne_eq, not_false_eq_true, decide_true, if_true]
        rw [handleStream_of_done rfl, List.append_nil, hstart, stopReasons_append, hbody,
          List.nil_append]
        cases husage : chunk.usage with
        | none =>
          have hnone : (firstContent choice.delta (firstToolCall choice.delta
              ((initialInfo estimatePromptTokens).reframe none "" false 1)).2).2.usage =
              none := by
            rw [husage] at hinfo
            exact hinfo.usage
          simp only [closeMessage, hnone, Option.or_none, List.append_nil,
            Option.isSome_none, Bool.false_eq_true, if_false, Option.map_none,
            Option.toList_none]
          rw [stopReasons_append, stopReasons_of_blocks (allBlocks_stopOpenBlocks _)]
          rfl
        | some usage =>
          rw [stopReasons_closeMessage]
          simp [lastFinish, hchunk, hfinish, sentReason_of_ne_empty]

/-! ### Tool calls -/

theorem toolUses_cons (uses : List (ℤ × ToolCallRequest)) (e : ClaudeEvent)
    (es : List ClaudeEvent) :
    toolUses uses (e :: es) = (addUse uses e).bind fun uses' => toolUses uses' es := rfl

/-- Events that follow events a client understands. -/
theorem toolUses_append {uses uses' : List (ℤ × ToolCallRequest)} {es : List ClaudeEvent}
    (es' : List ClaudeEvent) (h : toolUses uses es = some uses') :
    toolUses uses (es ++ es') = toolUses uses' es' := by
  rw [toolUses, List.foldlM_append]
  exact congrArg (fun o : Option _ => o.bind fun uses' => toolUses uses' es') h

/-- Events that are of no tool call. -/
theorem toolUses_plain {uses : List (ℤ × ToolCallRequest)} {es : List ClaudeEvent}
    (h : ∀ e ∈ es, addUse uses e = some uses) : toolUses uses es = some uses := by
  induction es with
  | nil => rfl
  | cons e es ih =>
    rw [toolUses_cons, h e List.mem_cons_self]
    exact ih fun e' he' => h e' (List.mem_cons_of_mem _ he')

theorem toolUses_contentEvents (uses : List (ℤ × ToolCallRequest)) (es : List ClaudeEvent) :
    toolUses uses (contentEvents es) = toolUses uses es := by
  induction es generalizing uses with
  | nil => rfl
  | cons e es ih =>
    rw [contentEvents, List.filter_cons, toolUses_cons]
    split
    · rw [toolUses_cons]
      exact congrArg _ (funext fun uses' => ih uses')
    · rename_i he
      have hplain : addUse uses e = some uses := by
        cases e with
        | contentBlockStart index block => exact absurd rfl he
        | contentBlockDelta index delta => exact absurd rfl he
        | messageStart id model inputTokens => rfl
        | contentBlockStop index => rfl
        | messageDelta stopReason usage => rfl
        | messageStop => rfl
      rw [hplain]
      exact ih uses

theorem toolUses_stops (uses : List (ℤ × ToolCallRequest)) (info : ClaudeRelayInfo) :
    toolUses uses (stopOpenBlocks info) = some uses := by
  rw [← toolUses_contentEvents, contentEvents_stops]
  rfl

theorem toolUses_advance (uses : List (ℤ × ToolCallRequest)) (info : ClaudeRelayInfo) :
    toolUses uses (stopOpenBlocksAndAdvance info).1 = some uses := by
  unfold stopOpenBlocksAndAdvance
  split
  · rfl
  · exact toolUses_stops uses info
  · exact toolUses_stops uses info
  · exact toolUses_stops uses info

/-- The numbers of the calls and the indexes of their blocks: the pieces of the calls of the group
find their blocks, and every index is known. -/
structure Numbered (s : Numbering) (pairs : List (ℤ × ℤ)) : Prop where
  seen : ∀ number, number ∈ s.seen ↔ number ∈ pairs.map Prod.fst
  group : ∀ p ∈ pairs, p.1 ∈ s.group → p.2 = s.index + p.1
  groupSeen : ∀ number ∈ s.group, number ∈ s.seen
  nodup : (pairs.map Prod.snd).Nodup
  taken : ∀ p ∈ pairs, p.2 ∈ s.taken

namespace Numbered

variable {s : Numbering} {pairs : List (ℤ × ℤ)}

/-- Another block is open, or none. -/
theorem switchTo (h : Numbered s pairs) (type : LastMessageType) :
    Numbered (s.switchTo type) pairs := by
  unfold Numbering.switchTo
  split
  · exact h
  · exact ⟨h.seen, fun _ _ hgroup => absurd hgroup List.not_mem_nil,
      fun _ hgroup => absurd hgroup List.not_mem_nil, h.nodup, h.taken⟩

/-- A piece of a call of the group names the same call by its number and by its index. -/
theorem same_call (h : Numbered s pairs) {number : ℤ} (hgroup : number ∈ s.group) :
    ∀ p ∈ pairs, p.1 = number ↔ p.2 = s.index + number := by
  intro p hp
  constructor
  · rintro rfl
    exact h.group p hp hgroup
  · intro hindex
    obtain ⟨q, hq, hnumber⟩ := List.mem_map.1 ((h.seen number).1 (h.groupSeen number hgroup))
    have hq' : q.2 = s.index + number := by
      rw [← hnumber]
      exact h.group q hq (by rw [hnumber]; exact hgroup)
    have hpq : p = q := List.inj_on_of_nodup_map h.nodup hp hq (by rw [hindex, hq'])
    rw [hpq, hnumber]

/-- The first piece of a call whose block is free. -/
theorem concat (h : Numbered s pairs) {number : ℤ} (hnew : number ∉ s.seen)
    (hfree : s.index + number ∉ s.taken) (maxOffset : ℤ) :
    s.index + number ∉ pairs.map Prod.snd ∧
      Numbered
        { s with
          seen := number :: s.seen
          group := number :: s.group
          taken := (s.index + number) :: s.taken
          maxOffset := maxOffset }
        (pairs ++ [(number, s.index + number)]) := by
  have hindex : s.index + number ∉ pairs.map Prod.snd := by
    intro hmem
    obtain ⟨p, hp, heq⟩ := List.mem_map.1 hmem
    exact hfree (heq ▸ h.taken p hp)
  refine ⟨hindex, ?_, ?_, ?_, ?_, ?_⟩
  · intro n
    have hseen := h.seen n
    rw [List.map_append, List.mem_append, ← hseen, List.mem_cons]
    simp [or_comm]
  · intro p hp hgroup
    rcases List.mem_append.1 hp with hp | hp
    · rcases List.mem_cons.1 hgroup with heq | hgroup
      · refine absurd ((h.seen number).2 ?_) hnew
        exact List.mem_map.2 ⟨p, hp, heq⟩
      · exact h.group p hp hgroup
    · rw [List.mem_singleton.1 hp]
  · intro n hn
    rcases List.mem_cons.1 hn with rfl | hn
    · exact List.mem_cons_self
    · exact List.mem_cons_of_mem _ (h.groupSeen n hn)
  · rw [List.map_append, List.map_singleton]
    exact List.nodup_append.2 ⟨h.nodup, List.nodup_singleton _, by
      intro a ha b hb
      rw [List.mem_singleton.1 hb]
      rintro rfl
      exact hindex ha⟩
  · intro p hp
    rcases List.mem_append.1 hp with hp | hp
    · exact List.mem_cons_of_mem _ (h.taken p hp)
    · rw [List.mem_singleton.1 hp]
      exact List.mem_cons_self

end Numbered

/-- **The pieces of a chunk**: each one continues the call it belongs to, or starts a new one, for
the upstream and for the client. -/
theorem pieces_follow {s s' : Numbering} {pairs : List (ℤ × ℤ)}
    {calls uses : List (ℤ × ToolCallRequest)} {toolCalls : List ToolCallResponse} {i : ℕ}
    (h : Numbered s pairs) (hsame : Keyed.Renumbered pairs calls uses)
    (hpieces : s.pieces i toolCalls = some s') :
    s'.last = s.last ∧ s'.index = s.index ∧
      s'.maxOffset = (toolCallsEvents s.index i s.maxOffset toolCalls).2 ∧
      ∃ pairs' uses', Numbered s' pairs' ∧
        toolUses uses (toolCallsEvents s.index i s.maxOffset toolCalls).1 = some uses' ∧
        Keyed.Renumbered pairs' (addPieces i calls toolCalls) uses' := by
  induction toolCalls generalizing i s pairs calls uses with
  | nil =>
    rw [Numbering.pieces, Option.some.injEq] at hpieces
    subst hpieces
    exact ⟨rfl, rfl, rfl, pairs, uses, h, rfl, hsame⟩
  | cons piece rest ih =>
    have hkeys : Keyed.keys calls = pairs.map Prod.fst := hsame.keys_left
    have hindexes : Keyed.keys uses = pairs.map Prod.snd := hsame.keys_right
    have hwider : Numbered { s with maxOffset := max s.maxOffset (piece.offset i) } pairs :=
      ⟨h.seen, h.group, h.groupSeen, h.nodup, h.taken⟩
    simp only [Numbering.pieces] at hpieces
    simp only [toolCallsEvents, addPieces]
    by_cases hseen : piece.offset i ∈ s.seen
    · -- another piece of a call
      rw [if_pos hseen] at hpieces
      have hadd : addPiece calls (piece.offset i) piece = Keyed.update (piece.offset i)
          (ToolCallRequest.append piece.arguments) calls := by
        rw [addPiece, if_pos (by rw [hkeys]; exact (h.seen _).1 hseen)]
      split at hpieces
      · rename_i hcontinues
        obtain ⟨hname, harguments⟩ := hcontinues
        rw [hadd]
        by_cases hempty : piece.arguments = ""
        · have hevents : toolCallEvents (s.index + piece.offset i) piece = [] := by
            simp [toolCallEvents, hname, hempty]
          have hnothing : Keyed.update (piece.offset i)
              (ToolCallRequest.append piece.arguments) calls = calls := by
            refine Keyed.update_id calls fun v => ?_
            simp [ToolCallRequest.append, hempty]
          rw [hevents, hnothing, List.nil_append]
          exact ih hwider hsame hpieces
        · have hgroup := harguments.resolve_left hempty
          have hnames := h.same_call hgroup
          have hevents : toolCallEvents (s.index + piece.offset i) piece =
              [.contentBlockDelta (s.index + piece.offset i) (.inputJsonDelta piece.arguments)] := by
            simp [toolCallEvents, hname, hempty]
          obtain ⟨q, hq, hnumber⟩ := List.mem_map.1 ((h.seen _).1 hseen)
          have hopen : s.index + piece.offset i ∈ Keyed.keys uses := by
            rw [hindexes, ← (hnames q hq).1 hnumber]
            exact List.mem_map_of_mem hq
          have hstep : toolUses uses [.contentBlockDelta (s.index + piece.offset i)
              (.inputJsonDelta piece.arguments)] = some (Keyed.update (s.index + piece.offset i)
                (ToolCallRequest.append piece.arguments) uses) := by
            rw [toolUses_cons, addUse, if_pos hopen]
            rfl
          rw [hevents, toolUses_append _ hstep]
          exact ih hwider (hsame.update _ hnames) hpieces
      · exact absurd hpieces (by simp)
    · -- the first piece of a call
      rw [if_neg hseen] at hpieces
      have hadd : addPiece calls (piece.offset i) piece =
          calls ++ [(piece.offset i, ⟨piece.id, piece.name, piece.arguments⟩)] := by
        rw [addPiece, if_neg]
        rw [hkeys]
        exact fun hmem => hseen ((h.seen _).2 hmem)
      split at hpieces
      · rename_i hstarts
        obtain ⟨hname, hfree⟩ := hstarts
        obtain ⟨hindex, hnext⟩ := h.concat hseen hfree (max s.maxOffset (piece.offset i))
        rw [← hindexes] at hindex
        have hstep : toolUses uses (toolCallEvents (s.index + piece.offset i) piece) =
            some (uses ++ [(s.index + piece.offset i,
              ⟨piece.id, piece.name, piece.arguments⟩)]) := by
          have hstart : addUse uses (.contentBlockStart (s.index + piece.offset i)
              (.toolUse piece.id piece.name)) =
              some (uses ++ [(s.index + piece.offset i, ⟨piece.id, piece.name, ""⟩)]) :=
            if_neg hindex
          by_cases hempty : piece.arguments = ""
          · have hevents : toolCallEvents (s.index + piece.offset i) piece =
                [.contentBlockStart (s.index + piece.offset i)
                  (.toolUse piece.id piece.name)] := by
              simp [toolCallEvents, hname, hempty]
            rw [hevents, toolUses_cons, hstart, hempty]
            rfl
          · have hevents : toolCallEvents (s.index + piece.offset i) piece =
                [.contentBlockStart (s.index + piece.offset i) (.toolUse piece.id piece.name),
                  .contentBlockDelta (s.index + piece.offset i)
                    (.inputJsonDelta piece.arguments)] := by
              simp [toolCallEvents, hname, hempty]
            have hopen : s.index + piece.offset i ∈ Keyed.keys (uses ++
                [(s.index + piece.offset i, (⟨piece.id, piece.name, ""⟩ : ToolCallRequest))]) := by
              simp [Keyed.keys]
            rw [hevents, toolUses_cons, hstart, Option.bind_some, toolUses_cons, addUse,
              if_pos hopen, Keyed.update_concat _ _ hindex]
            simp [toolUses, ToolCallRequest.append]
        rw [hadd, toolUses_append _ hstep]
        exact ih hnext (hsame.concat _ _ _) hpieces
      · exact absurd hpieces (by simp)

/-- The converter's state and the numbers of the calls. -/
structure Follows (info : ClaudeRelayInfo) (s : Numbering) (pairs : List (ℤ × ℤ)) : Prop
    extends Numbered s pairs where
  last : info.lastMessagesType = s.last
  index : s.last ≠ .tools → info.index = s.index
  base : s.last = .tools → info.toolCallBaseIndex = s.index
  maxOffset : s.last = .tools → info.toolCallMaxIndexOffset = s.maxOffset

/-- What is open is left for the next index. -/
theorem Follows.next {info : ClaudeRelayInfo} {s : Numbering} {pairs : List (ℤ × ℤ)}
    (h : Follows info s pairs) : (stopOpenBlocksAndAdvance info).2.index = s.next := by
  unfold stopOpenBlocksAndAdvance Numbering.next
  rw [h.last]
  cases hlast : s.last with
  | none => exact h.index (by simp [hlast])
  | text => exact congrArg (· + 1) (h.index (by simp [hlast]))
  | thinking => exact congrArg (· + 1) (h.index (by simp [hlast]))
  | tools => simp only [h.base hlast, h.maxOffset hlast]

/-- The text or the reasoning of a later chunk. -/
theorem Follows.laterBlock {info : ClaudeRelayInfo} {s : Numbering} {pairs : List (ℤ × ℤ)}
    (h : Follows info s pairs) {type : LastMessageType} (block : ContentBlock)
    (delta : ContentDelta) (htype : type ≠ .tools) :
    Follows (NewApi.laterBlock type block delta info).2 (s.switchTo type) pairs := by
  have hlast : (s.switchTo type).last = type := by
    unfold Numbering.switchTo
    split
    · assumption
    · rfl
  refine ⟨h.toNumbered.switchTo type, hlast.symm, fun _ => ?_, fun h' => absurd h' ?_,
    fun h' => absurd h' ?_⟩
  · simp only [NewApi.laterBlock, Numbering.switchTo, h.last]
    by_cases hopen : s.last = type
    · rw [if_neg (not_not.2 hopen), if_pos hopen]
      exact h.index (hopen ▸ htype)
    · rw [if_pos hopen, if_neg hopen]
      exact h.next
  · rwa [hlast]
  · rwa [hlast]

/-- A text or a piece of reasoning is of no tool call. -/
theorem toolUses_laterBlock (uses : List (ℤ × ToolCallRequest)) {type : LastMessageType}
    {block : ContentBlock} {delta : ContentDelta} (info : ClaudeRelayInfo)
    (hblock : block = .text ∨ block = .thinking) (hdelta : ∀ json, delta ≠ .inputJsonDelta json) :
    toolUses uses (laterBlock type block delta info).1 = some uses := by
  have hstart : ∀ index, addUse uses (.contentBlockStart index block) = some uses := by
    intro index
    rcases hblock with rfl | rfl
    · rfl
    · rfl
  have hpiece : ∀ index, addUse uses (.contentBlockDelta index delta) = some uses := by
    intro index
    cases delta with
    | textDelta text => rfl
    | thinkingDelta thinking => rfl
    | inputJsonDelta json => exact absurd rfl (hdelta json)
  simp only [laterBlock]
  split
  · rw [List.append_assoc, toolUses_append _ (toolUses_advance uses info)]
    refine toolUses_plain fun e he => ?_
    rcases List.mem_append.1 he with he | he
    · rw [List.mem_singleton.1 he]
      exact hstart _
    · rw [List.mem_singleton.1 he]
      exact hpiece _
  · refine toolUses_plain fun e he => ?_
    rw [List.nil_append] at he
    rw [List.mem_singleton.1 he]
    exact hpiece _

/-- **The tool calls of a later chunk**: the client has the same calls as the upstream after it. -/
theorem later_follows {info : ClaudeRelayInfo} {s s' : Numbering} {pairs : List (ℤ × ℤ)}
    {calls uses : List (ℤ × ToolCallRequest)} {delta : ChatCompletionsStreamResponseChoiceDelta}
    (h : Follows info s pairs) (hsame : Keyed.Renumbered pairs calls uses)
    (hkeep : s.keep (.later, delta) = some s') :
    ∃ pairs' uses', Follows (laterContent delta info).2 s' pairs' ∧
      toolUses uses (laterContent delta info).1 = some uses' ∧
      Keyed.Renumbered pairs' (addPieces 0 calls delta.toolCalls) uses' := by
  simp only [Numbering.keep] at hkeep
  by_cases htools : delta.toolCalls = []
  · -- text, reasoning or nothing
    rw [if_neg (not_not.2 htools), Option.some.injEq, Numbering.plain] at hkeep
    simp only [laterContent, htools, addPieces]
    rw [if_neg (not_not.2 rfl)]
    by_cases hreasoning : delta.getReasoningContent = ""
    · rw [if_neg (not_not.2 hreasoning)] at hkeep ⊢
      by_cases hcontent : delta.getContentString = ""
      · rw [if_neg (not_not.2 hcontent)] at hkeep ⊢
        exact ⟨pairs, uses, hkeep ▸ h, rfl, hsame⟩
      · rw [if_pos hcontent] at hkeep ⊢
        exact ⟨pairs, uses, hkeep ▸ h.laterBlock _ _ (by simp),
          toolUses_laterBlock uses info (.inl rfl) (by simp), hsame⟩
    · rw [if_pos hreasoning] at hkeep ⊢
      exact ⟨pairs, uses, hkeep ▸ h.laterBlock _ _ (by simp),
        toolUses_laterBlock uses info (.inr rfl) (by simp), hsame⟩
  · rw [if_pos htools] at hkeep
    simp only [laterContent]
    rw [if_pos htools]
    obtain ⟨hlast, hindex, hmax, pairs', uses', hnext, huses, hsame'⟩ :=
      pieces_follow (h.toNumbered.switchTo .tools) hsame hkeep
    simp only [laterToolCalls, h.last]
    by_cases htype : s.last = .tools
    · -- the group goes on
      have hswitch : s.switchTo .tools = s := if_pos htype
      rw [hswitch] at hlast hindex hmax huses
      rw [if_neg (not_not.2 htype), h.base htype, h.maxOffset htype]
      exact ⟨pairs', uses', ⟨hnext, (hlast.trans htype).symm,
        fun hne => absurd (hlast.trans htype) hne, fun _ => hindex.symm,
        fun _ => hmax.symm⟩, huses, hsame'⟩
    · -- a group is opened at the next index
      have hswitch : s.switchTo .tools =
          { s with group := [], last := .tools, index := s.next, maxOffset := 0 } := if_neg htype
      rw [hswitch] at hlast hindex hmax huses
      rw [if_pos htype]
      dsimp only at hlast hindex hmax huses ⊢
      rw [h.next]
      refine ⟨pairs', uses', ⟨hnext, hlast.symm, fun hne => absurd hlast hne, fun _ => hindex.symm,
        fun _ => hmax.symm⟩, ?_, hsame'⟩
      rw [toolUses_append _ (toolUses_advance uses info)]
      exact huses

/-- **The tool calls of the chunks after the first.** -/
theorem deliver_follows {info : ClaudeRelayInfo} {s : Numbering} {pairs : List (ℤ × ℤ)}
    {calls uses : List (ℤ × ToolCallRequest)}
    {xs : List (Fate × ChatCompletionsStreamResponseChoiceDelta)}
    (hxs : ∀ x ∈ xs, x.1 ≠ .first) (h : Follows info s pairs)
    (hsame : Keyed.Renumbered pairs calls uses) (hkept : ToolsKept s xs) :
    ∃ pairs' uses', toolUses uses (deliver info xs) = some uses' ∧
      Keyed.Renumbered pairs'
        (xs.foldl (fun calls x => addPieces 0 calls x.2.toolCalls) calls) uses' := by
  induction xs generalizing info s pairs calls uses with
  | nil => exact ⟨pairs, uses, rfl, hsame⟩
  | cons x rest ih =>
    have hrest : ∀ y ∈ rest, y.1 ≠ .first := fun y hy => hxs y (List.mem_cons_of_mem _ hy)
    rw [ToolsKept] at hkept
    rcases x with ⟨fate, delta⟩
    cases fate with
    | first => exact absurd rfl (hxs _ List.mem_cons_self)
    | later =>
      cases hkeep : s.keep (.later, delta) with
      | none => simp [hkeep] at hkept
      | some s' =>
        simp only [hkeep] at hkept
        obtain ⟨pairs', uses', hnext, huses, hsame'⟩ := later_follows h hsame hkeep
        rw [deliver, List.foldl_cons]
        obtain ⟨pairs'', uses'', huses', hsame''⟩ := ih hrest hnext hsame' hkept
        exact ⟨pairs'', uses'', (toolUses_append _ huses).trans huses', hsame''⟩
    | lost =>
      by_cases htools : delta.toolCalls = []
      · simp only [Numbering.keep, htools, if_true] at hkept
        rw [deliver, List.foldl_cons]
        simp only [htools]
        exact ih hrest h hsame hkept
      · simp [Numbering.keep, htools] at hkept

/-- In the first chunk, text and reasoning come after the tool call as in a later chunk. -/
theorem firstContent_eq (info : ClaudeRelayInfo) (delta : ChatCompletionsStreamResponseChoiceDelta)
    (htext : info.lastMessagesType ≠ .text) (hthinking : info.lastMessagesType ≠ .thinking) :
    firstContent delta info = laterContent { delta with toolCalls := [] } info := by
  simp only [firstContent, laterContent, firstBlock_of_ne _ _ htext, firstBlock_of_ne _ _ hthinking]
  rw [if_neg (not_not.2 rfl)]
  rfl

/-- The tool call of the first chunk. -/
theorem first_follows (info : ClaudeRelayInfo) {s' : Numbering}
    {delta : ChatCompletionsStreamResponseChoiceDelta} (htype : info.lastMessagesType = .none)
    (hindex : info.index = 0) (hkeep : Numbering.keep {} (.first, delta) = some s') :
    ∃ pairs' uses', Follows (Fate.deliver info (.first, delta)).2 s' pairs' ∧
      toolUses [] (Fate.deliver info (.first, delta)).1 = some uses' ∧
      Keyed.Renumbered pairs' (addPieces 0 [] delta.toolCalls) uses' := by
  -- a first chunk starts one call at most, in the first block
  have htool : ∃ s pairs uses, s' = s.plain delta ∧
      ((firstToolCall delta info).2.lastMessagesType = .none ∨
        (firstToolCall delta info).2.lastMessagesType = .tools) ∧
      Follows (firstToolCall delta info).2 s pairs ∧
      toolUses [] (firstToolCall delta info).1 = some uses ∧
      Keyed.Renumbered pairs (addPieces 0 [] delta.toolCalls) uses := by
    cases htools : delta.toolCalls with
    | nil =>
      simp only [Numbering.keep, htools, Option.some.injEq] at hkeep
      have hempty : Numbered {} [] := by constructor <;> simp
      refine ⟨_, [], [], hkeep.symm, .inl ?_, ?_, ?_, .nil⟩
      · simp only [firstToolCall, htools, htype]
      · simp only [firstToolCall, htools]
        exact ⟨hempty, htype, fun _ => hindex, nofun, nofun⟩
      · simp only [firstToolCall, htools]
        rfl
    | cons piece rest =>
      cases rest with
      | cons second rest => simp [Numbering.keep, htools] at hkeep
      | nil =>
        simp only [Numbering.keep, htools, Option.some.injEq] at hkeep
        have hone : Numbered
            { seen := [piece.offset 0]
              group := if piece.offset 0 = 0 then [piece.offset 0] else []
              taken := [0]
              last := .tools } [(piece.offset 0, 0)] := by
          refine ⟨by simp, ?_, ?_, by simp, by simp⟩
          · intro p hp hgroup
            rw [List.mem_singleton.1 hp] at hgroup ⊢
            split at hgroup
            · rename_i hzero
              simp [hzero]
            · simp at hgroup
          · intro number hgroup
            split at hgroup
            · exact hgroup
            · simp at hgroup
        refine ⟨_, [(piece.offset 0, 0)], [(0, ⟨piece.id, piece.name, piece.arguments⟩)],
          hkeep.symm, .inr ?_, ?_, ?_, .cons _ _ _ .nil⟩
        · simp only [firstToolCall, htools]
        · simp only [firstToolCall, htools]
          exact ⟨hone, rfl, fun hne => absurd rfl hne, fun _ => rfl, fun _ => rfl⟩
        · simp only [firstToolCall, htools]
          split
          · simp [toolUses, addUse, Keyed.keys, Keyed.update, ToolCallRequest.append]
          · rename_i hempty
            simp [toolUses, addUse, Keyed.keys, not_not.1 hempty]
  obtain ⟨s, pairs, uses, rfl, hlast, hfollows, huses, hsame⟩ := htool
  -- its text is sent as a later chunk's without calls would be
  have hkeep' : s.keep (.later, { delta with toolCalls := [] }) = some (s.plain delta) := rfl
  obtain ⟨pairs', uses', hnext, huses', hsame'⟩ := later_follows hfollows hsame hkeep'
  have hcontent := firstContent_eq (firstToolCall delta info).2 delta
    (by rcases hlast with h | h <;> simp [h]) (by rcases hlast with h | h <;> simp [h])
  simp only [Fate.deliver, hcontent]
  exact ⟨pairs', uses', hnext, (toolUses_append _ huses).trans huses', hsame'⟩

theorem laterFates_ne_first (usageKnown : Bool) (chunks : List ChatCompletionsStreamResponse) :
    ∀ x ∈ laterFates usageKnown chunks, x.1 ≠ .first := by
  induction chunks generalizing usageKnown with
  | nil => simp [laterFates]
  | cons chunk rest ih =>
    intro x hx
    simp only [laterFates] at hx
    rcases List.mem_cons.1 hx with rfl | hx
    · split <;> simp
    · split at hx
      · obtain ⟨chunk', _, rfl⟩ := List.mem_map.1 hx
        simp
      · exact ih _ x hx

/-- The tool calls of the deltas are those of the chunks. -/
theorem toolCalls_eq_fates (chunks : List ChatCompletionsStreamResponse) :
    toolCalls chunks =
      (fates chunks).foldl (fun calls x => addPieces 0 calls x.2.toolCalls) [] := by
  have hfold : ∀ xs : List (Fate × ChatCompletionsStreamResponseChoiceDelta),
      xs.foldl (fun calls x => addPieces 0 calls x.2.toolCalls) [] =
        (xs.map Prod.snd).foldl (fun calls d => addPieces 0 calls d.toolCalls) [] := fun xs => by
    rw [List.foldl_map]
  rw [hfold, fates_deltas, List.foldl_map, toolCalls]

/-- **The tool calls of a stream** of which none is lost. -/
theorem toolUses_handleStream (estimatePromptTokens : ℤ)
    {chunks : List ChatCompletionsStreamResponse} (hkept : ToolsKept {} (fates chunks)) :
    ∃ uses, toolUses [] (handleStream (initialInfo estimatePromptTokens) chunks).1 = some uses ∧
      Keyed.values uses = Keyed.values (toolCalls chunks) := by
  rw [← toolUses_contentEvents, contents_handleStream, toolUses_contentEvents, toolCalls_eq_fates]
  cases chunks with
  | nil => exact ⟨[], rfl, rfl⟩
  | cons chunk rest =>
    have hlater : ∀ x ∈ (if chunk.isFinished then
        rest.map fun chunk => ((.lost, chunk.delta) :
          Fate × ChatCompletionsStreamResponseChoiceDelta)
        else laterFates chunk.usage.isSome rest), x.1 ≠ .first := by
      intro x hx
      split at hx
      · obtain ⟨chunk', _, rfl⟩ := List.mem_map.1 hx
        simp
      · exact laterFates_ne_first _ _ x hx
    rw [fates, ToolsKept] at hkept
    cases hkeep : Numbering.keep {} (.first, chunk.delta) with
    | none => simp [hkeep] at hkept
    | some s' =>
      simp only [hkeep] at hkept
      obtain ⟨pairs, uses, hnext, huses, hsame⟩ :=
        first_follows (initialInfo estimatePromptTokens) rfl rfl hkeep
      obtain ⟨pairs', uses', huses', hsame'⟩ := deliver_follows hlater hnext hsame hkept
      rw [fates, deliver, List.foldl_cons]
      exact ⟨uses', (toolUses_append _ huses).trans huses', hsame'.values_eq.symm⟩

/-! ### Nothing is lost -/

/-- **The content of a stream.**  The text and the reasoning arrive exactly if those of each chunk
come through, and the image of the last finish reason is the last stop reason exactly if the message
is closed with it.  The tool calls arrive with their ids, names and arguments if none of them is
lost. -/
theorem claude_content (estimatePromptTokens : ℤ) (chunks : List ChatCompletionsStreamResponse) :
    let es := (handleStream (initialInfo estimatePromptTokens) chunks).1
    (said ContentDelta.text es = contents chunks ↔ ∀ x ∈ fates chunks, Fate.KeepsText x) ∧
    (said ContentDelta.thinking es = reasonings chunks ↔
      ∀ x ∈ fates chunks, Fate.KeepsReasoning x) ∧
    ((lastFinish "" chunks ≠ "" →
        (stopReasons es).getLast? = some (stopReasonOpenAI2Claude (lastFinish "" chunks))) ↔
      (lastFinish "" chunks ≠ "" → StopKept chunks)) ∧
    (ToolsKept {} (fates chunks) →
      ∃ uses, toolUses [] es = some uses ∧
        Keyed.values uses = Keyed.values (toolCalls chunks)) := by
  refine ⟨?_, ?_, ?_, toolUses_handleStream estimatePromptTokens⟩
  · rw [contents, said_handleStream_iff (fun _ => rfl) _ _ fun x _ => (told_text x).1]
    exact forall₂_congr fun x _ => (told_text x).2
  · rw [reasonings, said_handleStream_iff (fun _ => rfl) _ _ fun x _ => (told_thinking x).1]
    exact forall₂_congr fun x _ => (told_thinking x).2
  · refine imp_congr_right fun _ => ?_
    rw [stopReasons_handleStream, StopKept]
    cases closedChunks chunks with
    | none => simp
    | some closed => simp

/-- The last text of a stream together with its finish reason, and the usage after it: the client
is told that the answer has been cut off, and never sees its last words. -/
theorem last_words_are_lost :
    let chunk : Option String → Option String → Option OpenAIUsage → ChatCompletionsStreamResponse :=
      fun content finishReason usage =>
        ⟨"chatcmpl-1", "gemini-2.5-pro", [⟨⟨content, none, none, []⟩, finishReason⟩], usage⟩
    let chunks := [chunk (some "") none none, chunk (some "It is ") none none,
      chunk (some "four.") (some "length") none, chunk none (some "stop") (some ⟨7, 9, 0, 0, 0, 0⟩)]
    let es := (handleStream (initialInfo 7) chunks).1
    said ContentDelta.text es = "It is " ∧ contents chunks = "It is four." ∧
      said ContentDelta.text es ≠ contents chunks := by
  decide

end NewApi
