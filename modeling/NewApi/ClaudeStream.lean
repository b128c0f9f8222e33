/-
**A chat stream on its way from an OpenAI upstream to a Claude client.**

The upstream sends chunks, each with a piece of text, of reasoning or of tool calls.  The client
expects events: the start of the message, content blocks that are started, continued and stopped
under an index, and at the end a delta with the stop reason and the usage, and the stop of the
message.  The converter turns one chunk into the events it gives rise to.  What it has to remember
between two chunks is the kind of the block that is open, its index, and for parallel tool calls the
first index of the group and the greatest offset seen in it.

Main definitions:

* `NewApi.ChatCompletionsStreamResponse` — a chunk;
* `NewApi.ClaudeEvent` — an event;
* `NewApi.ClaudeRelayInfo` — what is remembered between two chunks;
* `NewApi.streamResponseOpenAI2Claude` — the converter;
* `NewApi.handleStreamFormat`, `NewApi.oaiStreamHandler` — how chunks are delivered to it;
* `NewApi.responseOpenAI2Claude` — the conversion of a message that is not streamed.

Main results:

* `NewApi.convertLater_cases` — **what a chunk after the first does to the message**: it goes on, or is
  closed.
-/

import NewApi.Common

set_option autoImplicit false

namespace NewApi

/-! ### Usage -/

/-- What the upstream reports about the tokens of a request. -/
structure OpenAIUsage where
  promptTokens : ℤ
  completionTokens : ℤ
  cachedTokens : ℤ
  cachedCreationTokens : ℤ
  claudeCacheCreation5mTokens : ℤ
  claudeCacheCreation1hTokens : ℤ
deriving DecidableEq, Repr

structure ClaudeCacheCreationUsage where
  ephemeral5mInputTokens : ℤ
  ephemeral1hInputTokens : ℤ
deriving DecidableEq, Repr

structure ClaudeUsage where
  inputTokens : ℤ
  outputTokens : ℤ
  cacheCreationInputTokens : ℤ
  cacheReadInputTokens : ℤ
  cacheCreation : Option ClaudeCacheCreationUsage
deriving DecidableEq, Repr

def normalizeCacheCreationSplit (totalTokens tokens5m tokens1h : ℤ) : ℤ × ℤ :=
  let remainder := max (totalTokens - tokens5m - tokens1h) 0
  (tokens5m + remainder, tokens1h)

def buildClaudeUsageFromOpenAIUsage (oaiUsage : OpenAIUsage) : ClaudeUsage :=
  let split := normalizeCacheCreationSplit oaiUsage.cachedCreationTokens
    oaiUsage.claudeCacheCreation5mTokens oaiUsage.claudeCacheCreation1hTokens
  { inputTokens := oaiUsage.promptTokens
    outputTokens := oaiUsage.completionTokens
    cacheCreationInputTokens := oaiUsage.cachedCreationTokens
    cacheReadInputTokens := oaiUsage.cachedTokens
    cacheCreation := if 0 < split.1 ∨ 0 < split.2 then some ⟨split.1, split.2⟩ else none }

/-! ### Stop reasons -/

/-- The lower case of a character.  Two characters outside ASCII have an ASCII letter as their lower
case; that of the others matters to no comparison. -/
def lowerChar (c : Char) : Char :=
  if c.toNat = 0x130 then 'i' else if c.toNat = 0x212A then 'k' else c.toLower

def toLower (s : String) : String := String.ofList (s.toList.map lowerChar)

def openAIFinishReasonToClaudeStopReason (finishReason : String) : String :=
  let lower := toLower finishReason
  if lower = "stop" then "end_turn"
  else if lower = "stop_sequence" then "stop_sequence"
  else if lower = "length" ∨ lower = "max_tokens" then "max_tokens"
  else if lower = "content_filter" then "refusal"
  else if lower = "tool_calls" then "tool_use"
  else finishReason

def stopReasonOpenAI2Claude (reason : String) : String :=
  openAIFinishReasonToClaudeStopReason reason

/-- A finish reason has a stop reason. -/
theorem stopReasonOpenAI2Claude_ne_empty {reason : String} (h : reason ≠ "") :
    stopReasonOpenAI2Claude reason ≠ "" := by
  unfold stopReasonOpenAI2Claude openAIFinishReasonToClaudeStopReason
  simp only
  split_ifs
  · decide
  · decide
  · decide
  · decide
  · decide
  · exact h

/-! ### Chunks -/

/-- A piece of a tool call. -/
structure ToolCallResponse where
  index : Option ℤ
  id : String
  name : String
  arguments : String
deriving DecidableEq, Repr

structure ChatCompletionsStreamResponseChoiceDelta where
  content : Option String
  reasoningContent : Option String
  reasoning : Option String
  toolCalls : List ToolCallResponse
deriving DecidableEq, Repr

structure ChatCompletionsStreamResponseChoice where
  delta : ChatCompletionsStreamResponseChoiceDelta
  finishReason : Option String
deriving DecidableEq, Repr

structure ChatCompletionsStreamResponse where
  id : String
  model : String
  choices : List ChatCompletionsStreamResponseChoice
  usage : Option OpenAIUsage
deriving DecidableEq, Repr

namespace ChatCompletionsStreamResponseChoiceDelta

def getContentString (d : ChatCompletionsStreamResponseChoiceDelta) : String := d.content.getD ""

def getReasoningContent (d : ChatCompletionsStreamResponseChoiceDelta) : String :=
  (d.reasoningContent.or d.reasoning).getD ""

end ChatCompletionsStreamResponseChoiceDelta

/-- The finish reason of a choice, empty if there is none. -/
def ChatCompletionsStreamResponseChoice.finish (c : ChatCompletionsStreamResponseChoice) : String :=
  c.finishReason.getD ""

/-! ### Events -/

/-- A content block as it is started, its text being empty. -/
inductive ContentBlock where
  | text
  | thinking
  | toolUse (id name : String)
deriving DecidableEq, Repr

inductive ContentDelta where
  | textDelta (text : String)
  | thinkingDelta (thinking : String)
  | inputJsonDelta (partialJson : String)
deriving DecidableEq, Repr

inductive ClaudeEvent where
  | messageStart (id model : String) (inputTokens : ℤ)
  | contentBlockStart (index : ℤ) (block : ContentBlock)
  | contentBlockDelta (index : ℤ) (delta : ContentDelta)
  | contentBlockStop (index : ℤ)
  | messageDelta (stopReason : String) (usage : ClaudeUsage)
  | messageStop
deriving DecidableEq, Repr

/-! ### The converter's state -/

inductive LastMessageType where
  | none
  | text
  | tools
  | thinking
deriving DecidableEq, Repr

structure ClaudeConvertInfo where
  lastMessagesType : LastMessageType := .none
  index : ℤ := 0
  usage : Option OpenAIUsage := none
  finishReason : String := ""
  done : Bool := false
  toolCallBaseIndex : ℤ := 0
  toolCallMaxIndexOffset : ℤ := 0
deriving DecidableEq, Repr

/-- The state of the converter with what it reads of the relay's. -/
structure ClaudeRelayInfo extends ClaudeConvertInfo where
  sendResponseCount : ℕ := 0
  estimatePromptTokens : ℤ := 0
deriving DecidableEq, Repr

/-- The state before the first chunk. -/
def initialInfo (estimatePromptTokens : ℤ) : ClaudeRelayInfo where
  estimatePromptTokens := estimatePromptTokens

/-! ### Blocks -/

/-- The stops of the blocks that are open. -/
def stopOpenBlocks (info : ClaudeRelayInfo) : List ClaudeEvent :=
  match info.lastMessagesType with
  | .text | .thinking => [.contentBlockStop info.index]
  | .tools =>
    (List.range (info.toolCallMaxIndexOffset + 1).toNat).map fun (offset : ℕ) =>
      .contentBlockStop (info.toolCallBaseIndex + offset)
  | .none => []

/-- Stop the open blocks and go on to the next free index. -/
def stopOpenBlocksAndAdvance (info : ClaudeRelayInfo) : List ClaudeEvent × ClaudeRelayInfo :=
  match info.lastMessagesType with
  | .none => ([], info)
  | .tools =>
    (stopOpenBlocks info,
      { info with
        index := info.toolCallBaseIndex + info.toolCallMaxIndexOffset + 1
        toolCallBaseIndex := 0
        toolCallMaxIndexOffset := 0
        lastMessagesType := .none })
  | .text | .thinking =>
    (stopOpenBlocks info, { info with index := info.index + 1, lastMessagesType := .none })

/-- The same, unless blocks of the given kind are open. -/
def switchTo (type : LastMessageType) (info : ClaudeRelayInfo) : List ClaudeEvent × ClaudeRelayInfo :=
  if info.lastMessagesType = type then ([], info) else stopOpenBlocksAndAdvance info

/-- The end of the message, with the usage of the chunk or the one remembered. -/
def closeMessage (usage : Option OpenAIUsage) (info : ClaudeRelayInfo) : List ClaudeEvent :=
  stopOpenBlocks info ++
    (match usage.or info.usage with
      | some oaiUsage =>
        [.messageDelta (stopReasonOpenAI2Claude info.finishReason)
          (buildClaudeUsageFromOpenAIUsage oaiUsage)]
      | none => []) ++ [ClaudeEvent.messageStop]

/-! ### The first chunk -/

/-- The start of the first tool call of the first chunk; the others are left out. -/
def firstToolCall (delta : ChatCompletionsStreamResponseChoiceDelta) (info : ClaudeRelayInfo) :
    List ClaudeEvent × ClaudeRelayInfo :=
  match delta.toolCalls with
  | [] => ([], info)
  | toolCall :: _ =>
    (.contentBlockStart 0 (.toolUse toolCall.id toolCall.name) ::
        (if toolCall.arguments ≠ "" then
          [.contentBlockDelta 0 (.inputJsonDelta toolCall.arguments)]
        else []),
      { info with
        lastMessagesType := .tools
        toolCallBaseIndex := 0
        toolCallMaxIndexOffset := 0 })

/-- A block that the first chunk starts, with all of its text. -/
def firstBlock (type : LastMessageType) (block : ContentBlock) (delta : ContentDelta)
    (info : ClaudeRelayInfo) : List ClaudeEvent × ClaudeRelayInfo :=
  let (stops, info) := switchTo type info
  (stops ++ [ClaudeEvent.contentBlockStart info.index block,
      ClaudeEvent.contentBlockDelta info.index delta],
    { info with lastMessagesType := type })

def firstContent (delta : ChatCompletionsStreamResponseChoiceDelta) (info : ClaudeRelayInfo) :
    List ClaudeEvent × ClaudeRelayInfo :=
  let reasoning := delta.getReasoningContent
  let content := delta.getContentString
  if reasoning ≠ "" then firstBlock .thinking .thinking (.thinkingDelta reasoning) info
  else if content ≠ "" then firstBlock .text .text (.textDelta content) info
  else ([], info)

/-- The events of the chunk that is converted while one chunk has been sent. -/
def convertFirst (openAIResponse : ChatCompletionsStreamResponse) (info : ClaudeRelayInfo) :
    List ClaudeEvent × ClaudeRelayInfo :=
  let start := ClaudeEvent.messageStart openAIResponse.id openAIResponse.model
    info.estimatePromptTokens
  match openAIResponse.choices with
  | [] => ([start], info)
  | choice :: _ =>
    let (tools, info) := firstToolCall choice.delta info
    let (contents, info) := firstContent choice.delta info
    if choice.finish ≠ "" then
      let info := { info with finishReason := choice.finish }
      (start :: (tools ++ contents ++ closeMessage openAIResponse.usage info),
        { info with done := true })
    else (start :: (tools ++ contents), info)

/-! ### The chunks after it -/

/-- The offset of a piece of a tool call, the `i`-th of its chunk. -/
def ToolCallResponse.offset (toolCall : ToolCallResponse) (i : ℕ) : ℤ := toolCall.index.getD i

/-- The events of one piece of a tool call. -/
def toolCallEvents (blockIndex : ℤ) (toolCall : ToolCallResponse) : List ClaudeEvent :=
  (if toolCall.name ≠ "" then
    [.contentBlockStart blockIndex (.toolUse toolCall.id toolCall.name)]
  else []) ++
  (if toolCall.arguments ≠ "" then
    [.contentBlockDelta blockIndex (.inputJsonDelta toolCall.arguments)]
  else [])

/-- The events of the pieces of a chunk from the `i`-th on, and the greatest offset. -/
def toolCallsEvents (base : ℤ) : ℕ → ℤ → List ToolCallResponse → List ClaudeEvent × ℤ
  | _, maxOffset, [] => ([], maxOffset)
  | i, maxOffset, toolCall :: rest =>
    let offset := toolCall.offset i
    let (events, maxOffset) := toolCallsEvents base (i + 1) (max maxOffset offset) rest
    (toolCallEvents (base + offset) toolCall ++ events, maxOffset)

/-- The tool calls of a chunk. -/
def laterToolCalls (toolCalls : List ToolCallResponse) (info : ClaudeRelayInfo) :
    List ClaudeEvent × ClaudeRelayInfo :=
  let (stops, info) :=
    if info.lastMessagesType ≠ .tools then
      let (stops, info) := stopOpenBlocksAndAdvance info
      (stops, { info with toolCallBaseIndex := info.index, toolCallMaxIndexOffset := 0 })
    else ([], info)
  let (events, maxOffset) :=
    toolCallsEvents info.toolCallBaseIndex 0 info.toolCallMaxIndexOffset toolCalls
  (stops ++ events,
    { info with
      lastMessagesType := .tools
      toolCallMaxIndexOffset := maxOffset
      index := info.toolCallBaseIndex + maxOffset })

/-- A piece of a block, which is started if it is not open. -/
def laterBlock (type : LastMessageType) (block : ContentBlock) (delta : ContentDelta)
    (info : ClaudeRelayInfo) : List ClaudeEvent × ClaudeRelayInfo :=
  let (starts, info) :=
    if info.lastMessagesType ≠ type then
      let (stops, info) := stopOpenBlocksAndAdvance info
      (stops ++ [ClaudeEvent.contentBlockStart info.index block], info)
    else ([], info)
  (starts ++ [ClaudeEvent.contentBlockDelta info.index delta],
    { info with lastMessagesType := type })

def laterContent (delta : ChatCompletionsStreamResponseChoiceDelta) (info : ClaudeRelayInfo) :
    List ClaudeEvent × ClaudeRelayInfo :=
  let reasoning := delta.getReasoningContent
  let textContent := delta.getContentString
  if delta.toolCalls ≠ [] then laterToolCalls delta.toolCalls info
  else if reasoning ≠ "" then laterBlock .thinking .thinking (.thinkingDelta reasoning) info
  else if textContent ≠ "" then laterBlock .text .text (.textDelta textContent) info
  else ([], info)

/-- The events of any other chunk. -/
def convertLater (openAIResponse : ChatCompletionsStreamResponse) (info : ClaudeRelayInfo) :
    List ClaudeEvent × ClaudeRelayInfo :=
  match openAIResponse.choices with
  | [] =>
    -- some upstreams end with a chunk that has a usage only
    match openAIResponse.usage.or info.usage with
    | none => ([], info)
    | some oaiUsage =>
      let stopReason := stopReasonOpenAI2Claude info.finishReason
      let stopReason := if stopReason = "" then "end_turn" else stopReason
      (stopOpenBlocks info ++
          [ClaudeEvent.messageDelta stopReason (buildClaudeUsageFromOpenAIUsage oaiUsage),
            ClaudeEvent.messageStop],
        { info with done := true })
  | choice :: _ =>
    let doneChunk := decide (choice.finish ≠ "")
    let info := if doneChunk then { info with finishReason := choice.finish } else info
    -- the closing waits for a chunk with a usage
    if doneChunk && openAIResponse.usage.isNone then ([], info)
    else
      let (events, info) := laterContent choice.delta info
      if doneChunk || info.done then
        (events ++ closeMessage openAIResponse.usage info, { info with done := true })
      else (events, info)

/-- A block of another kind than the open ones is started in the first chunk as in any other. -/
theorem firstBlock_of_ne {info : ClaudeRelayInfo} {type : LastMessageType} (block : ContentBlock)
    (delta : ContentDelta) (h : info.lastMessagesType ≠ type) :
    firstBlock type block delta info = laterBlock type block delta info := by
  simp [firstBlock, laterBlock, switchTo, h]

/-! ### The converter and its callers -/

def streamResponseOpenAI2Claude (openAIResponse : ChatCompletionsStreamResponse)
    (info : ClaudeRelayInfo) : List ClaudeEvent × ClaudeRelayInfo :=
  if info.done then ([], info)
  else if info.sendResponseCount = 1 then convertFirst openAIResponse info
  else convertLater openAIResponse info

/-- The state with a chunk counted and its usage remembered. -/
def ClaudeRelayInfo.receive (info : ClaudeRelayInfo) (chunk : ChatCompletionsStreamResponse) :
    ClaudeRelayInfo :=
  { info with
    sendResponseCount := info.sendResponseCount + 1
    usage := chunk.usage.or info.usage }

/-- A chunk that is sent on as it comes in. -/
def handleStreamFormat (streamResponse : ChatCompletionsStreamResponse) (info : ClaudeRelayInfo) :
    List ClaudeEvent × ClaudeRelayInfo :=
  streamResponseOpenAI2Claude streamResponse (info.receive streamResponse)

/-- The last chunk, which is sent on with the usage of the request. -/
def handleFinalResponse (usage : OpenAIUsage) (lastStream : ChatCompletionsStreamResponse)
    (info : ClaudeRelayInfo) : List ClaudeEvent × ClaudeRelayInfo :=
  let (events, info) := streamResponseOpenAI2Claude lastStream { info with usage := some usage }
  (events, { info with done := true })

/-- Chunks that are sent on one after the other. -/
def handleStream (info : ClaudeRelayInfo) :
    List ChatCompletionsStreamResponse → List ClaudeEvent × ClaudeRelayInfo
  | [] => ([], info)
  | chunk :: rest =>
    let (events, info) := handleStreamFormat chunk info
    let (events', info) := handleStream info rest
    (events ++ events', info)

/-- The events of a stream.  Each chunk is sent on when the next one has come in, the last one at
the end with `usage`. -/
def oaiStreamHandler (usage : OpenAIUsage) (info : ClaudeRelayInfo) :
    List ChatCompletionsStreamResponse → List ClaudeEvent
  | [] => []
  | [last] => (handleFinalResponse usage last info).1
  | chunk :: next :: rest =>
    let (events, info) := handleStreamFormat chunk info
    events ++ oaiStreamHandler usage info (next :: rest)

@[simp] theorem receive_done (info : ClaudeRelayInfo) (chunk : ChatCompletionsStreamResponse) :
    (info.receive chunk).done = info.done := rfl

@[simp] theorem receive_sendResponseCount (info : ClaudeRelayInfo)
    (chunk : ChatCompletionsStreamResponse) :
    (info.receive chunk).sendResponseCount = info.sendResponseCount + 1 := rfl

theorem receive_usage_isSome (info : ClaudeRelayInfo) (chunk : ChatCompletionsStreamResponse) :
    (info.receive chunk).usage.isSome = (chunk.usage.isSome || info.usage.isSome) := by
  cases husage : chunk.usage <;> simp [ClaudeRelayInfo.receive, husage]

/-- A chunk that comes in after the message has been closed. -/
theorem handleStreamFormat_of_done (chunk : ChatCompletionsStreamResponse) (info : ClaudeRelayInfo)
    (hdone : info.done = true) : handleStreamFormat chunk info = ([], info.receive chunk) := by
  simp [handleStreamFormat, streamResponseOpenAI2Claude, hdone]

theorem handleStream_of_done {info : ClaudeRelayInfo} {chunks : List ChatCompletionsStreamResponse}
    (hdone : info.done = true) : (handleStream info chunks).1 = [] := by
  induction chunks generalizing info with
  | nil => rfl
  | cons chunk rest ih =>
    simp only [handleStream, handleStreamFormat_of_done chunk info hdone, List.nil_append]
    exact ih hdone

/-- A chunk that comes in after the first one. -/
theorem handleStreamFormat_later (chunk : ChatCompletionsStreamResponse) (info : ClaudeRelayInfo)
    (hdone : info.done = false) (hcount : 0 < info.sendResponseCount) :
    handleStreamFormat chunk info = convertLater chunk (info.receive chunk) := by
  have hne : ¬ info.sendResponseCount = 0 := by omega
  simp [handleStreamFormat, streamResponseOpenAI2Claude, hdone, hne]

/-- The first chunk. -/
theorem handleStreamFormat_first (chunk : ChatCompletionsStreamResponse) (info : ClaudeRelayInfo)
    (hdone : info.done = false) (hcount : info.sendResponseCount = 0) :
    handleStreamFormat chunk info = convertFirst chunk (info.receive chunk) := by
  simp [handleStreamFormat, streamResponseOpenAI2Claude, hdone, hcount]

/-! ### What a chunk does to the message -/

/-- An event of a content block. -/
def ClaudeEvent.isBlock : ClaudeEvent → Bool
  | .contentBlockStart _ _ | .contentBlockDelta _ _ | .contentBlockStop _ => true
  | _ => false

/-- The last two events of a message that is closed. -/
def closing (stopReason : String) (usage : ClaudeUsage) : List ClaudeEvent :=
  [.messageDelta stopReason usage, .messageStop]

/-- Events of content blocks only. -/
def AllBlocks (es : List ClaudeEvent) : Prop := ∀ e ∈ es, e.isBlock = true

@[simp] theorem allBlocks_nil : AllBlocks [] := by simp [AllBlocks]

@[simp] theorem allBlocks_cons {e : ClaudeEvent} {es : List ClaudeEvent} :
    AllBlocks (e :: es) ↔ e.isBlock = true ∧ AllBlocks es := List.forall_mem_cons

@[simp] theorem allBlocks_append {es es' : List ClaudeEvent} :
    AllBlocks (es ++ es') ↔ AllBlocks es ∧ AllBlocks es' := List.forall_mem_append

@[simp] theorem isBlock_start (index : ℤ) (block : ContentBlock) :
    (ClaudeEvent.contentBlockStart index block).isBlock = true := rfl

@[simp] theorem isBlock_delta (index : ℤ) (delta : ContentDelta) :
    (ClaudeEvent.contentBlockDelta index delta).isBlock = true := rfl

/-- Two states that differ in the open blocks only. -/
structure SameMessage (info info' : ClaudeRelayInfo) : Prop where
  done : info'.done = info.done
  usage : info'.usage = info.usage
  finishReason : info'.finishReason = info.finishReason
  sendResponseCount : info'.sendResponseCount = info.sendResponseCount
  estimatePromptTokens : info'.estimatePromptTokens = info.estimatePromptTokens

theorem SameMessage.refl (info : ClaudeRelayInfo) : SameMessage info info := ⟨rfl, rfl, rfl, rfl, rfl⟩

theorem SameMessage.trans {info info' info'' : ClaudeRelayInfo} (h : SameMessage info info')
    (h' : SameMessage info' info'') : SameMessage info info'' where
  done := h'.done.trans h.done
  usage := h'.usage.trans h.usage
  finishReason := h'.finishReason.trans h.finishReason
  sendResponseCount := h'.sendResponseCount.trans h.sendResponseCount
  estimatePromptTokens := h'.estimatePromptTokens.trans h.estimatePromptTokens

/-- Events and a state that come from `info` by work on the blocks. -/
def BlocksOnly (info : ClaudeRelayInfo) (result : List ClaudeEvent × ClaudeRelayInfo) : Prop :=
  AllBlocks result.1 ∧ SameMessage info result.2

@[simp] theorem allBlocks_stopOpenBlocks (info : ClaudeRelayInfo) :
    AllBlocks (stopOpenBlocks info) := by
  intro e he
  unfold stopOpenBlocks at he
  split at he
  · rw [List.mem_singleton.1 he]
    rfl
  · rw [List.mem_singleton.1 he]
    rfl
  · obtain ⟨offset, _, rfl⟩ := List.mem_map.1 he
    rfl
  · simp at he

theorem blocksOnly_advance (info : ClaudeRelayInfo) :
    BlocksOnly info (stopOpenBlocksAndAdvance info) := by
  unfold stopOpenBlocksAndAdvance
  split
  · exact ⟨allBlocks_nil, .refl info⟩
  · exact ⟨allBlocks_stopOpenBlocks info, rfl, rfl, rfl, rfl, rfl⟩
  · exact ⟨allBlocks_stopOpenBlocks info, rfl, rfl, rfl, rfl, rfl⟩
  · exact ⟨allBlocks_stopOpenBlocks info, rfl, rfl, rfl, rfl, rfl⟩

theorem allBlocks_toolCallEvents (blockIndex : ℤ) (toolCall : ToolCallResponse) :
    AllBlocks (toolCallEvents blockIndex toolCall) := by
  unfold toolCallEvents
  rw [allBlocks_append]
  constructor
  · split <;> simp
  · split <;> simp

theorem allBlocks_toolCallsEvents (base : ℤ) (toolCalls : List ToolCallResponse) (i : ℕ)
    (maxOffset : ℤ) : AllBlocks (toolCallsEvents base i maxOffset toolCalls).1 := by
  induction toolCalls generalizing i maxOffset with
  | nil => exact allBlocks_nil
  | cons toolCall rest ih => exact allBlocks_append.2 ⟨allBlocks_toolCallEvents _ _, ih _ _⟩

theorem blocksOnly_laterBlock (type : LastMessageType) (block : ContentBlock) (delta : ContentDelta)
    (info : ClaudeRelayInfo) : BlocksOnly info (laterBlock type block delta info) := by
  obtain ⟨hblocks, hsame⟩ := blocksOnly_advance info
  simp only [laterBlock]
  split
  · exact ⟨by simp [hblocks], hsame.done, hsame.usage, hsame.finishReason, hsame.sendResponseCount,
      hsame.estimatePromptTokens⟩
  · exact ⟨by simp, rfl, rfl, rfl, rfl, rfl⟩

theorem blocksOnly_laterToolCalls (toolCalls : List ToolCallResponse) (info : ClaudeRelayInfo) :
    BlocksOnly info (laterToolCalls toolCalls info) := by
  obtain ⟨hblocks, hsame⟩ := blocksOnly_advance info
  simp only [laterToolCalls]
  split
  · refine ⟨allBlocks_append.2 ⟨hblocks, allBlocks_toolCallsEvents _ _ _ _⟩, ?_⟩
    exact ⟨hsame.done, hsame.usage, hsame.finishReason, hsame.sendResponseCount,
      hsame.estimatePromptTokens⟩
  · exact ⟨allBlocks_append.2 ⟨allBlocks_nil, allBlocks_toolCallsEvents _ _ _ _⟩,
      rfl, rfl, rfl, rfl, rfl⟩

/-- A delta of a chunk after the first concerns the blocks only. -/
theorem blocksOnly_laterContent (delta : ChatCompletionsStreamResponseChoiceDelta)
    (info : ClaudeRelayInfo) : BlocksOnly info (laterContent delta info) := by
  simp only [laterContent]
  split
  · exact blocksOnly_laterToolCalls _ _
  · split
    · exact blocksOnly_laterBlock _ _ _ _
    · split
      · exact blocksOnly_laterBlock _ _ _ _
      · exact ⟨allBlocks_nil, .refl info⟩

theorem blocksOnly_firstToolCall (delta : ChatCompletionsStreamResponseChoiceDelta)
    (info : ClaudeRelayInfo) : BlocksOnly info (firstToolCall delta info) := by
  unfold firstToolCall
  split
  · exact ⟨allBlocks_nil, .refl info⟩
  · refine ⟨?_, rfl, rfl, rfl, rfl, rfl⟩
    rw [allBlocks_cons]
    exact ⟨rfl, by split <;> simp⟩

theorem blocksOnly_firstContent (delta : ChatCompletionsStreamResponseChoiceDelta)
    (info : ClaudeRelayInfo) : BlocksOnly info (firstContent delta info) := by
  have hblock : ∀ type block d, BlocksOnly info (firstBlock type block d info) := by
    intro type block d
    simp only [firstBlock, switchTo]
    split
    · exact ⟨by simp, rfl, rfl, rfl, rfl, rfl⟩
    · obtain ⟨hblocks, hsame⟩ := blocksOnly_advance info
      exact ⟨by simp [hblocks], hsame.done, hsame.usage, hsame.finishReason,
        hsame.sendResponseCount, hsame.estimatePromptTokens⟩
  simp only [firstContent]
  split
  · exact hblock _ _ _
  · split
    · exact hblock _ _ _
    · exact ⟨allBlocks_nil, .refl info⟩

/-- The end of a message whose chunk has a usage. -/
theorem closeMessage_some (es : List ClaudeEvent) (usage : OpenAIUsage) (info : ClaudeRelayInfo) :
    es ++ closeMessage (some usage) info = es ++ stopOpenBlocks info ++
      closing (stopReasonOpenAI2Claude info.finishReason) (buildClaudeUsageFromOpenAIUsage usage) := by
  simp [closeMessage, closing]

/-- Whether the first choice of a chunk has a finish reason. -/
def ChatCompletionsStreamResponse.isFinished (r : ChatCompletionsStreamResponse) : Bool :=
  r.choices.head?.any fun choice => choice.finish ≠ ""

/-- Whether a chunk after the first closes the message, given whether a usage is known. -/
def ChatCompletionsStreamResponse.closes (r : ChatCompletionsStreamResponse) (usageKnown : Bool) :
    Bool :=
  if r.choices = [] then r.usage.isSome || usageKnown else r.isFinished && r.usage.isSome

/-- **What a chunk after the first does to the message**: it closes it with a stop reason and a
usage, or the message goes on. -/
theorem convertLater_cases (r : ChatCompletionsStreamResponse) (info : ClaudeRelayInfo)
    (hdone : info.done = false) :
    (r.closes info.usage.isSome = false ∧ AllBlocks (convertLater r info).1 ∧
      (convertLater r info).2.done = false ∧ (convertLater r info).2.usage = info.usage ∧
      (convertLater r info).2.sendResponseCount = info.sendResponseCount) ∨
    (r.closes info.usage.isSome = true ∧ (convertLater r info).2.done = true ∧
      ∃ body stopReason usage, (convertLater r info).1 = body ++ closing stopReason usage ∧
        AllBlocks body ∧ stopReason ≠ "") := by
  unfold convertLater
  cases hchoices : r.choices with
  | nil =>
    have hcloses : r.closes info.usage.isSome = (r.usage.or info.usage).isSome := by
      simp [ChatCompletionsStreamResponse.closes, hchoices]
    rw [hcloses]
    cases r.usage.or info.usage with
    | none => exact .inl ⟨rfl, allBlocks_nil, hdone, rfl, rfl⟩
    | some oaiUsage =>
      refine .inr ⟨rfl, rfl, stopOpenBlocks info, _, _, rfl, allBlocks_stopOpenBlocks info, ?_⟩
      split
      · decide
      · assumption
  | cons choice rest =>
    have hcloses : r.closes info.usage.isSome =
        (decide (choice.finish ≠ "") && r.usage.isSome) := by
      simp [ChatCompletionsStreamResponse.closes, ChatCompletionsStreamResponse.isFinished,
        hchoices]
    rw [hcloses]
    by_cases hfinish : choice.finish = ""
    · obtain ⟨hblocks, hsame⟩ := blocksOnly_laterContent choice.delta info
      have hgo : (laterContent choice.delta info).2.done = false := hsame.done.trans hdone
      simp only [hfinish, ne_eq, not_true_eq_false, decide_false, Bool.false_and,
        Bool.false_eq_true, if_false, hgo, Bool.or_false]
      exact .inl ⟨trivial, hblocks, trivial, hsame.usage, hsame.sendResponseCount⟩
    · cases husage : r.usage with
      | none =>
        simp only [hfinish, ne_eq, not_false_eq_true, decide_true, if_true, Option.isNone_none,
          Bool.and_self]
        exact .inl ⟨rfl, allBlocks_nil, hdone, trivial, trivial⟩
      | some usage =>
        obtain ⟨hblocks, hsame⟩ := blocksOnly_laterContent choice.delta
          { info with finishReason := choice.finish }
        simp only [hfinish, ne_eq, not_false_eq_true, decide_true, if_true, Option.isNone_some,
          Bool.and_false, Bool.false_eq_true, if_false, Bool.true_or, Option.isSome_some,
          Bool.and_self]
        refine .inr ⟨trivial, trivial, _ ++ stopOpenBlocks _, _, _,
          closeMessage_some _ _ _, allBlocks_append.2 ⟨hblocks, allBlocks_stopOpenBlocks _⟩, ?_⟩
        rw [hsame.finishReason]
        exact stopReasonOpenAI2Claude_ne_empty hfinish

end NewApi
