/-
**An answer of a Gemini upstream for an OpenAI client.**

The upstream answers with a list of parts and a finish reason, whole or spread over the chunks of a
stream.  The conversion of a whole answer goes through the parts: thoughts become the reasoning, calls
become tool calls and the rest is written into the content, a line each.  The conversion of a stream
does so for each chunk, but it sends everything a chunk writes as reasoning when one of its parts is a
thought, and the whole answer keeps the last thought only.  The tool calls of the first chunk are sent
in two pieces, and then the chunk loses its finish reason.

So the two agree when a chunk with a thought writes nothing else, no thought comes before the last
one, and the finish reason is "STOP" or does not get in the way of the tool calls.

Main definitions:

* `NewApi.responseGeminiChat2OpenAI`, `NewApi.geminiChatStreamHandler` — the conversions;
* `NewApi.GeminiAgrees` — a client gets the same from both;
* `NewApi.ThoughtsApart`, `NewApi.LastThought`, `NewApi.FinishKept` — when they agree.

Main results:

* `NewApi.gemini_stream_agrees` — **the conversions agree on exactly these streams**;
* `NewApi.gemini_thought_drift` — a chunk with a thought and a text.
-/

import NewApi.ClaudeResponse

set_option autoImplicit false

namespace NewApi

/-! ### Candidates -/

/-- A part of a candidate.  The arguments of a call are given by their JSON text. -/
inductive GeminiPart where
  | inlineData (mimeType data : String)
  | functionCall (functionName arguments : String)
  | thought (text : String)
  | executableCode (language code : String)
  | codeExecutionResult (output : String)
  | text (text : String)
deriving DecidableEq, Repr

/-- A chunk of a stream: its candidate. -/
structure GeminiChunk where
  parts : List GeminiPart
  finishReason : Option String
deriving DecidableEq, Repr

/-- A content that is written line by line. -/
structure LineWriter where
  content : String := ""
  appended : ℕ := 0

/-- Write a line, after a separator if it is not the first. -/
def LineWriter.write (w : LineWriter) (s : String) : LineWriter where
  content := (if w.appended > 0 then w.content ++ "\n" else w.content) ++ s
  appended := w.appended + 1

def geminiFinishReason (finishReason : String) : String :=
  match finishReason with
  | "STOP" => "stop"
  | "MAX_TOKENS" => "length"
  | "SAFETY" => "content_filter"
  | "RECITATION" => "content_filter"
  | "BLOCKLIST" => "content_filter"
  | "PROHIBITED_CONTENT" => "content_filter"
  | "SPII" => "content_filter"
  | "OTHER" => "content_filter"
  | _ => "content_filter"

variable (uuid : ℕ → String)

/-- The identifier of the `n`-th tool call. -/
def callId (n : ℕ) : String := "call_" ++ uuid n

/-! ### The whole answer -/

/-- What has been read of a whole answer. -/
structure GeminiMessage where
  content : LineWriter := {}
  reasoningContent : Option String := none
  toolCalls : List ToolCallRequest := []

def GeminiMessage.read (m : GeminiMessage) : GeminiPart → GeminiMessage
  | .inlineData mimeType data =>
    if hasPrefix mimeType "image" then
      { m with content :=
          m.content.write ("![image](data:" ++ mimeType ++ ";base64," ++ data ++ ")") }
    else
      { m with content :=
          m.content.write ("[media](data:" ++ mimeType ++ ";base64," ++ data ++ ")") }
  | .functionCall functionName arguments =>
    { m with toolCalls :=
        m.toolCalls ++ [⟨callId uuid m.toolCalls.length, functionName, arguments⟩] }
  | .thought text => { m with reasoningContent := some text }
  | .executableCode language code =>
    { m with content := m.content.write ("```" ++ language ++ "\n" ++ code ++ "\n```") }
  | .codeExecutionResult output =>
    { m with content := m.content.write ("```output\n" ++ output ++ "\n```") }
  | .text text => if text ≠ "\n" then { m with content := m.content.write text } else m

/-- The answer for a candidate. -/
def responseGeminiChat2OpenAI (parts : List GeminiPart) (finishReason : Option String) :
    OpenAITextResponse :=
  let m := parts.foldl (GeminiMessage.read uuid) {}
  let finish := match finishReason with
    | none => "stop"
    | some finishReason => geminiFinishReason finishReason
  { content := m.content.content
    reasoningContent := m.reasoningContent
    toolCalls := m.toolCalls
    finishReason := if m.toolCalls ≠ [] then "tool_calls" else finish }

/-! ### The stream -/

/-- What has been read of a chunk. -/
structure GeminiDelta where
  content : LineWriter := {}
  isTools : Bool := false
  isThought : Bool := false
  toolCalls : List ToolCallResponse := []

/-- Read a part of a chunk, when `n` identifiers have been given before it. -/
def GeminiDelta.read (n : ℕ) (d : GeminiDelta) : GeminiPart → GeminiDelta
  | .inlineData mimeType data =>
    if hasPrefix mimeType "image" then
      { d with content :=
          d.content.write ("![image](data:" ++ mimeType ++ ";base64," ++ data ++ ")") }
    else d
  | .functionCall functionName arguments =>
    { d with
      isTools := true
      toolCalls := d.toolCalls ++ [⟨some d.toolCalls.length,
        callId uuid (n + d.toolCalls.length), functionName, arguments⟩] }
  | .thought text => { d with isThought := true, content := d.content.write text }
  | .executableCode language code =>
    { d with content := d.content.write ("```" ++ language ++ "\n" ++ code ++ "\n```\n") }
  | .codeExecutionResult output =>
    { d with content := d.content.write ("```output\n" ++ output ++ "\n```\n") }
  | .text text => if text ≠ "\n" then { d with content := d.content.write text } else d

/-- The choice for a chunk, and whether the answer stops with it. -/
def streamResponseGeminiChat2OpenAI (n : ℕ) (chunk : GeminiChunk) :
    ChatCompletionsStreamResponseChoice × Bool :=
  let isStop : Bool := chunk.finishReason = some "STOP"
  let finishReason := if isStop then none else chunk.finishReason
  let d := chunk.parts.foldl (GeminiDelta.read uuid n) {}
  let delta : ChatCompletionsStreamResponseChoiceDelta :=
    if d.isThought then ⟨none, some d.content.content, none, d.toolCalls⟩
    else ⟨some d.content.content, none, none, d.toolCalls⟩
  (⟨delta, if d.isTools then some "tool_calls" else finishReason.map geminiFinishReason⟩, isStop)

/-- The numbers of the tool calls that have been sent, and the next one. -/
structure ToolCallIndexes where
  toolCallIndex : String → Option ℕ := fun _ => none
  nextToolCallIndex : ℕ := 0

/-- Number the tool calls of a chunk. -/
def setIndexes (m : ToolCallIndexes) :
    List ToolCallResponse → ToolCallIndexes × List ToolCallResponse
  | [] => (m, [])
  | tool :: rest =>
    if tool.id = "" then
      let result := setIndexes m rest
      (result.1, tool :: result.2)
    else
      match m.toolCallIndex tool.id with
      | some idx =>
        let result := setIndexes m rest
        (result.1, { tool with index := some idx } :: result.2)
      | none =>
        let idx := m.nextToolCallIndex
        let result := setIndexes
          { toolCallIndex := Function.update m.toolCallIndex tool.id (some idx)
            nextToolCallIndex := idx + 1 } rest
        (result.1, { tool with index := some idx } :: result.2)

/-- The state of the handler: the identifiers given, the numbers of the calls, the finish reason for
the end and the chunks sent. -/
structure GeminiStreamState where
  uuids : ℕ := 0
  indexes : ToolCallIndexes := {}
  finishReason : String := "stop"
  sent : List ChatCompletionsStreamResponse := []

variable (id model : String)

/-- The start of the answer, with the given tool calls. -/
def generateStartEmptyResponse (toolCalls : List ToolCallResponse) :
    ChatCompletionsStreamResponse :=
  oneChoice id model ⟨some "", none, none, toolCalls⟩ none

def generateStopResponse (finishReason : String) : ChatCompletionsStreamResponse :=
  oneChoice id model ⟨none, none, none, []⟩ (some finishReason)

def generateFinalUsageResponse (usage : OpenAIUsage) : ChatCompletionsStreamResponse where
  id := id
  model := model
  choices := []
  usage := some usage

/-- The tool calls of the first chunk are started without their arguments. -/
def startToolCalls (toolCalls : List ToolCallResponse) : List ToolCallResponse :=
  toolCalls.map fun tool => { tool with arguments := "" }

/-- The tool calls of the first chunk after that. -/
def clearToolCalls (toolCalls : List ToolCallResponse) : List ToolCallResponse :=
  toolCalls.map fun tool => { tool with id := "", name := "" }

/-- The handler receives a chunk. -/
def GeminiStreamState.receive (s : GeminiStreamState) (chunk : GeminiChunk) : GeminiStreamState :=
  let (choice, isStop) := streamResponseGeminiChat2OpenAI uuid s.uuids chunk
  let (indexes, toolCalls) := setIndexes s.indexes choice.delta.toolCalls
  let delta := { choice.delta with toolCalls := toolCalls }
  let isToolCall : Bool := toolCalls ≠ []
  let finishReason := if isToolCall then "tool_calls" else s.finishReason
  let responses :=
    if s.sent = [] then
      if isToolCall then
        [generateStartEmptyResponse id model (startToolCalls toolCalls),
          oneChoice id model { delta with toolCalls := clearToolCalls toolCalls }
            (if choice.finish ≠ "" then none else choice.finishReason)]
      else
        [generateStartEmptyResponse id model [], oneChoice id model delta choice.finishReason]
    else [oneChoice id model delta choice.finishReason]
  { uuids := s.uuids + toolCalls.length
    indexes
    finishReason
    sent := s.sent ++ responses ++
      if isStop then [generateStopResponse id model finishReason] else [] }

/-- The chunks that a client gets for a stream. -/
def geminiChatStreamHandler (usage : OpenAIUsage) (chunks : List GeminiChunk) :
    List ChatCompletionsStreamResponse :=
  (chunks.foldl (GeminiStreamState.receive uuid id model) {}).sent ++
    [generateFinalUsageResponse id model usage]

/-! ### When a client gets the same -/

def newlines (n : ℕ) : String := String.ofList (List.replicate n '\n')

/-- A text that consists of pieces with newlines before, between and after them. -/
inductive Spaced : List String → String → Prop
  | nil (n : ℕ) : Spaced [] (newlines n)
  | cons (n : ℕ) (piece : String) {pieces : List String} {s : String} (h : Spaced pieces s) :
      Spaced (piece :: pieces) (newlines n ++ piece ++ s)

namespace GeminiPart

/-- What a part of a whole answer adds to the content. -/
def line : GeminiPart → Option String
  | .inlineData mimeType data =>
    if hasPrefix mimeType "image" then
      some ("![image](data:" ++ mimeType ++ ";base64," ++ data ++ ")")
    else some ("[media](data:" ++ mimeType ++ ";base64," ++ data ++ ")")
  | .executableCode language code => some ("```" ++ language ++ "\n" ++ code ++ "\n```")
  | .codeExecutionResult output => some ("```output\n" ++ output ++ "\n```")
  | .text words => if words ≠ "\n" then some words else none
  | .functionCall .. | .thought _ => none

/-- What a part of a chunk writes. -/
def streamLine : GeminiPart → Option String
  | .inlineData mimeType data =>
    if hasPrefix mimeType "image" then
      some ("![image](data:" ++ mimeType ++ ";base64," ++ data ++ ")")
    else none
  | .executableCode language code => some ("```" ++ language ++ "\n" ++ code ++ "\n```\n")
  | .codeExecutionResult output => some ("```output\n" ++ output ++ "\n```\n")
  | .text words => if words ≠ "\n" then some words else none
  | .thought words => some words
  | .functionCall .. => none

def isThought : GeminiPart → Bool
  | .thought _ => true
  | _ => false

/-- Inline data of a part is an image. -/
def Listed : GeminiPart → Prop
  | .inlineData mimeType _ => hasPrefix mimeType "image" = true
  | _ => True

instance instDecidableListed : ∀ part : GeminiPart, Decidable part.Listed
  | .inlineData _ _ => inferInstanceAs (Decidable (_ = _))
  | .functionCall .. | .thought _ | .executableCode .. | .codeExecutionResult _ | .text _ =>
    .isTrue trivial

end GeminiPart

/-- The names and arguments of the calls among some parts. -/
def geminiCalls (parts : List GeminiPart) : List (String × String) :=
  parts.filterMap fun
    | .functionCall functionName arguments => some (functionName, arguments)
    | _ => none

/-- The thoughts among some parts. -/
def geminiThoughts (parts : List GeminiPart) : List String :=
  parts.filterMap fun
    | .thought text => some text
    | _ => none

/-- The stream that spreads a candidate over chunks, the last of which has the finish reason. -/
def geminiChunks (cuts : List (List GeminiPart)) (last : List GeminiPart)
    (finishReason : Option String) : List GeminiChunk :=
  (cuts.map fun parts => ⟨parts, none⟩) ++ [⟨last, finishReason⟩]

/-- A tool call without its identifier. -/
def ToolCallRequest.unnamed (toolCall : ToolCallRequest) : String × String :=
  (toolCall.name, toolCall.arguments)

/-- A client that puts the chunks together has the answer: its content up to separators, its
reasoning, its tool calls under different indexes and its finish reason. -/
structure GeminiAgrees (parts : List GeminiPart) (chunks : List ChatCompletionsStreamResponse)
    (answer : OpenAITextResponse) : Prop where
  content : Spaced (parts.filterMap GeminiPart.line) (contents chunks) ∧
    Spaced (parts.filterMap GeminiPart.line) answer.content
  reasoning : reasonings chunks = answer.reasoningContent.getD ""
  toolCalls : (Keyed.values (NewApi.toolCalls chunks)).map ToolCallRequest.unnamed =
    answer.toolCalls.map ToolCallRequest.unnamed
  indexes : (Keyed.keys (NewApi.toolCalls chunks)).Nodup
  finishReason : lastFinish "" chunks = answer.finishReason

/-- A chunk with a thought writes nothing else. -/
def ThoughtsApart (cuts : List (List GeminiPart)) : Prop :=
  ∀ parts ∈ cuts, parts.any GeminiPart.isThought →
    (parts.filterMap GeminiPart.streamLine).length = 1

instance instDecidableThoughtsApart (cuts : List (List GeminiPart)) :
    Decidable (ThoughtsApart cuts) :=
  inferInstanceAs (Decidable (∀ _ ∈ _, _ → _))

/-- No thought comes before the last one. -/
def LastThought (parts : List GeminiPart) : Prop :=
  ∀ text ∈ (geminiThoughts parts).dropLast, text = ""

instance instDecidableLastThought (parts : List GeminiPart) : Decidable (LastThought parts) :=
  inferInstanceAs (Decidable (∀ _ ∈ _, _))

/-- The finish reason is "STOP", or there are no calls that it could hide; or the calls come in the
last chunk, but not in the first, or there is no finish reason and they come between these. -/
def FinishKept (cuts : List (List GeminiPart)) (last : List GeminiPart)
    (finishReason : Option String) : Prop :=
  finishReason = some "STOP" ∨
  (finishReason ≠ none ∧ geminiCalls (cuts ++ [last]).flatten = []) ∨
  (cuts ≠ [] ∧ geminiCalls last ≠ []) ∨
  (finishReason = none ∧ geminiCalls cuts.tail.flatten ≠ [])

/-! ### Lines -/

theorem newlines_append (m n : ℕ) : newlines m ++ newlines n = newlines (m + n) := by
  rw [newlines, newlines, newlines, ← String.ofList_append, List.replicate_append_replicate]

theorem Spaced.append {pieces pieces' : List String} {s t : String} (h : Spaced pieces s)
    (h' : Spaced pieces' t) : Spaced (pieces ++ pieces') (s ++ t) := by
  induction h with
  | nil n =>
    cases h' with
    | nil m =>
      rw [newlines_append]
      exact .nil (n + m)
    | cons m piece h' =>
      rw [← String.append_assoc, ← String.append_assoc, newlines_append]
      exact .cons (n + m) piece h'
  | cons n piece _ ih =>
    rw [String.append_assoc]
    exact .cons n piece ih

theorem Spaced.line_append {line : String} {pieces : List String} {s t : String}
    (h : Spaced [line] s) (h' : Spaced pieces t) : Spaced (line :: pieces) (s ++ t) :=
  h.append h'

theorem Spaced.piece (s : String) : Spaced [s] s := by
  have h := Spaced.cons 0 s (.nil 0)
  have hzero : newlines 0 = "" := rfl
  rwa [hzero, String.empty_append, String.append_empty] at h

/-- Lines with a separator between any two. -/
def lines : List String → String
  | [] => ""
  | line :: rest => line ++ String.join (rest.map fun line => "\n" ++ line)

theorem foldl_write_content (w : LineWriter) (hw : 0 < w.appended) (ls : List String) :
    (ls.foldl LineWriter.write w).content =
      w.content ++ String.join (ls.map fun line => "\n" ++ line) := by
  induction ls generalizing w with
  | nil => simp
  | cons line rest ih =>
    rw [List.foldl_cons, ih _ (Nat.succ_pos _), LineWriter.write]
    simp only [gt_iff_lt, hw, if_true, List.map_cons, String.join_cons, String.append_assoc]

/-- What is written line by line. -/
theorem lines_written (ls : List String) :
    (ls.foldl LineWriter.write {}).content = lines ls := by
  cases ls with
  | nil => rfl
  | cons line rest =>
    rw [List.foldl_cons, foldl_write_content _ (by simp [LineWriter.write]), lines]
    simp [LineWriter.write]

theorem lines_length (line : String) (rest : List String) :
    (lines (line :: rest)).length =
      line.length + (rest.map String.length).sum + rest.length := by
  have hrest : (String.join (rest.map fun line => "\n" ++ line)).length =
      (rest.map String.length).sum + rest.length := by
    induction rest with
    | nil => rfl
    | cons line' rest ih =>
      rw [List.map_cons, String.join_cons, String.length_append, ih, String.length_append]
      simp only [List.map_cons, List.sum_cons, List.length_cons]
      have hone : "\n".length = 1 := rfl
      omega
  rw [lines, String.length_append, hrest]
  omega

/-! ### The parts of the whole answer -/

section Parts

variable {uuid}

/-- The calls of a list, numbered from `n` on. -/
def numbered (uuid : ℕ → String) : ℕ → List (String × String) → List (ℤ × ToolCallRequest)
  | _, [] => []
  | n, call :: rest => ((n : ℤ), ⟨callId uuid n, call.1, call.2⟩) :: numbered uuid (n + 1) rest

/-- The pieces of a chunk for some calls: with numbers from `i` on and identifiers from `n` on. -/
def pieces (uuid : ℕ → String) : ℕ → ℕ → List (String × String) → List ToolCallResponse
  | _, _, [] => []
  | i, n, call :: rest =>
    ⟨some (i : ℤ), callId uuid n, call.1, call.2⟩ :: pieces uuid (i + 1) (n + 1) rest

theorem foldl_read (m : GeminiMessage) (parts : List GeminiPart) :
    parts.foldl (GeminiMessage.read uuid) m =
      { content := (parts.filterMap GeminiPart.line).foldl LineWriter.write m.content
        reasoningContent := (geminiThoughts parts).getLast?.or m.reasoningContent
        toolCalls := m.toolCalls ++
          Keyed.values (numbered uuid m.toolCalls.length (geminiCalls parts)) } := by
  induction parts generalizing m with
  | nil => simp [geminiThoughts, geminiCalls, numbered, Keyed.values]
  | cons part rest ih =>
    rw [List.foldl_cons, ih]
    cases part with
    | inlineData mimeType data =>
      simp only [GeminiMessage.read, List.filterMap_cons, GeminiPart.line, geminiThoughts,
        geminiCalls]
      split <;> rfl
    | functionCall functionName arguments =>
      simp [GeminiMessage.read, List.filterMap_cons, GeminiPart.line, geminiThoughts,
        geminiCalls, numbered, Keyed.values]
    | thought text =>
      simp only [GeminiMessage.read, List.filterMap_cons, GeminiPart.line, geminiThoughts,
        geminiCalls]
      congr 1
      cases hlast : (rest.filterMap fun
          | GeminiPart.thought text => some text
          | _ => none) with
      | nil => rfl
      | cons a as => simp [List.getLast?_cons]
    | executableCode language code => rfl
    | codeExecutionResult output => rfl
    | text text =>
      simp only [GeminiMessage.read, List.filterMap_cons, GeminiPart.line, geminiThoughts,
        geminiCalls]
      split <;> rfl

theorem foldl_readDelta (n : ℕ) (d : GeminiDelta) (parts : List GeminiPart) :
    parts.foldl (GeminiDelta.read uuid n) d =
      { content := (parts.filterMap GeminiPart.streamLine).foldl LineWriter.write d.content
        isTools := d.isTools || !(geminiCalls parts).isEmpty
        isThought := d.isThought || parts.any GeminiPart.isThought
        toolCalls := d.toolCalls ++
          pieces uuid d.toolCalls.length (n + d.toolCalls.length) (geminiCalls parts) } := by
  induction parts generalizing d with
  | nil => simp [geminiCalls, pieces]
  | cons part rest ih =>
    rw [List.foldl_cons, ih]
    cases part with
    | inlineData mimeType data =>
      simp only [GeminiDelta.read, List.filterMap_cons, GeminiPart.streamLine, geminiCalls,
        List.any_cons, GeminiPart.isThought, Bool.false_or]
      split <;> rfl
    | functionCall functionName arguments =>
      simp [GeminiDelta.read, List.filterMap_cons, GeminiPart.streamLine, GeminiPart.isThought,
        geminiCalls, pieces, Nat.add_assoc]
    | thought text =>
      simp [GeminiDelta.read, GeminiPart.streamLine, GeminiPart.isThought, geminiCalls]
    | executableCode language code => rfl
    | codeExecutionResult output => rfl
    | text text =>
      simp only [GeminiDelta.read, List.filterMap_cons, GeminiPart.streamLine, geminiCalls,
        List.any_cons, GeminiPart.isThought, Bool.false_or]
      split <;> rfl

@[simp] theorem geminiCalls_nil : geminiCalls [] = [] := rfl

theorem response_toolCalls_gemini (parts : List GeminiPart) (finishReason : Option String) :
    (responseGeminiChat2OpenAI uuid parts finishReason).toolCalls =
      Keyed.values (numbered uuid 0 (geminiCalls parts)) := by
  simp only [responseGeminiChat2OpenAI, foldl_read, List.nil_append, List.length_nil]

theorem numbered_append (n : ℕ) (calls calls' : List (String × String)) :
    numbered uuid n (calls ++ calls') =
      numbered uuid n calls ++ numbered uuid (n + calls.length) calls' := by
  induction calls generalizing n with
  | nil => rfl
  | cons call rest ih =>
    rw [List.cons_append, numbered, ih, numbered, List.cons_append, List.length_cons,
      Nat.add_right_comm, Nat.add_assoc]

theorem numbered_unnamed (n : ℕ) (calls : List (String × String)) :
    (Keyed.values (numbered uuid n calls)).map ToolCallRequest.unnamed = calls := by
  induction calls generalizing n with
  | nil => rfl
  | cons call rest ih => exact congrArg _ (ih (n + 1))

/-- Numbers from `n` on are different from each other and from the numbers before. -/
theorem keys_numbered (n : ℕ) (calls : List (String × String)) :
    (Keyed.keys (numbered uuid n calls)).Nodup ∧
      ∀ k ∈ Keyed.keys (numbered uuid n calls), (n : ℤ) ≤ k ∧ k < n + calls.length := by
  induction calls generalizing n with
  | nil => exact ⟨List.nodup_nil, fun _ h => by cases h⟩
  | cons call rest ih =>
    obtain ⟨hnodup, hbound⟩ := ih (n + 1)
    refine ⟨List.nodup_cons.2 ⟨fun hmem => ?_, hnodup⟩, fun k hk => ?_⟩
    · have hle := (hbound _ hmem).1
      push_cast at hle
      omega
    · rcases List.mem_cons.1 hk with rfl | hrest
      · simp only [List.length_cons]
        push_cast
        omega
      · have hb := hbound k hrest
        simp only [List.length_cons]
        push_cast at hb ⊢
        omega

end Parts

/-! ### The numbers of the tool calls -/

section Numbers

variable {uuid}

/-- No identifier from the `n`-th on has been numbered. -/
def Unused (uuid : ℕ → String) (n : ℕ) (m : ToolCallIndexes) : Prop :=
  ∀ j, n ≤ j → m.toolCallIndex (callId uuid j) = none

theorem callId_ne_empty (n : ℕ) : callId uuid n ≠ "" := by
  intro h
  rw [callId, String.append_eq_empty_iff] at h
  exact absurd h.1 (by decide)

theorem callId_inj (hinj : Function.Injective uuid) {i j : ℕ} (h : callId uuid i = callId uuid j) :
    i = j :=
  hinj ((String.append_right_inj "call_").1 h)

/-- New tool calls are numbered in their order. -/
theorem setIndexes_pieces (hinj : Function.Injective uuid) (i n : ℕ) (m : ToolCallIndexes)
    (hm : Unused uuid n m) (calls : List (String × String)) :
    (setIndexes m (pieces uuid i n calls)).2 = pieces uuid m.nextToolCallIndex n calls ∧
      (setIndexes m (pieces uuid i n calls)).1.nextToolCallIndex =
        m.nextToolCallIndex + calls.length ∧
      Unused uuid (n + calls.length) (setIndexes m (pieces uuid i n calls)).1 := by
  induction calls generalizing i n m with
  | nil => exact ⟨rfl, rfl, hm⟩
  | cons call rest ih =>
    have hnext : Unused uuid (n + 1)
        { toolCallIndex := Function.update m.toolCallIndex (callId uuid n)
            (some m.nextToolCallIndex)
          nextToolCallIndex := m.nextToolCallIndex + 1 } := by
      intro j hj
      have hne : callId uuid j ≠ callId uuid n := fun h => by
        have heq := callId_inj hinj h
        omega
      simp only [Function.update_of_ne hne]
      exact hm j (by omega)
    obtain ⟨htools, hindex, hunused⟩ := ih (i + 1) (n + 1) _ hnext
    simp only [pieces, setIndexes, if_neg (callId_ne_empty n), hm n le_rfl]
    refine ⟨congrArg _ htools, ?_, ?_⟩
    · rw [hindex, List.length_cons]
      dsimp only
      omega
    · rw [List.length_cons, ← Nat.add_assoc, Nat.add_right_comm]
      exact hunused

theorem keys_append_lt {n : ℕ} {entries : List (ℤ × ToolCallRequest)}
    (hentries : ∀ k ∈ Keyed.keys entries, k < n) (call : ToolCallRequest) :
    ∀ k ∈ Keyed.keys (entries ++ [((n : ℤ), call)]), k < (n + 1 : ℕ) := by
  intro k hk
  rw [Keyed.keys, List.map_append, List.mem_append] at hk
  push_cast
  rcases hk with hk | hk
  · have hlt := hentries k hk
    omega
  · rw [List.mem_singleton.1 hk]
    omega

theorem addPieces_new (i n : ℕ) (entries : List (ℤ × ToolCallRequest))
    (hentries : ∀ k ∈ Keyed.keys entries, k < n) (calls : List (String × String)) :
    addPieces i entries (pieces uuid n n calls) = entries ++ numbered uuid n calls := by
  induction calls generalizing i n entries with
  | nil => exact (List.append_nil entries).symm
  | cons call rest ih =>
    have hnew : (n : ℤ) ∉ Keyed.keys entries := fun hmem => lt_irrefl _ (hentries n hmem)
    have hnext := keys_append_lt hentries ⟨callId uuid n, call.1, call.2⟩
    have hstep : addPiece entries n ⟨some (n : ℤ), callId uuid n, call.1, call.2⟩ =
        entries ++ [((n : ℤ), ⟨callId uuid n, call.1, call.2⟩)] := by
      rw [addPiece, if_neg hnew]
    rw [pieces, addPieces]
    simp only [ToolCallResponse.offset, Option.getD_some]
    rw [hstep, ih (i + 1) (n + 1) _ hnext, numbered, List.append_assoc, List.singleton_append]

theorem startToolCalls_pieces (i n : ℕ) (calls : List (String × String)) :
    startToolCalls (pieces uuid i n calls) =
      pieces uuid i n (calls.map fun call => (call.1, "")) := by
  induction calls generalizing i n with
  | nil => rfl
  | cons call rest ih => exact congrArg _ (ih (i + 1) (n + 1))

/-- Tool calls that have been started get their arguments. -/
theorem addPieces_clear (i n : ℕ) (entries : List (ℤ × ToolCallRequest))
    (hentries : ∀ k ∈ Keyed.keys entries, k < n) (calls : List (String × String)) :
    addPieces i (entries ++ numbered uuid n (calls.map fun call => (call.1, "")))
        (clearToolCalls (pieces uuid n n calls)) = entries ++ numbered uuid n calls := by
  induction calls generalizing i n entries with
  | nil => rfl
  | cons call rest ih =>
    have hnew : (n : ℤ) ∉ Keyed.keys entries := fun hmem => lt_irrefl _ (hentries n hmem)
    have hlater : (n : ℤ) ∉ Keyed.keys
        (numbered uuid (n + 1) (rest.map fun call => (call.1, ""))) := fun hmem => by
      have hle := ((keys_numbered _ _).2 _ hmem).1
      push_cast at hle
      omega
    have hnext := keys_append_lt hentries ⟨callId uuid n, call.1, call.2⟩
    have hstep : addPiece (entries ++ ((n : ℤ), ⟨callId uuid n, call.1, ""⟩) ::
          numbered uuid (n + 1) (rest.map fun call => (call.1, ""))) n
          ⟨some (n : ℤ), "", "", call.2⟩ =
        entries ++ [((n : ℤ), ⟨callId uuid n, call.1, call.2⟩)] ++
          numbered uuid (n + 1) (rest.map fun call => (call.1, "")) := by
      rw [addPiece, if_pos (by simp [Keyed.keys]), Keyed.update_middle _ _ hnew hlater,
        List.append_assoc, List.singleton_append, ToolCallRequest.append, String.empty_append]
    have hcleared : clearToolCalls (pieces uuid n n (call :: rest)) =
        ⟨some (n : ℤ), "", "", call.2⟩ :: clearToolCalls (pieces uuid (n + 1) (n + 1) rest) := rfl
    rw [hcleared, addPieces]
    simp only [ToolCallResponse.offset, Option.getD_some, List.map_cons, numbered]
    rw [hstep, ih (i + 1) (n + 1) _ hnext, List.append_assoc, List.singleton_append]

end Numbers

/-! ### A chunk -/

section Chunk

variable {uuid id model}

/-- What a chunk writes. -/
def chunkLines (parts : List GeminiPart) : String := lines (parts.filterMap GeminiPart.streamLine)

/-- What a chunk sends as content. -/
def chunkContent (parts : List GeminiPart) : String :=
  if parts.any GeminiPart.isThought then "" else chunkLines parts

/-- What a chunk sends as reasoning. -/
def chunkReasoning (parts : List GeminiPart) : String :=
  if parts.any GeminiPart.isThought then chunkLines parts else ""

@[simp] theorem oneChoice_delta (delta : ChatCompletionsStreamResponseChoiceDelta)
    (finishReason : Option String) : (oneChoice id model delta finishReason).delta = delta := rfl

@[simp] theorem oneChoice_finish (delta : ChatCompletionsStreamResponseChoiceDelta)
    (finishReason : Option String) :
    (oneChoice id model delta finishReason).finish = finishReason.getD "" := rfl

variable (n : ℕ) (s : GeminiStreamState) (chunk : GeminiChunk)

theorem streamResponse_delta : (streamResponseGeminiChat2OpenAI uuid n chunk).1.delta =
      if chunk.parts.any GeminiPart.isThought then
        ⟨none, some (chunkLines chunk.parts), none, pieces uuid 0 n (geminiCalls chunk.parts)⟩
      else
        ⟨some (chunkLines chunk.parts), none, none, pieces uuid 0 n (geminiCalls chunk.parts)⟩ := by
  simp only [streamResponseGeminiChat2OpenAI, foldl_readDelta, lines_written, chunkLines,
    Bool.false_or, List.nil_append, List.length_nil, Nat.add_zero]

theorem streamResponse_toolCalls :
    (streamResponseGeminiChat2OpenAI uuid n chunk).1.delta.toolCalls =
      pieces uuid 0 n (geminiCalls chunk.parts) := by
  rw [streamResponse_delta]
  split <;> rfl

theorem streamResponse_content :
    (streamResponseGeminiChat2OpenAI uuid n chunk).1.delta.getContentString =
      chunkContent chunk.parts := by
  rw [streamResponse_delta, chunkContent]
  split <;> rfl

theorem streamResponse_reasoning :
    (streamResponseGeminiChat2OpenAI uuid n chunk).1.delta.getReasoningContent =
      chunkReasoning chunk.parts := by
  rw [streamResponse_delta, chunkReasoning]
  split <;> rfl

/-- The finish reason of a chunk. -/
theorem streamResponse_finish : (streamResponseGeminiChat2OpenAI uuid n chunk).1.finishReason =
      if geminiCalls chunk.parts = [] then
        if chunk.finishReason = some "STOP" then none
        else chunk.finishReason.map geminiFinishReason
      else some "tool_calls" := by
  simp only [streamResponseGeminiChat2OpenAI, foldl_readDelta, Bool.false_or]
  cases geminiCalls chunk.parts with
  | nil =>
    by_cases hstop : chunk.finishReason = some "STOP"
    · simp [hstop]
    · simp [hstop]
  | cons call rest => simp

/-- The tool calls of a chunk with their numbers. -/
def GeminiStreamState.chunkCalls (uuid : ℕ → String) (s : GeminiStreamState)
    (chunk : GeminiChunk) : List ToolCallResponse :=
  (setIndexes s.indexes (pieces uuid 0 s.uuids (geminiCalls chunk.parts))).2

theorem setIndexes_length (m : ToolCallIndexes) (tools : List ToolCallResponse) :
    (setIndexes m tools).2.length = tools.length := by
  induction tools generalizing m with
  | nil => rfl
  | cons tool rest ih =>
    rw [setIndexes]
    split
    · exact congrArg Nat.succ (ih _)
    · split <;> exact congrArg Nat.succ (ih _)

theorem pieces_length (i n : ℕ) (calls : List (String × String)) :
    (pieces uuid i n calls).length = calls.length := by
  induction calls generalizing i n with
  | nil => rfl
  | cons call rest ih => exact congrArg Nat.succ (ih _ _)

theorem chunkCalls_length :
    (s.chunkCalls uuid chunk).length = (geminiCalls chunk.parts).length := by
  rw [GeminiStreamState.chunkCalls, setIndexes_length, pieces_length]

theorem chunkCalls_eq_nil : s.chunkCalls uuid chunk = [] ↔ geminiCalls chunk.parts = [] := by
  rw [← List.length_eq_zero_iff, chunkCalls_length, List.length_eq_zero_iff]

/-- The chunks that are sent for a chunk. -/
def GeminiStreamState.responses (uuid : ℕ → String) (id model : String) (s : GeminiStreamState)
    (chunk : GeminiChunk) : List ChatCompletionsStreamResponse :=
  let choice := (streamResponseGeminiChat2OpenAI uuid s.uuids chunk).1
  let toolCalls := s.chunkCalls uuid chunk
  if s.sent = [] then
    if geminiCalls chunk.parts = [] then
      [generateStartEmptyResponse id model [],
        oneChoice id model { choice.delta with toolCalls } choice.finishReason]
    else
      [generateStartEmptyResponse id model (startToolCalls toolCalls),
        oneChoice id model { choice.delta with toolCalls := clearToolCalls toolCalls } none]
  else [oneChoice id model { choice.delta with toolCalls } choice.finishReason]

/-- **What a chunk changes.** -/
theorem receive_eq : s.receive uuid id model chunk =
      let finishReason := if geminiCalls chunk.parts = [] then s.finishReason else "tool_calls"
      { uuids := s.uuids + (geminiCalls chunk.parts).length
        indexes := (setIndexes s.indexes (pieces uuid 0 s.uuids (geminiCalls chunk.parts))).1
        finishReason
        sent := s.sent ++ s.responses uuid id model chunk ++
          if chunk.finishReason = some "STOP" then [generateStopResponse id model finishReason]
          else [] } := by
  have hlength := @chunkCalls_length uuid s chunk
  have hnil := @chunkCalls_eq_nil uuid s chunk
  rw [GeminiStreamState.chunkCalls] at hlength hnil
  have hstop : (streamResponseGeminiChat2OpenAI uuid s.uuids chunk).2 =
      decide (chunk.finishReason = some "STOP") := rfl
  simp only [GeminiStreamState.receive, GeminiStreamState.responses, GeminiStreamState.chunkCalls,
    streamResponse_toolCalls, hstop, hlength, decide_eq_true_eq, ne_eq, decide_not,
    Bool.not_eq_true', decide_eq_false_iff_not, hnil]
  by_cases hcalls : geminiCalls chunk.parts = []
  · simp [hcalls]
  · have hfinish : (streamResponseGeminiChat2OpenAI uuid s.uuids chunk).1.finish ≠ "" := by
      rw [ChatCompletionsStreamResponseChoice.finish, streamResponse_finish, if_neg hcalls]
      decide
    simp [hcalls, hfinish]

end Chunk

/-! ### The chunks of a stream -/

section Run

variable {uuid id model}

/-- What is read of the chunks that are sent for a chunk. -/
theorem join_responses (g : ChatCompletionsStreamResponseChoiceDelta → String)
    (hg : ∀ delta toolCalls, g { delta with toolCalls } = g delta)
    (hstart : g ⟨some "", none, none, []⟩ = "") (s : GeminiStreamState) (chunk : GeminiChunk) :
    String.join ((s.responses uuid id model chunk).map fun response => g response.delta) =
      g (streamResponseGeminiChat2OpenAI uuid s.uuids chunk).1.delta := by
  have hempty : ∀ toolCalls, g ⟨some "", none, none, toolCalls⟩ = "" :=
    fun toolCalls => (hg ⟨some "", none, none, []⟩ toolCalls).trans hstart
  rw [GeminiStreamState.responses]
  split
  · split
    · simp only [generateStartEmptyResponse, List.map_cons, List.map_nil, String.join_cons,
        String.join_nil, String.append_empty, oneChoice_delta, hempty, String.empty_append, hg]
    · simp only [generateStartEmptyResponse, List.map_cons, List.map_nil, String.join_cons,
        String.join_nil, String.append_empty, oneChoice_delta, hempty, String.empty_append, hg]
  · simp only [List.map_cons, List.map_nil, String.join_cons, String.join_nil,
      String.append_empty, oneChoice_delta, hg]

/-- What is read of the chunks that are sent for a stream, where `read` is what is read of each of
its chunks. -/
theorem join_sent (g : ChatCompletionsStreamResponseChoiceDelta → String)
    (hg : ∀ delta toolCalls, g { delta with toolCalls } = g delta)
    (hstart : g ⟨some "", none, none, []⟩ = "") (hstop : g ⟨none, none, none, []⟩ = "")
    (read : List GeminiPart → String)
    (hread : ∀ n chunk,
      g (streamResponseGeminiChat2OpenAI uuid n chunk).1.delta = read chunk.parts)
    (s : GeminiStreamState) (chunks : List GeminiChunk) :
    String.join ((chunks.foldl (GeminiStreamState.receive uuid id model) s).sent.map fun response =>
        g response.delta) =
      String.join (s.sent.map fun response => g response.delta) ++
        String.join (chunks.map fun chunk => read chunk.parts) := by
  induction chunks generalizing s with
  | nil => simp
  | cons chunk rest ih =>
    have hend : ∀ finishReason, String.join
        ((if chunk.finishReason = some "STOP" then [generateStopResponse id model finishReason]
          else []).map fun response => g response.delta) = "" := by
      intro finishReason
      split
      · simp [generateStopResponse, hstop]
      · rfl
    rw [List.foldl_cons, ih, receive_eq]
    simp only [List.map_append, String.join_append, join_responses g hg hstart, hread, hend,
      String.append_empty, List.map_cons, String.join_cons, String.append_assoc]

/-- The client's tool calls after the chunks that are sent for a chunk. -/
theorem addChunk_responses (s : GeminiStreamState) (chunk : GeminiChunk) (n : ℕ)
    (entries : List (ℤ × ToolCallRequest)) (hentries : ∀ k ∈ Keyed.keys entries, k < n)
    (hcalls : s.chunkCalls uuid chunk = pieces uuid n n (geminiCalls chunk.parts)) :
    (s.responses uuid id model chunk).foldl addChunk entries =
      entries ++ numbered uuid n (geminiCalls chunk.parts) := by
  have hchunk : ∀ (delta : ChatCompletionsStreamResponseChoiceDelta) finishReason entries,
      addChunk entries (oneChoice id model delta finishReason) =
        addPieces 0 entries delta.toolCalls := fun _ _ _ => rfl
  rw [GeminiStreamState.responses, hcalls]
  split
  · split
    · rename_i hnone
      rw [hnone]
      exact (List.append_nil entries).symm
    · simp only [generateStartEmptyResponse, List.foldl_cons, List.foldl_nil, hchunk,
        startToolCalls_pieces]
      rw [addPieces_new 0 n entries hentries]
      exact addPieces_clear 0 n entries hentries _
  · simp only [List.foldl_cons, List.foldl_nil, hchunk]
    exact addPieces_new 0 n entries hentries _

/-- The finish reason after the chunks that are sent for a chunk. -/
theorem lastFinish_responses (s : GeminiStreamState) (chunk : GeminiChunk) (finish : String) :
    lastFinish finish (s.responses uuid id model chunk) =
      if geminiCalls chunk.parts = [] then
        if chunk.finishReason = some "STOP" then finish
        else (chunk.finishReason.map geminiFinishReason).getD finish
      else if s.sent = [] then finish else "tool_calls" := by
  have hreason : ∀ reason, geminiFinishReason reason ≠ "" := by
    intro reason
    unfold geminiFinishReason
    split <;> decide
  rw [GeminiStreamState.responses]
  by_cases hcalls : geminiCalls chunk.parts = []
  · have hone : lastFinish finish [oneChoice id model
          { (streamResponseGeminiChat2OpenAI uuid s.uuids chunk).1.delta with
            toolCalls := s.chunkCalls uuid chunk }
          (streamResponseGeminiChat2OpenAI uuid s.uuids chunk).1.finishReason] =
        if chunk.finishReason = some "STOP" then finish
        else (chunk.finishReason.map geminiFinishReason).getD finish := by
      rw [lastFinish, lastFinish, oneChoice_finish, streamResponse_finish, if_pos hcalls]
      by_cases hstop : chunk.finishReason = some "STOP"
      · simp [hstop]
      · cases hfinish : chunk.finishReason with
        | none => simp
        | some reason =>
          have hne : some reason ≠ some "STOP" := hfinish ▸ hstop
          simp [hne, hreason]
    simp only [if_pos hcalls]
    split
    · rw [lastFinish]
      exact hone
    · exact hone
  · simp only [if_neg hcalls]
    split
    · rfl
    · rw [lastFinish, lastFinish, oneChoice_finish, streamResponse_finish, if_neg hcalls]
      rfl

theorem responses_ne_nil (s : GeminiStreamState) (chunk : GeminiChunk) :
    s.responses uuid id model chunk ≠ [] := by
  rw [GeminiStreamState.responses]
  split
  · split <;> exact List.cons_ne_nil _ _
  · exact List.cons_ne_nil _ _

/-- What the handler knows of the calls when it has received the given parts. -/
structure CallsKnown (uuid : ℕ → String) (s : GeminiStreamState) (parts : List GeminiPart) :
    Prop where
  uuids : s.uuids = (geminiCalls parts).length
  next : s.indexes.nextToolCallIndex = (geminiCalls parts).length
  unused : Unused uuid (geminiCalls parts).length s.indexes
  finishReason : s.finishReason = if geminiCalls parts = [] then "stop" else "tool_calls"
  toolCalls : toolCalls s.sent = numbered uuid 0 (geminiCalls parts)

theorem callsKnown_start : CallsKnown uuid {} [] where
  uuids := rfl
  next := rfl
  unused _ _ := rfl
  finishReason := rfl
  toolCalls := rfl

theorem geminiCalls_append (parts parts' : List GeminiPart) :
    geminiCalls (parts ++ parts') = geminiCalls parts ++ geminiCalls parts' :=
  List.filterMap_append

/-- The calls of a chunk get the numbers after those of the chunks before. -/
theorem CallsKnown.receive (hinj : Function.Injective uuid) {s : GeminiStreamState}
    {parts : List GeminiPart} (h : CallsKnown uuid s parts) (chunk : GeminiChunk) :
    CallsKnown uuid (s.receive uuid id model chunk) (parts ++ chunk.parts) := by
  obtain ⟨htools, hnext, hunused⟩ := setIndexes_pieces hinj 0 s.uuids s.indexes
    (h.uuids ▸ h.unused) (geminiCalls chunk.parts)
  have hlength : (geminiCalls (parts ++ chunk.parts)).length =
      s.uuids + (geminiCalls chunk.parts).length := by
    rw [geminiCalls_append, List.length_append, h.uuids]
  rw [h.next, ← h.uuids] at htools
  rw [receive_eq]
  refine ⟨hlength.symm, ?_, hlength ▸ hunused, ?_, ?_⟩
  · rw [hlength]
    exact hnext.trans (by rw [h.next, h.uuids])
  · dsimp only
    rw [geminiCalls_append, h.finishReason]
    by_cases hcalls : geminiCalls chunk.parts = []
    · simp [hcalls]
    · simp [hcalls]
  · have hkeys : ∀ k ∈ Keyed.keys (NewApi.toolCalls s.sent), k < (s.uuids : ℤ) := by
      intro k hk
      rw [h.toolCalls] at hk
      have hlt := ((keys_numbered _ _).2 k hk).2
      rw [h.uuids]
      push_cast at hlt
      omega
    have hsent : NewApi.toolCalls (s.sent ++ s.responses uuid id model chunk) =
        numbered uuid 0 (geminiCalls (parts ++ chunk.parts)) := by
      have hfold : NewApi.toolCalls (s.sent ++ s.responses uuid id model chunk) =
          (s.responses uuid id model chunk).foldl addChunk (NewApi.toolCalls s.sent) :=
        List.foldl_append
      rw [hfold, addChunk_responses s chunk s.uuids _ hkeys htools, h.toolCalls,
        geminiCalls_append, numbered_append, Nat.zero_add, h.uuids]
    dsimp only
    split
    · have hfold : ∀ chunks finishReason,
          NewApi.toolCalls (chunks ++ [generateStopResponse id model finishReason]) =
            NewApi.toolCalls chunks :=
        fun chunks finishReason => List.foldl_append
      rw [hfold, hsent]
    · rw [List.append_nil, hsent]

end Run

/-! ### Thoughts -/

theorem geminiThoughts_eq_nil {parts : List GeminiPart} :
    geminiThoughts parts = [] ↔ parts.any GeminiPart.isThought = false := by
  induction parts with
  | nil => exact ⟨fun _ => rfl, fun _ => rfl⟩
  | cons part rest ih =>
    cases part with
    | thought text => simp [geminiThoughts, GeminiPart.isThought]
    | _ => simpa [geminiThoughts, GeminiPart.isThought] using ih

/-- The thoughts of a chunk are among the lines it writes. -/
theorem geminiThoughts_sublist (parts : List GeminiPart) :
    (geminiThoughts parts).Sublist (parts.filterMap GeminiPart.streamLine) := by
  induction parts with
  | nil => exact .slnil
  | cons part rest ih =>
    cases part with
    | thought text => exact ih.cons_cons text
    | functionCall functionName arguments => exact ih
    | _ =>
      rw [List.filterMap_cons]
      split
      · exact ih
      · exact ih.cons _

/-- Of listed parts, what is written is the thoughts and the lines of the content. -/
theorem streamLine_length {parts : List GeminiPart} (hlisted : ∀ part ∈ parts, part.Listed) :
    (parts.filterMap GeminiPart.streamLine).length =
      (geminiThoughts parts).length + (parts.filterMap GeminiPart.line).length := by
  induction parts with
  | nil => rfl
  | cons part rest ih =>
    have hrest := ih fun part hpart => hlisted part (List.mem_cons_of_mem _ hpart)
    have hhead := hlisted part List.mem_cons_self
    rw [geminiThoughts] at hrest ⊢
    simp only [List.filterMap_cons]
    cases part with
    | inlineData mimeType data =>
      have himage : hasPrefix mimeType "image" = true := hhead
      simp only [GeminiPart.streamLine, GeminiPart.line, himage, if_true, List.length_cons]
      omega
    | functionCall functionName arguments => exact hrest
    | thought text | executableCode language code | codeExecutionResult output =>
      simp only [GeminiPart.streamLine, GeminiPart.line, List.length_cons]
      omega
    | text text =>
      simp only [GeminiPart.streamLine, GeminiPart.line]
      split
      · exact hrest
      · simp only [List.length_cons]
        omega

/-- A chunk with a thought that writes nothing else writes the thought. -/
theorem streamLine_of_apart {parts : List GeminiPart} (hthought : parts.any GeminiPart.isThought)
    (hone : (parts.filterMap GeminiPart.streamLine).length = 1) :
    parts.filterMap GeminiPart.streamLine = geminiThoughts parts := by
  have hne : geminiThoughts parts ≠ [] := fun h => by
    rw [geminiThoughts_eq_nil] at h
    rw [h] at hthought
    cases hthought
  have hpos := List.length_pos_of_ne_nil hne
  exact ((geminiThoughts_sublist parts).eq_of_length_le (by omega)).symm

/-- The reasoning of a chunk is at least as long as its thoughts, and no longer exactly if it writes
nothing else. -/
theorem chunkReasoning_length (parts : List GeminiPart) :
    (String.join (geminiThoughts parts)).length ≤ (chunkReasoning parts).length ∧
      ((chunkReasoning parts).length = (String.join (geminiThoughts parts)).length →
        parts.any GeminiPart.isThought → (parts.filterMap GeminiPart.streamLine).length = 1) := by
  have hjoin : ∀ xs : List String, (String.join xs).length = (xs.map String.length).sum := by
    intro xs
    induction xs with
    | nil => rfl
    | cons x xs ih => rw [String.join_cons, String.length_append, ih, List.map_cons, List.sum_cons]
  rw [chunkReasoning, hjoin]
  by_cases hthought : parts.any GeminiPart.isThought = true
  · rw [if_pos hthought, chunkLines]
    have hsum : ((geminiThoughts parts).map String.length).sum ≤
        ((parts.filterMap GeminiPart.streamLine).map String.length).sum :=
      ((geminiThoughts_sublist parts).map String.length).sum_le_sum fun _ _ => Nat.zero_le _
    cases hlines : parts.filterMap GeminiPart.streamLine with
    | nil =>
      have hsub := geminiThoughts_sublist parts
      rw [hlines, List.sublist_nil, geminiThoughts_eq_nil, hthought] at hsub
      cases hsub
    | cons line rest =>
      rw [hlines, List.map_cons, List.sum_cons] at hsum
      rw [lines_length, List.length_cons]
      exact ⟨by omega, fun heq _ => by omega⟩
  · rw [if_neg hthought]
    have hnil := geminiThoughts_eq_nil.2 (Bool.not_eq_true _ ▸ hthought)
    rw [hnil]
    exact ⟨le_rfl, fun _ h => absurd h hthought⟩

theorem geminiThoughts_cons (parts : List GeminiPart) (rest : List (List GeminiPart)) :
    geminiThoughts (parts :: rest).flatten =
      geminiThoughts parts ++ geminiThoughts rest.flatten := by
  rw [List.flatten_cons, geminiThoughts, List.filterMap_append]
  rfl

/-- If chunks with a thought write nothing else, the reasoning is the thoughts. -/
theorem reasoning_of_apart {cuts : List (List GeminiPart)} (happart : ThoughtsApart cuts) :
    String.join (cuts.map chunkReasoning) = String.join (geminiThoughts cuts.flatten) := by
  induction cuts with
  | nil => rfl
  | cons parts rest ih =>
    have hrest := ih fun cut hcut => happart cut (List.mem_cons_of_mem _ hcut)
    have hparts : chunkReasoning parts = String.join (geminiThoughts parts) := by
      rw [chunkReasoning]
      by_cases hthought : parts.any GeminiPart.isThought = true
      · have hone := happart parts List.mem_cons_self hthought
        rw [if_pos hthought, chunkLines, streamLine_of_apart hthought hone]
        rw [streamLine_of_apart hthought hone, List.length_eq_one_iff] at hone
        obtain ⟨text, htext⟩ := hone
        simp [htext, lines]
      · rw [if_neg hthought, geminiThoughts_eq_nil.2 (Bool.not_eq_true _ ▸ hthought)]
        rfl
    rw [List.map_cons, String.join_cons, hparts, hrest, geminiThoughts_cons, String.join_append]

/-- **The reasoning of a stream** is the last thought exactly if the chunks with a thought write
nothing else and no thought comes before the last one. -/
theorem reasoning_iff (cuts : List (List GeminiPart)) :
    String.join (cuts.map chunkReasoning) = (geminiThoughts cuts.flatten).getLast?.getD "" ↔
      ThoughtsApart cuts ∧ LastThought cuts.flatten := by
  have hlength : (String.join (geminiThoughts cuts.flatten)).length ≤
        (String.join (cuts.map chunkReasoning)).length ∧
      ((String.join (cuts.map chunkReasoning)).length =
        (String.join (geminiThoughts cuts.flatten)).length → ThoughtsApart cuts) := by
    induction cuts with
    | nil => exact ⟨le_rfl, fun _ _ h => by cases h⟩
    | cons parts rest ih =>
      obtain ⟨hle, happart⟩ := chunkReasoning_length parts
      rw [geminiThoughts_cons, String.join_append, List.map_cons, String.join_cons,
        String.length_append, String.length_append]
      refine ⟨by omega, fun heq => ?_⟩
      intro cut hcut
      rcases List.mem_cons.1 hcut with rfl | hrest
      · exact happart (by omega)
      · exact ih.2 (by omega) cut hrest
  constructor
  · intro heq
    have hlast : ((geminiThoughts cuts.flatten).getLast?.getD "").length ≤
        (String.join (geminiThoughts cuts.flatten)).length := by
      rcases List.eq_nil_or_concat' (geminiThoughts cuts.flatten) with hnil | ⟨front, last, hcat⟩
      · rw [hnil]
        exact le_rfl
      · rw [hcat, List.getLast?_concat, Option.getD_some, String.join_append, String.length_append,
          String.join_cons, String.join_nil, String.append_empty]
        omega
    have happart := hlength.2 (by rw [heq] at hlength ⊢; omega)
    exact ⟨happart, join_eq_last.1 ((reasoning_of_apart happart).symm.trans heq)⟩
  · rintro ⟨happart, hlast⟩
    exact (reasoning_of_apart happart).trans (join_eq_last.2 hlast)

/-! ### The content -/

/-- Lines that are those of the content, with a newline after some of them. -/
theorem spaced_join {ls ls' : List String}
    (h : List.Forall₂ (fun a b => b = a ∨ b = a ++ "\n") ls ls') :
    Spaced ls (String.join (ls'.map fun line => "\n" ++ line)) := by
  induction h with
  | nil => exact .nil 0
  | cons hline _ ih =>
    rw [List.map_cons, String.join_cons]
    refine Spaced.line_append ?_ ih
    rcases hline with rfl | rfl
    · exact Spaced.append (.nil 1) (.piece _)
    · exact Spaced.append (.nil 1) (Spaced.append (.piece _) (.nil 1))

theorem spaced_lines {ls ls' : List String}
    (h : List.Forall₂ (fun a b => b = a ∨ b = a ++ "\n") ls ls') : Spaced ls (lines ls') := by
  cases h with
  | nil => exact .nil 0
  | cons hline hrest =>
    refine Spaced.line_append ?_ (spaced_join hrest)
    rcases hline with rfl | rfl
    · exact .piece _
    · exact Spaced.append (.piece _) (.nil 1)

/-- The lines of listed parts without a thought. -/
theorem streamLine_forall {parts : List GeminiPart} (hlisted : ∀ part ∈ parts, part.Listed)
    (hthought : parts.any GeminiPart.isThought = false) :
    List.Forall₂ (fun a b => b = a ∨ b = a ++ "\n") (parts.filterMap GeminiPart.line)
      (parts.filterMap GeminiPart.streamLine) := by
  induction parts with
  | nil => exact .nil
  | cons part rest ih =>
    rw [List.any_cons, Bool.or_eq_false_iff] at hthought
    have hrest := ih (fun part hpart => hlisted part (List.mem_cons_of_mem _ hpart)) hthought.2
    have hhead := hlisted part List.mem_cons_self
    simp only [List.filterMap_cons]
    cases part with
    | inlineData mimeType data =>
      have himage : hasPrefix mimeType "image" = true := hhead
      simp only [GeminiPart.streamLine, GeminiPart.line, himage, if_true]
      exact .cons (.inl rfl) hrest
    | functionCall functionName arguments => exact hrest
    | thought text => cases hthought.1
    | executableCode language code | codeExecutionResult output =>
      refine .cons (.inr ?_) hrest
      simp only [String.append_assoc]
      rfl
    | text text =>
      simp only [GeminiPart.streamLine, GeminiPart.line]
      split
      · exact hrest
      · exact .cons (.inl rfl) hrest

/-- The content of a stream, if chunks with a thought write nothing else. -/
theorem content_of_apart {cuts : List (List GeminiPart)}
    (hlisted : ∀ part ∈ cuts.flatten, part.Listed) (happart : ThoughtsApart cuts) :
    Spaced (cuts.flatten.filterMap GeminiPart.line) (String.join (cuts.map chunkContent)) := by
  induction cuts with
  | nil => exact .nil 0
  | cons parts rest ih =>
    rw [List.flatten_cons] at hlisted ⊢
    have hparts : ∀ part ∈ parts, part.Listed :=
      fun part hpart => hlisted part (List.mem_append_left _ hpart)
    have hrest := ih (fun part hpart => hlisted part (List.mem_append_right _ hpart))
      fun cut hcut => happart cut (List.mem_cons_of_mem _ hcut)
    rw [List.filterMap_append, List.map_cons, String.join_cons]
    refine Spaced.append ?_ hrest
    rw [chunkContent]
    by_cases hthought : parts.any GeminiPart.isThought = true
    · -- only the thought is written, so there are no lines of the content
      have hone := happart parts List.mem_cons_self hthought
      have hlength := streamLine_length hparts
      rw [← streamLine_of_apart hthought hone] at hlength
      have hnil : parts.filterMap GeminiPart.line = [] :=
        List.length_eq_zero_iff.1 (by omega)
      rw [if_pos hthought, hnil]
      exact .nil 0
    · rw [if_neg hthought, chunkLines]
      exact spaced_lines (streamLine_forall hparts (Bool.not_eq_true _ ▸ hthought))

/-! ### The finish reason -/

section Finish

variable {uuid id model}

theorem geminiFinishReason_cases (reason : String) :
    geminiFinishReason reason ≠ "tool_calls" := by
  unfold geminiFinishReason
  split <;> decide

/-- The state after chunks without a finish reason. -/
theorem finish_cuts (cuts : List (List GeminiPart)) :
    let s := (cuts.map fun parts => (⟨parts, none⟩ : GeminiChunk)).foldl
      (GeminiStreamState.receive uuid id model) {}
    (s.sent = [] ↔ cuts = []) ∧
      lastFinish "" s.sent =
        if geminiCalls cuts.tail.flatten = [] then "" else "tool_calls" := by
  induction cuts using List.reverseRecOn with
  | nil => simp [lastFinish]
  | append_singleton cuts parts ih =>
    obtain ⟨hsent, hfinish⟩ := ih
    simp only [List.map_append, List.map_cons, List.map_nil, List.foldl_append, List.foldl_cons,
      List.foldl_nil, receive_eq]
    have hstop : ¬ (none : Option String) = some "STOP" := by simp
    rw [if_neg hstop, List.append_nil, lastFinish_append, hfinish, lastFinish_responses,
      if_neg hstop]
    simp only [hsent]
    refine ⟨?_, ?_⟩
    · simp [responses_ne_nil]
    · cases cuts with
      | nil => simp
      | cons cut rest =>
        rw [List.cons_append, List.tail_cons, List.tail_cons, List.flatten_append,
          geminiCalls_append, List.flatten_singleton]
        by_cases hcalls : geminiCalls parts = []
        · simp [hcalls]
        · simp [hcalls]

theorem response_finishReason_gemini (parts : List GeminiPart) (finishReason : Option String) :
    (responseGeminiChat2OpenAI uuid parts finishReason).finishReason =
      if geminiCalls parts = [] then (finishReason.map geminiFinishReason).getD "stop"
      else "tool_calls" := by
  have htools := @response_toolCalls_gemini uuid parts finishReason
  have hnil : (responseGeminiChat2OpenAI uuid parts finishReason).toolCalls = [] ↔
      geminiCalls parts = [] := by
    rw [htools]
    cases geminiCalls parts with
    | nil => simp [numbered, Keyed.values]
    | cons call rest => simp [numbered, Keyed.values]
  have hfinish : (responseGeminiChat2OpenAI uuid parts finishReason).finishReason =
      if (responseGeminiChat2OpenAI uuid parts finishReason).toolCalls ≠ [] then "tool_calls"
      else (finishReason.map geminiFinishReason).getD "stop" := by
    cases finishReason with
    | none => rfl
    | some reason => rfl
  rw [hfinish]
  by_cases hcalls : geminiCalls parts = []
  · rw [if_neg (not_not.2 (hnil.2 hcalls)), if_pos hcalls]
  · rw [if_pos fun h => hcalls (hnil.1 h), if_neg hcalls]

/-- **The finish reason of a stream** is that of the whole answer exactly if it is kept. -/
theorem finish_iff (uuid' : ℕ → String) (usage : OpenAIUsage) (cuts : List (List GeminiPart))
    (last : List GeminiPart) (finishReason : Option String)
    (hknown : CallsKnown uuid ((cuts.map fun parts => (⟨parts, none⟩ : GeminiChunk)).foldl
      (GeminiStreamState.receive uuid id model) {}) cuts.flatten) :
    lastFinish "" (geminiChatStreamHandler uuid id model usage
        (geminiChunks cuts last finishReason)) =
      (responseGeminiChat2OpenAI uuid' (cuts ++ [last]).flatten finishReason).finishReason ↔
      FinishKept cuts last finishReason := by
  obtain ⟨hsent, hfinish⟩ := @finish_cuts uuid id model cuts
  have hall : geminiCalls (cuts ++ [last]).flatten =
      geminiCalls cuts.flatten ++ geminiCalls last := by
    rw [List.flatten_append, geminiCalls_append, List.flatten_singleton]
  have hmiddle : geminiCalls cuts.tail.flatten ≠ [] → geminiCalls cuts.flatten ≠ [] := by
    intro htail hnil
    cases cuts with
    | nil => exact htail rfl
    | cons parts rest =>
      rw [List.flatten_cons, geminiCalls_append, List.append_eq_nil_iff] at hnil
      exact htail hnil.2
  have hhandler : lastFinish "" (geminiChatStreamHandler uuid id model usage
      (geminiChunks cuts last finishReason)) =
      if finishReason = some "STOP" then
        if geminiCalls (cuts ++ [last]).flatten = [] then "stop" else "tool_calls"
      else if geminiCalls last = [] then
        (finishReason.map geminiFinishReason).getD
          (if geminiCalls cuts.tail.flatten = [] then "" else "tool_calls")
      else if cuts = [] then "" else "tool_calls" := by
    rw [geminiChatStreamHandler, geminiChunks, List.foldl_append, List.foldl_cons, List.foldl_nil,
      receive_eq, hknown.finishReason, hall]
    dsimp only
    have hne : geminiCalls last ≠ [] → geminiCalls cuts.flatten ++ geminiCalls last ≠ [] :=
      fun h hnil => h (List.append_eq_nil_iff.1 hnil).2
    by_cases hstop : finishReason = some "STOP"
    · rw [if_pos hstop, if_pos hstop, lastFinish_append, lastFinish_append]
      by_cases hcalls : geminiCalls last = []
      · rw [if_pos hcalls, hcalls, List.append_nil]
        split <;> rfl
      · rw [if_neg hcalls, if_neg (hne hcalls)]
        rfl
    · simp only [if_neg hstop, List.append_nil, lastFinish_append, hfinish, lastFinish_responses,
        hsent]
      by_cases hcalls : geminiCalls last = []
      · simp only [if_pos hcalls]
        rfl
      · simp only [if_neg hcalls]
        cases cuts with
        | nil => rfl
        | cons cut rest => rfl
  rw [hhandler, response_finishReason_gemini, FinishKept, hall]
  by_cases hstop : finishReason = some "STOP"
  · subst hstop
    simp only [if_true, true_or, iff_true]
    rfl
  rw [if_neg hstop]
  by_cases hlast : geminiCalls last = []
  · rw [if_pos hlast, hlast, List.append_nil]
    cases finishReason with
    | none =>
      by_cases htail : geminiCalls cuts.tail.flatten = []
      · by_cases hcuts : geminiCalls cuts.flatten = [] <;> simp [htail, hcuts]
      · simp [htail, hmiddle htail]
    | some reason =>
      by_cases hcuts : geminiCalls cuts.flatten = []
      · simp [hcuts]
      · simpa [hcuts, hstop] using geminiFinishReason_cases reason
  · have hne : geminiCalls cuts.flatten ++ geminiCalls last ≠ [] :=
      fun hnil => hlast (List.append_eq_nil_iff.1 hnil).2
    rw [if_neg hlast, if_neg hne]
    cases cuts with
    | nil => simp [hstop, hlast]
    | cons cut rest => simp [hlast]

end Finish

/-! ### The conversions agree -/

section Agree

variable {uuid id model}

theorem callsKnown_run (hinj : Function.Injective uuid) {s : GeminiStreamState}
    {parts : List GeminiPart} (h : CallsKnown uuid s parts) (chunks : List GeminiChunk) :
    CallsKnown uuid (chunks.foldl (GeminiStreamState.receive uuid id model) s)
      (parts ++ (chunks.map GeminiChunk.parts).flatten) := by
  induction chunks generalizing s parts with
  | nil => simpa using h
  | cons chunk rest ih =>
    have hrest := ih (@CallsKnown.receive uuid id model hinj s parts h chunk)
    rwa [List.append_assoc] at hrest

theorem geminiChunks_parts (cuts : List (List GeminiPart)) (last : List GeminiPart)
    (finishReason : Option String) :
    (geminiChunks cuts last finishReason).map GeminiChunk.parts = cuts ++ [last] := by
  rw [geminiChunks, List.map_append, List.map_map]
  exact congrArg (· ++ [last]) (List.map_id cuts)

theorem contents_handler (usage : OpenAIUsage) (chunks : List GeminiChunk) :
    contents (geminiChatStreamHandler uuid id model usage chunks) =
      String.join ((chunks.map GeminiChunk.parts).map chunkContent) := by
  have hsent := @join_sent uuid id model
    ChatCompletionsStreamResponseChoiceDelta.getContentString (fun _ _ => rfl) rfl rfl chunkContent
    streamResponse_content {} chunks
  rw [geminiChatStreamHandler, contents, List.map_append, String.join_append, hsent, List.map_map]
  simp [generateFinalUsageResponse, ChatCompletionsStreamResponse.delta,
    ChatCompletionsStreamResponseChoiceDelta.getContentString, Function.comp_def]

theorem reasonings_handler (usage : OpenAIUsage) (chunks : List GeminiChunk) :
    reasonings (geminiChatStreamHandler uuid id model usage chunks) =
      String.join ((chunks.map GeminiChunk.parts).map chunkReasoning) := by
  have hsent := @join_sent uuid id model
    ChatCompletionsStreamResponseChoiceDelta.getReasoningContent (fun _ _ => rfl) rfl rfl
    chunkReasoning streamResponse_reasoning {} chunks
  rw [geminiChatStreamHandler, reasonings, List.map_append, String.join_append, hsent,
    List.map_map]
  simp [generateFinalUsageResponse, ChatCompletionsStreamResponse.delta,
    ChatCompletionsStreamResponseChoiceDelta.getReasoningContent, Function.comp_def]

/-- The client gets every call of a stream, each under a number of its own. -/
theorem toolCalls_handler (hinj : Function.Injective uuid) (usage : OpenAIUsage)
    (chunks : List GeminiChunk) :
    toolCalls (geminiChatStreamHandler uuid id model usage chunks) =
      numbered uuid 0 (geminiCalls (chunks.map GeminiChunk.parts).flatten) := by
  have hknown := @callsKnown_run uuid id model hinj {} [] callsKnown_start chunks
  have hfinal : ∀ sent, toolCalls (sent ++ [generateFinalUsageResponse id model usage]) =
      toolCalls sent := fun sent => List.foldl_append
  rw [geminiChatStreamHandler, hfinal, hknown.toolCalls, List.nil_append]

/-- **The conversions of a Gemini answer agree** on exactly the streams in which the chunks with a
thought write nothing else, no thought comes before the last one and the finish reason is kept. -/
theorem gemini_stream_agrees (hinj : Function.Injective uuid) (uuid' : ℕ → String)
    (usage : OpenAIUsage) (cuts : List (List GeminiPart)) (last : List GeminiPart)
    (finishReason : Option String) (hlisted : ∀ part ∈ (cuts ++ [last]).flatten, part.Listed) :
    GeminiAgrees (cuts ++ [last]).flatten
        (geminiChatStreamHandler uuid id model usage (geminiChunks cuts last finishReason))
        (responseGeminiChat2OpenAI uuid' (cuts ++ [last]).flatten finishReason) ↔
      ThoughtsApart (cuts ++ [last]) ∧ LastThought (cuts ++ [last]).flatten ∧
        FinishKept cuts last finishReason := by
  have hknown : CallsKnown uuid ((cuts.map fun parts => (⟨parts, none⟩ : GeminiChunk)).foldl
      (GeminiStreamState.receive uuid id model) {}) cuts.flatten := by
    have h := @callsKnown_run uuid id model hinj {} [] callsKnown_start
      (cuts.map fun parts => (⟨parts, none⟩ : GeminiChunk))
    have hparts : cuts.map (GeminiChunk.parts ∘ fun parts => ⟨parts, none⟩) = cuts :=
      List.map_id cuts
    rwa [List.nil_append, List.map_map, hparts] at h
  have hfinish := @finish_iff uuid id model uuid' usage cuts last finishReason hknown
  have hreasoning : (responseGeminiChat2OpenAI uuid' (cuts ++ [last]).flatten
      finishReason).reasoningContent = (geminiThoughts (cuts ++ [last]).flatten).getLast? := by
    simp only [responseGeminiChat2OpenAI, foldl_read, Option.or_none]
  constructor
  · intro h
    have hthoughts := h.reasoning
    rw [reasonings_handler, geminiChunks_parts, hreasoning, reasoning_iff] at hthoughts
    exact ⟨hthoughts.1, hthoughts.2, hfinish.1 h.finishReason⟩
  · rintro ⟨happart, hlast, hkept⟩
    refine ⟨⟨?_, ?_⟩, ?_, ?_, ?_, hfinish.2 hkept⟩
    · rw [contents_handler, geminiChunks_parts]
      exact content_of_apart hlisted happart
    · have hcontent : (responseGeminiChat2OpenAI uuid' (cuts ++ [last]).flatten
          finishReason).content = lines ((cuts ++ [last]).flatten.filterMap GeminiPart.line) := by
        simp only [responseGeminiChat2OpenAI, foldl_read, lines_written]
      rw [hcontent]
      exact spaced_lines (List.forall₂_same.2 fun _ _ => .inl rfl)
    · rw [reasonings_handler, geminiChunks_parts, hreasoning]
      exact (reasoning_iff _).2 ⟨happart, hlast⟩
    · rw [toolCalls_handler hinj, geminiChunks_parts, numbered_unnamed, response_toolCalls_gemini,
        numbered_unnamed]
    · rw [toolCalls_handler hinj]
      exact (keys_numbered 0 _).1

/-- A thought in a chunk of its own, then two calls with a text between them, over three chunks. -/
theorem gemini_stream_agrees_calls :
    GeminiAgrees [.thought "plan", .functionCall "f" "\x7b\x7d", .text "so", .functionCall "g" "1"]
      (geminiChatStreamHandler Nat.repr "id" "gemini" ⟨1, 1, 0, 0, 0, 0⟩
        (geminiChunks [[.thought "plan", .functionCall "f" "\x7b\x7d"], [.text "so"]]
          [.functionCall "g" "1"] (some "STOP")))
      (responseGeminiChat2OpenAI Nat.repr
        [.thought "plan", .functionCall "f" "\x7b\x7d", .text "so", .functionCall "g" "1"]
        (some "STOP")) :=
  (gemini_stream_agrees (fun _ _ h => Nat.repr_injective h) Nat.repr ⟨1, 1, 0, 0, 0, 0⟩
    [[.thought "plan", .functionCall "f" "\x7b\x7d"], [.text "so"]] [.functionCall "g" "1"]
    (some "STOP") (by decide)).2 ⟨by decide, by decide, .inl rfl⟩

/-- **A chunk with a thought and a text**: the text is sent as reasoning. -/
theorem gemini_thought_drift : ¬ GeminiAgrees [.thought "plan", .text "answer"]
      (geminiChatStreamHandler Nat.repr "id" "gemini" ⟨1, 1, 0, 0, 0, 0⟩
        (geminiChunks [] [.thought "plan", .text "answer"] (some "STOP")))
      (responseGeminiChat2OpenAI Nat.repr [.thought "plan", .text "answer"] (some "STOP")) := by
  intro h
  exact absurd h.reasoning (by decide +kernel)

end Agree

end NewApi
