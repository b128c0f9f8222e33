/-
**The envelope of a Claude stream.**

The events of a message stand between one start of the message and its end: a delta with the stop
reason and the usage, then the stop of the message.  The start is sent with the chunk that is
converted while one chunk has been sent, and the end with the first chunk that carries a finish
reason together with a usage, or with one that carries no choice once a usage is known.  The last
chunk is delivered without being counted and with the usage of the request.

Main definitions:

* `NewApi.Envelope` — what a client expects;
* `NewApi.Enveloped` — the streams for which the converter keeps to it.

Main results:

* `NewApi.claude_envelope` — **the events are an envelope for exactly these streams**;
* `NewApi.finish_chunk_never_closes` — a stream that is not closed.
-/

import NewApi.ClaudeStream

set_option autoImplicit false

namespace NewApi

/-- One start of the message, which comes first, and at the end one delta of the message with a stop
reason and a usage, and one stop of it. -/
def Envelope (es : List ClaudeEvent) : Prop :=
  ∃ id model inputTokens body stopReason usage,
    es = .messageStart id model inputTokens :: (body ++ closing stopReason usage) ∧
      AllBlocks body ∧ stopReason ≠ ""

/-- Whether one of the chunks after the first closes the message.  The last one is delivered with a
usage. -/
def closesLater : Bool → List ChatCompletionsStreamResponse → Bool
  | _, [] => false
  | _, [last] => last.closes true
  | usageKnown, chunk :: rest =>
    chunk.closes (chunk.usage.isSome || usageKnown) ||
      closesLater (chunk.usage.isSome || usageKnown) rest

/-- The streams whose message is started and closed once: there is a second chunk, and the first one
closes the message with a usage of its own, or does not close it, is not next to the last, and one
of the others closes it. -/
def Enveloped : List ChatCompletionsStreamResponse → Prop
  | first :: next :: rest =>
    if first.isFinished then first.usage.isSome = true
    else rest ≠ [] ∧ closesLater first.usage.isSome (next :: rest) = true
  | _ => False

/-! ### The chunks after the first -/

/-- A message that is closed is left alone. -/
theorem oaiStreamHandler_of_done {usage : OpenAIUsage} {info : ClaudeRelayInfo}
    {chunks : List ChatCompletionsStreamResponse} (hdone : info.done = true) :
    oaiStreamHandler usage info chunks = [] := by
  induction chunks generalizing info with
  | nil => rfl
  | cons chunk rest ih =>
    cases rest with
    | nil => simp [oaiStreamHandler, handleFinalResponse, streamResponseOpenAI2Claude, hdone]
    | cons next rest =>
      simp only [oaiStreamHandler, handleStreamFormat_of_done chunk info hdone, List.nil_append]
      exact ih hdone

/-- Block events with the end of the message after them. -/
def ClosedBody (es : List ClaudeEvent) : Prop :=
  ∃ body stopReason usage, es = body ++ closing stopReason usage ∧ AllBlocks body ∧ stopReason ≠ ""

theorem ClosedBody.append {es es' : List ClaudeEvent} (h : AllBlocks es) (h' : ClosedBody es') :
    ClosedBody (es ++ es') := by
  obtain ⟨body, stopReason, usage, rfl, hbody, hreason⟩ := h'
  exact ⟨es ++ body, stopReason, usage, by rw [List.append_assoc], allBlocks_append.2 ⟨h, hbody⟩,
    hreason⟩

/-- **The chunks after the first** give block events, and the end of the message exactly if one of
them closes it. -/
theorem later_events (usage : OpenAIUsage) {info : ClaudeRelayInfo}
    (chunks : List ChatCompletionsStreamResponse) (hdone : info.done = false)
    (hfirst : 0 < info.sendResponseCount) (hcount : 2 < info.sendResponseCount + chunks.length) :
    (closesLater info.usage.isSome chunks = true ∧
      ClosedBody (oaiStreamHandler usage info chunks)) ∨
    (closesLater info.usage.isSome chunks = false ∧
      AllBlocks (oaiStreamHandler usage info chunks)) := by
  induction chunks generalizing info with
  | nil => exact .inr ⟨rfl, allBlocks_nil⟩
  | cons chunk rest ih =>
    cases rest with
    | nil =>
      have hlater : oaiStreamHandler usage info [chunk] =
          (convertLater chunk { info with usage := some usage }).1 := by
        have hne : info.sendResponseCount ≠ 1 := by
          simp only [List.length_singleton] at hcount
          omega
        simp [oaiStreamHandler, handleFinalResponse, streamResponseOpenAI2Claude, hdone, hne]
      rw [hlater]
      rcases convertLater_cases chunk { info with usage := some usage } hdone with
        ⟨hcloses, hblocks, _⟩ | ⟨hcloses, _, hclosed⟩
      · exact .inr ⟨hcloses, hblocks⟩
      · exact .inl ⟨hcloses, hclosed⟩
    | cons next rest =>
      have hlater := handleStreamFormat_later chunk info hdone hfirst
      simp only [oaiStreamHandler, hlater, closesLater]
      rw [← receive_usage_isSome]
      rcases convertLater_cases chunk (info.receive chunk) hdone with
        ⟨hcloses, hblocks, hgo, husage, hsent⟩ | ⟨hcloses, hend, hclosed⟩
      · rw [hcloses, Bool.false_or, ← husage]
        have hcount' : 2 < (convertLater chunk (info.receive chunk)).2.sendResponseCount +
            (next :: rest).length := by
          rw [hsent, receive_sendResponseCount]
          simp only [List.length_cons] at hcount ⊢
          omega
        rcases ih hgo (by rw [hsent, receive_sendResponseCount]; omega) hcount' with
          ⟨hlast, hbody⟩ | ⟨hlast, hbody⟩
        · exact .inl ⟨hlast, .append hblocks hbody⟩
        · exact .inr ⟨hlast, allBlocks_append.2 ⟨hblocks, hbody⟩⟩
      · rw [hcloses, Bool.true_or, oaiStreamHandler_of_done hend, List.append_nil]
        exact .inl ⟨rfl, hclosed⟩

/-! ### The first chunk -/

/-- **What the first chunk does to the message**: it starts it, and closes it, with a usage or without
one, if it has a finish reason. -/
theorem convertFirst_cases (r : ChatCompletionsStreamResponse) (info : ClaudeRelayInfo)
    (hdone : info.done = false) :
    ∃ id model inputTokens body, AllBlocks body ∧
      ((r.isFinished = false ∧ (convertFirst r info).2.done = false ∧
          (convertFirst r info).2.usage = info.usage ∧
          (convertFirst r info).2.sendResponseCount = info.sendResponseCount ∧
          (convertFirst r info).1 = .messageStart id model inputTokens :: body) ∨
        (r.isFinished = true ∧ (convertFirst r info).2.done = true ∧
          (((r.usage.or info.usage).isSome = false ∧
              (convertFirst r info).1 = .messageStart id model inputTokens ::
                (body ++ [ClaudeEvent.messageStop])) ∨
            ((r.usage.or info.usage).isSome = true ∧ ∃ stopReason usage, stopReason ≠ "" ∧
              (convertFirst r info).1 = .messageStart id model inputTokens ::
                (body ++ closing stopReason usage))))) := by
  refine ⟨r.id, r.model, info.estimatePromptTokens, ?_⟩
  unfold convertFirst
  cases hchoices : r.choices with
  | nil =>
    refine ⟨[], allBlocks_nil, .inl ⟨?_, hdone, rfl, rfl, rfl⟩⟩
    simp [ChatCompletionsStreamResponse.isFinished, hchoices]
  | cons choice rest =>
    obtain ⟨htools, hsame⟩ := blocksOnly_firstToolCall choice.delta info
    obtain ⟨hcontents, hsame'⟩ := blocksOnly_firstContent choice.delta
      (firstToolCall choice.delta info).2
    have hinfo := hsame.trans hsame'
    have hbody := allBlocks_append.2 ⟨htools, hcontents⟩
    have hfinished : r.isFinished = decide (choice.finish ≠ "") := by
      simp [ChatCompletionsStreamResponse.isFinished, hchoices]
    rw [hfinished]
    by_cases hfinish : choice.finish = ""
    · refine ⟨_, hbody, .inl ?_⟩
      simp only [hfinish, ne_eq, not_true_eq_false, decide_false, if_false]
      exact ⟨trivial, hinfo.done.trans hdone, hinfo.usage, hinfo.sendResponseCount, trivial⟩
    · refine ⟨_, allBlocks_append.2 ⟨hbody, allBlocks_stopOpenBlocks
        { (firstContent choice.delta (firstToolCall choice.delta info).2).2 with
          finishReason := choice.finish }⟩, .inr ?_⟩
      simp only [hfinish, ne_eq, not_false_eq_true, decide_true, if_true, closeMessage,
        hinfo.usage]
      refine ⟨trivial, trivial, ?_⟩
      cases r.usage.or info.usage with
      | none => exact .inl ⟨rfl, by simp⟩
      | some usage =>
        exact .inr ⟨rfl, _, buildClaudeUsageFromOpenAIUsage usage,
          stopReasonOpenAI2Claude_ne_empty hfinish, by simp [closing]⟩

/-! ### The envelope -/

/-- The event is no start of the message. -/
theorem not_start_of_closed {es : List ClaudeEvent} {id model : String} {inputTokens : ℤ}
    (h : ClosedBody es) : ClaudeEvent.messageStart id model inputTokens ∉ es := by
  obtain ⟨body, stopReason, usage, rfl, hbody, _⟩ := h
  intro hmem
  rcases List.mem_append.1 hmem with hmem | hmem
  · exact absurd (hbody _ hmem) (by simp [ClaudeEvent.isBlock])
  · simp [closing] at hmem

theorem not_closed_of_blocks {es : List ClaudeEvent} (h : AllBlocks es) : ¬ ClosedBody es := by
  rintro ⟨body, stopReason, usage, rfl, _, _⟩
  have hstop := h .messageStop (by simp [closing])
  simp [ClaudeEvent.isBlock] at hstop

/-- An envelope is a start of the message with a closed body after it. -/
theorem envelope_cons {e : ClaudeEvent} {es : List ClaudeEvent} :
    Envelope (e :: es) ↔ (∃ id model inputTokens, e = .messageStart id model inputTokens) ∧
      ClosedBody es := by
  constructor
  · rintro ⟨id, model, inputTokens, body, stopReason, usage, heq, hbody, hreason⟩
    obtain ⟨rfl, rfl⟩ := List.cons.inj heq
    exact ⟨⟨id, model, inputTokens, rfl⟩, body, stopReason, usage, rfl, hbody, hreason⟩
  · rintro ⟨⟨id, model, inputTokens, rfl⟩, body, stopReason, usage, rfl, hbody, hreason⟩
    exact ⟨id, model, inputTokens, body, stopReason, usage, rfl, hbody, hreason⟩

/-- A single chunk is delivered as the last one and starts no message. -/
theorem not_envelope_single (usage : OpenAIUsage) (estimatePromptTokens : ℤ)
    (last : ChatCompletionsStreamResponse) :
    ¬ Envelope (oaiStreamHandler usage (initialInfo estimatePromptTokens) [last]) := by
  have hlater : oaiStreamHandler usage (initialInfo estimatePromptTokens) [last] =
      (convertLater last { initialInfo estimatePromptTokens with usage := some usage }).1 := by
    simp [oaiStreamHandler, handleFinalResponse, streamResponseOpenAI2Claude, initialInfo]
  rw [hlater]
  rintro ⟨id, model, inputTokens, body, stopReason, usage', heq, _, _⟩
  have hmem : ClaudeEvent.messageStart id model inputTokens ∈
      (convertLater last { initialInfo estimatePromptTokens with usage := some usage }).1 := by
    rw [heq]
    exact List.mem_cons_self
  rcases convertLater_cases last { initialInfo estimatePromptTokens with usage := some usage } rfl with
    ⟨_, hblocks, _⟩ | ⟨_, _, hclosed⟩
  · exact absurd (hblocks _ hmem) (by simp [ClaudeEvent.isBlock])
  · exact not_start_of_closed hclosed hmem

/-- Two chunks of which the first does not finish the message start it twice. -/
theorem start_mem_second (usage : OpenAIUsage) (last : ChatCompletionsStreamResponse)
    {info : ClaudeRelayInfo} (hdone : info.done = false)
    (hcount : info.sendResponseCount = 1) :
    ∃ id model inputTokens,
      ClaudeEvent.messageStart id model inputTokens ∈ oaiStreamHandler usage info [last] := by
  have hfirst : oaiStreamHandler usage info [last] =
      (convertFirst last { info with usage := some usage }).1 := by
    simp [oaiStreamHandler, handleFinalResponse, streamResponseOpenAI2Claude, hdone, hcount]
  rw [hfirst]
  obtain ⟨id, model, inputTokens, body, _, hcases⟩ :=
    convertFirst_cases last { info with usage := some usage } hdone
  refine ⟨id, model, inputTokens, ?_⟩
  rcases hcases with ⟨_, _, _, _, heq⟩ | ⟨_, _, ⟨_, heq⟩ | ⟨_, _, _, _, heq⟩⟩
  · rw [heq]
    exact List.mem_cons_self
  · rw [heq]
    exact List.mem_cons_self
  · rw [heq]
    exact List.mem_cons_self

/-- **The envelope of a Claude stream**: the events of a stream start the message once and close it
once, with a stop reason and a usage, exactly for the enveloped streams. -/
theorem claude_envelope (usage : OpenAIUsage) (estimatePromptTokens : ℤ)
    (chunks : List ChatCompletionsStreamResponse) :
    Envelope (oaiStreamHandler usage (initialInfo estimatePromptTokens) chunks) ↔
      Enveloped chunks := by
  rcases chunks with _ | ⟨first, _ | ⟨next, rest⟩⟩
  · simp [oaiStreamHandler, Envelope, Enveloped]
  · simp [not_envelope_single, Enveloped]
  · have hfirst := handleStreamFormat_first first (initialInfo estimatePromptTokens) rfl rfl
    have hevents : oaiStreamHandler usage (initialInfo estimatePromptTokens) (first :: next :: rest) =
        (convertFirst first ((initialInfo estimatePromptTokens).receive first)).1 ++
          oaiStreamHandler usage
            (convertFirst first ((initialInfo estimatePromptTokens).receive first)).2
            (next :: rest) := by
      simp only [oaiStreamHandler, hfirst]
    have husage : ((initialInfo estimatePromptTokens).receive first).usage = first.usage := by
      simp [ClaudeRelayInfo.receive, initialInfo]
    rw [hevents, Enveloped]
    obtain ⟨id, model, inputTokens, body, hbody, hcases⟩ :=
      convertFirst_cases first ((initialInfo estimatePromptTokens).receive first) rfl
    have hor : first.usage.or first.usage = first.usage := by cases first.usage <;> rfl
    rw [husage, hor] at hcases
    rcases hcases with ⟨hfinished, hgo, hkeep, hsent, heq⟩ | ⟨hfinished, hend, hcases⟩
    · -- the first chunk does not finish the message
      rw [hfinished, if_neg (by simp), heq, List.cons_append, envelope_cons]
      have hcount : (convertFirst first
          ((initialInfo estimatePromptTokens).receive first)).2.sendResponseCount = 1 := hsent
      cases rest with
      | nil =>
        obtain ⟨id', model', inputTokens', hmem⟩ := start_mem_second usage next hgo
          hcount
        simp only [ne_eq, not_true_eq_false, false_and, iff_false]
        rintro ⟨_, hclosed⟩
        exact not_start_of_closed hclosed (List.mem_append_right body hmem)
      | cons third rest =>
        have hlater := later_events usage (next :: third :: rest) hgo (by omega) (by
          rw [hcount]
          simp only [List.length_cons]
          omega)
        rw [hkeep] at hlater
        rcases hlater with ⟨hcloses, hclosed⟩ | ⟨hcloses, hblocks⟩
        · simp only [hcloses, ne_eq, reduceCtorEq, not_false_eq_true, and_self, iff_true]
          exact ⟨⟨id, model, inputTokens, rfl⟩, hclosed.append hbody⟩
        · simp only [hcloses, Bool.false_eq_true, and_false, iff_false]
          rintro ⟨_, hclosed⟩
          exact not_closed_of_blocks (allBlocks_append.2 ⟨hbody, hblocks⟩) hclosed
    · -- it does, and whatever comes after it is left out
      rw [hfinished, if_pos rfl, oaiStreamHandler_of_done hend, List.append_nil]
      rcases hcases with ⟨hnone, heq⟩ | ⟨hsome, stopReason, usage', hreason, heq⟩
      · rw [heq, envelope_cons, hnone]
        simp only [Bool.false_eq_true, iff_false]
        rintro ⟨_, body', stopReason, usage', heq', hbody', _⟩
        have hmem : ClaudeEvent.messageDelta stopReason usage' ∈
            body ++ [ClaudeEvent.messageStop] := by
          rw [heq']
          simp [closing]
        rcases List.mem_append.1 hmem with hmem | hmem
        · exact absurd (hbody _ hmem) (by simp [ClaudeEvent.isBlock])
        · simp at hmem
      · rw [heq, envelope_cons, hsome]
        simp only [iff_true]
        exact ⟨⟨id, model, inputTokens, rfl⟩, body, stopReason, usage', rfl, hbody, hreason⟩

/-! ### A stream that is not closed -/

/-- A chunk with one choice. -/
def textChunk (content : String) (finishReason : Option String) : ChatCompletionsStreamResponse where
  id := "chatcmpl-1"
  model := "gpt-4o"
  choices := [⟨⟨some content, none, none, []⟩, finishReason⟩]
  usage := none

/-- **A stream whose last chunk has the finish reason is never closed**: the converter waits for a
chunk with a usage, and the usage of the request, which comes with the last chunk, does not count.
The events end inside a block. -/
theorem finish_chunk_never_closes :
    oaiStreamHandler ⟨10, 2, 0, 0, 0, 0⟩ (initialInfo 10)
      [textChunk "" none, textChunk "Hello" none, textChunk "" (some "stop")] =
      [.messageStart "chatcmpl-1" "gpt-4o" 10, .contentBlockStart 0 .text,
        .contentBlockDelta 0 (.textDelta "Hello")] ∧
    ¬ Envelope (oaiStreamHandler ⟨10, 2, 0, 0, 0, 0⟩ (initialInfo 10)
      [textChunk "" none, textChunk "Hello" none, textChunk "" (some "stop")]) := by
  have hevents : oaiStreamHandler ⟨10, 2, 0, 0, 0, 0⟩ (initialInfo 10)
      [textChunk "" none, textChunk "Hello" none, textChunk "" (some "stop")] =
      [.messageStart "chatcmpl-1" "gpt-4o" 10, .contentBlockStart 0 .text,
        .contentBlockDelta 0 (.textDelta "Hello")] := by decide
  refine ⟨hevents, ?_⟩
  rw [hevents, envelope_cons]
  rintro ⟨_, hclosed⟩
  exact not_closed_of_blocks (by simp) hclosed

end NewApi
