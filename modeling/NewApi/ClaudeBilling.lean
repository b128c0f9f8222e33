/-
**What is billed for an answer of a Claude upstream.**

A message that is not streamed carries its usage.  In a stream the usage comes in two parts: the start
of the message has a first one, and the delta at the end the final one, of which a field that is not
positive leaves the first one standing.  If no completion tokens have come in by the end, they are
estimated from the text.  The searches of the web that a message was charged for are noted in the
context of the request, where the surcharge is read, by the handler of whole messages alone.

Main definitions:

* `NewApi.formatClaudeResponseInfo`, `NewApi.claudeStreamHandler` — the usage of a stream;
* `NewApi.claudeHandler` — the usage of a message that is not streamed;
* `NewApi.Splits` — a usage that comes in two parts;
* `NewApi.BilledAlike` — the messages that are billed the same way.

Main results:

* `NewApi.claude_billing` — **the billed quantities agree on exactly these messages**;
* `NewApi.web_search_is_free` — a search of the web in a stream.
-/

import NewApi.ClaudeResponse

set_option autoImplicit false

namespace NewApi

/-! ### Usage -/

/-- The fields of a usage that billing reads. -/
structure Usage where
  promptTokens : ℤ := 0
  completionTokens : ℤ := 0
  totalTokens : ℤ := 0
  cachedTokens : ℤ := 0
  cachedCreationTokens : ℤ := 0
  claudeCacheCreation5mTokens : ℤ := 0
  claudeCacheCreation1hTokens : ℤ := 0
  usageSemantic : String := ""
deriving DecidableEq, Repr

namespace ClaudeMessageUsage

def getCacheCreation5mTokens (u : ClaudeMessageUsage) : ℤ :=
  (u.cacheCreation.map fun split => split.ephemeral5mInputTokens).getD 0

def getCacheCreation1hTokens (u : ClaudeMessageUsage) : ℤ :=
  (u.cacheCreation.map fun split => split.ephemeral1hInputTokens).getD 0

/-- The searches of the web, none if the server's tools are not mentioned. -/
def webSearchRequests (u : ClaudeMessageUsage) : ℤ :=
  (u.serverToolUse.map fun tools => tools.webSearchRequests).getD 0

end ClaudeMessageUsage

/-- What is read of a request when it is billed: its usage, and the searches in its context. -/
structure BilledRequest where
  usage : Usage
  claudeWebSearchRequests : ℤ
deriving DecidableEq, Repr

/-! ### The handlers -/

/-- The format of the client's request. -/
inductive RelayFormat where
  | openAI
  | claude
deriving DecidableEq, Repr

structure ClaudeResponseInfo where
  responseText : String := ""
  usage : Usage := {}
  done : Bool := false
deriving DecidableEq, Repr

/-- The text of a delta that is counted. -/
def BlockDelta.counted : BlockDelta → String
  | .textDelta s => s
  | .thinkingDelta s => s
  | .signatureDelta | .inputJsonDelta _ => ""

/-- A value that has come in, unless it is not positive. -/
def latest (value kept : ℤ) : ℤ := if 0 < value then value else kept

def formatClaudeResponseInfo (claudeInfo : ClaudeResponseInfo) :
    ClaudeStreamResponse → ClaudeResponseInfo
  | .messageStart _ _ (some u) =>
    { claudeInfo with
      usage := { claudeInfo.usage with
        promptTokens := u.inputTokens
        usageSemantic := "anthropic"
        cachedTokens := u.cacheReadInputTokens
        cachedCreationTokens := u.cacheCreationInputTokens
        claudeCacheCreation5mTokens := u.getCacheCreation5mTokens
        claudeCacheCreation1hTokens := u.getCacheCreation1hTokens
        completionTokens := u.outputTokens } }
  | .contentBlockDelta _ delta =>
    { claudeInfo with responseText := claudeInfo.responseText ++ delta.counted }
  | .messageDelta _ (some u) =>
    let promptTokens := latest u.inputTokens claudeInfo.usage.promptTokens
    let completionTokens := latest u.outputTokens claudeInfo.usage.completionTokens
    { claudeInfo with
      usage :=
        { promptTokens := promptTokens
          completionTokens := completionTokens
          totalTokens := promptTokens + completionTokens
          cachedTokens := latest u.cacheReadInputTokens claudeInfo.usage.cachedTokens
          cachedCreationTokens :=
            latest u.cacheCreationInputTokens claudeInfo.usage.cachedCreationTokens
          claudeCacheCreation5mTokens :=
            latest u.getCacheCreation5mTokens claudeInfo.usage.claudeCacheCreation5mTokens
          claudeCacheCreation1hTokens :=
            latest u.getCacheCreation1hTokens claudeInfo.usage.claudeCacheCreation1hTokens
          usageSemantic := "anthropic" }
      done := true }
  | .messageDelta _ none => { claudeInfo with done := true }
  | _ => claudeInfo

section Handlers

variable (estimateTokenByModel : String → String → ℤ) (format : RelayFormat)

/-- The state of the handler and the upstream's name of the model after an event. -/
def handleStreamResponseData (state : ClaudeResponseInfo × String) (e : ClaudeStreamResponse) :
    ClaudeResponseInfo × String :=
  (formatClaudeResponseInfo state.1 e,
    match format, e with
    | .claude, .messageStart _ model _ => model
    | _, _ => state.2)

/-- The usage at the end of a stream, with what is missing estimated. -/
def handleStreamFinalResponse (upstreamModelName : String) (estimatePromptTokens : ℤ)
    (claudeInfo : ClaudeResponseInfo) : Usage :=
  let usage := claudeInfo.usage
  let usage :=
    if usage.completionTokens = 0 ∨ claudeInfo.done = false then
      let fallback := estimateTokenByModel upstreamModelName claudeInfo.responseText
      let completionTokens :=
        if usage.completionTokens = 0 ∨
            (claudeInfo.done = false ∧ usage.completionTokens < fallback) then fallback
        else usage.completionTokens
      let promptTokens :=
        if usage.promptTokens = 0 then estimatePromptTokens else usage.promptTokens
      { usage with
        completionTokens := completionTokens
        promptTokens := promptTokens
        totalTokens := promptTokens + completionTokens }
    else usage
  { usage with usageSemantic := "anthropic" }

/-- What is billed for a stream. -/
def claudeStreamHandler (upstreamModelName : String) (estimatePromptTokens : ℤ)
    (es : List ClaudeStreamResponse) : BilledRequest :=
  let state := es.foldl (handleStreamResponseData format) ({}, upstreamModelName)
  { usage := handleStreamFinalResponse estimateTokenByModel state.2 estimatePromptTokens state.1
    claudeWebSearchRequests := 0 }

end Handlers

/-- What is billed for a message that is not streamed. -/
def claudeHandler : Option ClaudeMessageUsage → BilledRequest
  | none => { usage := {}, claudeWebSearchRequests := 0 }
  | some u =>
    { usage :=
        { promptTokens := u.inputTokens
          completionTokens := u.outputTokens
          totalTokens := u.inputTokens + u.outputTokens
          usageSemantic := "anthropic"
          cachedTokens := u.cacheReadInputTokens
          cachedCreationTokens := u.cacheCreationInputTokens
          claudeCacheCreation5mTokens := u.getCacheCreation5mTokens
          claudeCacheCreation1hTokens := u.getCacheCreation1hTokens }
      claudeWebSearchRequests := if 0 < u.webSearchRequests then u.webSearchRequests else 0 }

/-! ### A usage in two parts -/

/-- The counts of a usage. -/
def ClaudeMessageUsage.counts (u : ClaudeMessageUsage) : List ℤ :=
  [u.inputTokens, u.outputTokens, u.cacheReadInputTokens, u.cacheCreationInputTokens,
    u.getCacheCreation5mTokens, u.getCacheCreation1hTokens, u.webSearchRequests]

/-- The delta gives each count, or leaves it out when the start has given it. -/
def Splits (final start delta : ClaudeMessageUsage) : Prop :=
  ∀ c ∈ final.counts.zip (start.counts.zip delta.counts),
    c.2.2 = c.1 ∨ (c.2.2 = 0 ∧ c.2.1 = c.1)

/-- The text of a stream that is counted. -/
def countedText (body : List ClaudeStreamResponse) : String :=
  String.join (body.map fun
    | .contentBlockDelta _ delta => delta.counted
    | _ => "")

/-- The searches of the web aside, a message is billed alike if its start does not give a count that
is zero in the end, and nothing is estimated for an answer without completion tokens. -/
structure BilledAlike (final start : ClaudeMessageUsage) (completionEstimate promptEstimate : ℤ) :
    Prop where
  webSearch : final.webSearchRequests = 0
  input : final.inputTokens = 0 → start.inputTokens = 0
  output : final.outputTokens = 0 → start.outputTokens = 0
  cacheRead : final.cacheReadInputTokens = 0 → start.cacheReadInputTokens = 0
  cacheCreation : final.cacheCreationInputTokens = 0 → start.cacheCreationInputTokens = 0
  cacheCreation5m : final.getCacheCreation5mTokens = 0 → start.getCacheCreation5mTokens = 0
  cacheCreation1h : final.getCacheCreation1hTokens = 0 → start.getCacheCreation1hTokens = 0
  estimate : final.outputTokens = 0 → completionEstimate = 0 ∧
    (final.inputTokens = 0 → promptEstimate = 0)

/-! ### The stream is billed as the message -/

/-- A count of two parts is the final one unless that is zero and the first is not. -/
theorem latest_eq_iff {final start delta : ℤ} (hfinal : 0 ≤ final)
    (hsplit : delta = final ∨ (delta = 0 ∧ start = final)) :
    latest delta start = final ↔ (final = 0 → start = 0) := by
  unfold latest
  split
  · omega
  · omega

/-- An event between the start and the delta of a message. -/
def ClaudeStreamResponse.isBody (e : ClaudeStreamResponse) : Bool :=
  e.isBlock || e = .ping

/-- The body of a message adds to its text. -/
theorem foldl_body (format : RelayFormat) {body : List ClaudeStreamResponse}
    (hbody : ∀ e ∈ body, e.isBody = true) (claudeInfo : ClaudeResponseInfo) (model : String) :
    body.foldl (handleStreamResponseData format) (claudeInfo, model) =
      ({ claudeInfo with responseText := claudeInfo.responseText ++ countedText body }, model) := by
  induction body generalizing claudeInfo with
  | nil => simp [countedText]
  | cons e rest ih =>
    have hrest : ∀ e' ∈ rest, e'.isBody = true := fun e' he' =>
      hbody e' (List.mem_cons_of_mem _ he')
    have hhead := hbody e List.mem_cons_self
    rw [List.foldl_cons]
    cases e with
    | contentBlockDelta index delta =>
      have hstep : handleStreamResponseData format (claudeInfo, model)
          (.contentBlockDelta index delta) =
          ({ claudeInfo with responseText := claudeInfo.responseText ++ delta.counted }, model) := by
        cases format <;> rfl
      have hcounted : countedText (.contentBlockDelta index delta :: rest) =
          delta.counted ++ countedText rest := String.join_cons
      rw [hstep, ih hrest, hcounted, ← String.append_assoc]
    | contentBlockStart index block =>
      have hcounted : countedText (.contentBlockStart index block :: rest) = countedText rest :=
        String.join_cons.trans String.empty_append
      have hstep : handleStreamResponseData format (claudeInfo, model)
          (.contentBlockStart index block) = (claudeInfo, model) := by
        cases format <;> rfl
      rw [hstep, ih hrest, hcounted]
    | contentBlockStop index =>
      have hcounted : countedText (.contentBlockStop index :: rest) = countedText rest :=
        String.join_cons.trans String.empty_append
      have hstep : handleStreamResponseData format (claudeInfo, model)
          (.contentBlockStop index) = (claudeInfo, model) := by
        cases format <;> rfl
      rw [hstep, ih hrest, hcounted]
    | ping =>
      have hcounted : countedText (.ping :: rest) = countedText rest :=
        String.join_cons.trans String.empty_append
      have hstep : handleStreamResponseData format (claudeInfo, model) .ping =
          (claudeInfo, model) := by
        cases format <;> rfl
      rw [hstep, ih hrest, hcounted]
    | messageStart id model usage => cases hhead
    | messageDelta stopReason usage => cases hhead
    | messageStop => cases hhead

/-- The model by whose name the text is counted. -/
def countedModel (format : RelayFormat) (upstreamModelName model : String) : String :=
  match format with
  | .openAI => upstreamModelName
  | .claude => model

/-- **A stream is billed as the message it encodes** exactly if the message is one of those that are
billed alike. -/
theorem claude_billing (estimateTokenByModel : String → String → ℤ) (format : RelayFormat)
    (upstreamModelName id model : String) (estimatePromptTokens : ℤ) (stopReason : Option String)
    (final start delta : ClaudeMessageUsage) (body : List ClaudeStreamResponse)
    (hfinal : ∀ c ∈ final.counts, 0 ≤ c) (hstart : ∀ c ∈ start.counts, 0 ≤ c)
    (hsplit : Splits final start delta) (hbody : ∀ e ∈ body, e.isBody = true) :
    claudeStreamHandler estimateTokenByModel format upstreamModelName estimatePromptTokens
        (.messageStart id model (some start) ::
          (body ++ [ClaudeStreamResponse.messageDelta stopReason (some delta), .messageStop])) =
        claudeHandler (some final) ↔
      BilledAlike final start
        (estimateTokenByModel (countedModel format upstreamModelName model) (countedText body))
        estimatePromptTokens := by
  simp only [ClaudeMessageUsage.counts, List.forall_mem_cons, List.not_mem_nil, false_implies,
    implies_true, and_true] at hfinal hstart
  simp only [Splits, ClaudeMessageUsage.counts, List.zip_cons_cons, List.zip_nil_left,
    List.forall_mem_cons, List.not_mem_nil, false_implies, implies_true, and_true] at hsplit
  obtain ⟨hinput, houtput, hread, hcreation, h5m, h1h, hweb⟩ := hfinal
  obtain ⟨hinput', houtput', -, -, -, -, -⟩ := hstart
  obtain ⟨dinput, doutput, dread, dcreation, d5m, d1h, -⟩ := hsplit
  have einput := latest_eq_iff hinput dinput
  have eoutput := latest_eq_iff houtput doutput
  have eread := latest_eq_iff hread dread
  have ecreation := latest_eq_iff hcreation dcreation
  have e5m := latest_eq_iff h5m d5m
  have e1h := latest_eq_iff h1h d1h
  -- the state at the end of the stream
  have hmodel : (match format, ClaudeStreamResponse.messageStart id model (some start) with
      | .claude, .messageStart _ model _ => model
      | _, _ => upstreamModelName) = countedModel format upstreamModelName model := by
    cases format <;> rfl
  simp only [claudeStreamHandler, List.foldl_cons, List.foldl_append, handleStreamResponseData,
    hmodel]
  rw [foldl_body format hbody]
  simp only [List.foldl_nil, formatClaudeResponseInfo, String.empty_append]
  simp only [handleStreamFinalResponse, claudeHandler, BilledRequest.mk.injEq]
  generalize estimateTokenByModel (countedModel format upstreamModelName model)
    (countedText body) = completionEstimate
  generalize hp : latest delta.inputTokens start.inputTokens = promptTokens at einput
  generalize hc : latest delta.outputTokens start.outputTokens = completionTokens at eoutput
  have hsearch : (0 = if 0 < final.webSearchRequests then final.webSearchRequests else 0) ↔
      final.webSearchRequests = 0 := by
    split <;> omega
  rw [hsearch]
  by_cases hzero : completionTokens = 0
  · -- the completion tokens are estimated
    simp only [hzero, true_or, if_true, Usage.mk.injEq, eread, ecreation, e5m, e1h, and_true]
    constructor
    · rintro ⟨⟨hprompt, hcompletion, -, h1, h2, h3, h4⟩, hsearch⟩
      refine ⟨hsearch, ?_, ?_, h1, h2, h3, h4, ?_⟩
      · refine einput.1 ?_
        split at hprompt
        · rename_i hmissing
          unfold latest at hp
          split at hp <;> omega
        · exact hprompt
      · refine eoutput.1 ?_
        unfold latest at hc
        split at hc <;> omega
      · intro hout
        refine ⟨by omega, fun hin => ?_⟩
        split at hprompt
        · omega
        · omega
    · rintro ⟨hsearch, h0, hout, h1, h2, h3, h4, hestimate⟩
      have hp' := einput.2 h0
      have hc' := eoutput.2 hout
      obtain ⟨hcompletion, hprompt⟩ := hestimate (by omega)
      refine ⟨⟨?_, by omega, ?_, h1, h2, h3, h4⟩, hsearch⟩
      · split
        · rename_i hmissing
          have hin := hprompt (by omega)
          omega
        · exact hp'
      · split
        · rename_i hmissing
          have hin := hprompt (by omega)
          omega
        · omega
  · have hgo : ¬ (completionTokens = 0 ∨ true = false) := by simp [hzero]
    rw [if_neg hgo]
    simp only [Usage.mk.injEq, einput, eoutput, eread, ecreation, e5m, e1h, and_true]
    constructor
    · rintro ⟨⟨h0, hout, -, h1, h2, h3, h4⟩, hsearch⟩
      refine ⟨hsearch, h0, hout, h1, h2, h3, h4, fun hfinal => ?_⟩
      have hc' := eoutput.2 hout
      omega
    · rintro ⟨hsearch, h0, hout, h1, h2, h3, h4, -⟩
      have hp' := einput.2 h0
      have hc' := eoutput.2 hout
      exact ⟨⟨h0, hout, by omega, h1, h2, h3, h4⟩, hsearch⟩

/-- A usage without a split of the cache. -/
def plainUsage (inputTokens outputTokens webSearchRequests : ℤ) : ClaudeMessageUsage where
  inputTokens := inputTokens
  outputTokens := outputTokens
  cacheCreationInputTokens := 0
  cacheReadInputTokens := 0
  cacheCreation := none
  serverToolUse := some ⟨webSearchRequests⟩

/-- An answer of nine tokens to a question of seven, the first of which comes in with the start. -/
theorem claude_billing_plain :
    claudeStreamHandler (fun _ text => text.length) .openAI "claude" 0
        [.messageStart "msg_1" "claude" (some (plainUsage 7 1 0)),
          .contentBlockDelta 0 (.textDelta "four"), .messageDelta none (some (plainUsage 0 9 0)),
          .messageStop] =
      claudeHandler (some (plainUsage 7 9 0)) :=
  (claude_billing (fun _ text => text.length) .openAI "claude" "msg_1" "claude" 0 none
    (plainUsage 7 9 0) (plainUsage 7 1 0) (plainUsage 0 9 0)
    [.contentBlockDelta 0 (.textDelta "four")] (by decide) (by decide)
    (by unfold Splits; decide) (by decide)).2
    ⟨by decide, by decide, by decide, by decide, by decide, by decide, by decide, by decide⟩

/-- **A search of the web in a stream**: the message is charged for two searches, its stream for
none. -/
theorem web_search_is_free :
    let es : List ClaudeStreamResponse :=
      [.messageStart "msg_1" "claude" (some (plainUsage 7 1 0)),
        .messageDelta none (some (plainUsage 7 9 2)), .messageStop]
    (claudeHandler (some (plainUsage 7 9 2))).claudeWebSearchRequests = 2 ∧
      (claudeStreamHandler (fun _ text => text.length) .openAI "claude" 0 es).claudeWebSearchRequests =
        0 ∧
      claudeStreamHandler (fun _ text => text.length) .openAI "claude" 0 es ≠
        claudeHandler (some (plainUsage 7 9 2)) := by
  decide

end NewApi
