/-
**A chat stream that is passed on.**

A client and an upstream that speak the same format need no conversion: the data of every event is
sent on as it has come in.  It is sent one event late, because what happens to the last event depends
on what is in it.  If it reports a usage the client has not asked for, it is sent on only for its text
or its reasoning; and if the client has asked for a usage that the upstream has not reported, an event
with an estimate follows.  At the end there is the marker.

How the data is decoded and how tokens are estimated is left open.

Main definitions:

* `NewApi.StreamTools`, `NewApi.StreamSettings` — what is left open, and the settings of the request;
* `NewApi.OpenAIFormat.oaiStreamHandler` — the handler.

Main results:

* `NewApi.OpenAIFormat.oai_stream_relays` — **everything is sent on, in order, but perhaps the last
  event**;
* `NewApi.OpenAIFormat.stream_not_exact` — an event with a finish reason that is not sent on, and an
  event that is added.
-/

import NewApi.ClaudeStream
import NewApi.StreamScanner

set_option autoImplicit false

namespace NewApi

/-! ### Requests -/

/-- A chunk with the fields that an event with the usage repeats. -/
structure StreamChunk extends ChatCompletionsStreamResponse where
  created : ℤ
  systemFingerprint : String
deriving DecidableEq, Repr

/-- The event with the usage, which has no choices. -/
structure FinalUsageResponse where
  id : String
  created : ℤ
  model : String
  systemFingerprint : String
  usage : OpenAIUsage
deriving DecidableEq, Repr

/-- What is written to the client: data, or a response that is encoded. -/
inductive StreamEvent where
  | stringData (data : String)
  | objectData (response : FinalUsageResponse)
deriving DecidableEq, Repr

inductive RelayMode where
  | chatCompletions
  | completions
  | other
deriving DecidableEq, Repr

structure StreamSettings where
  relayMode : RelayMode
  upstreamModelName : String
  estimatePromptTokens : ℤ
  shouldIncludeUsage : Bool
  forceFormat : Bool
  thinkingToContent : Bool
deriving DecidableEq, Repr

/-- The decoding of data, as a chunk, as the texts of a completion, or only for its usage; the
estimate of tokens; the usage with the counts a channel reports elsewhere; and what is sent for data
that is to be changed.  Nothing is not a chunk. -/
structure StreamTools where
  chunk : String → Option StreamChunk
  completion : String → Option (List String)
  usageOnly : String → Option (Option OpenAIUsage)
  estimateTokenByModel : String → String → ℤ
  applyUsagePostProcessing : OpenAIUsage → String → OpenAIUsage
  reformat : String → List StreamEvent
  chunk_empty : chunk "" = none

/-- One of the counts is there. -/
def validUsage (usage : Option OpenAIUsage) : Bool :=
  usage.any fun u => u.promptTokens ≠ 0 || u.completionTokens ≠ 0

namespace OpenAIFormat

/-! ### The handler -/

/-- The text of a request and the greatest number of tool calls in a chunk. -/
structure TokenData where
  responseText : String := ""
  toolCount : ℕ := 0
deriving DecidableEq, Repr

def processStreamResponse (chunk : StreamChunk) (t : TokenData) : TokenData :=
  chunk.choices.foldl (fun (t : TokenData) choice =>
    { responseText := t.responseText ++ choice.delta.getContentString ++
        choice.delta.getReasoningContent ++
        String.join (choice.delta.toolCalls.map fun tool => tool.name ++ tool.arguments)
      toolCount := max t.toolCount choice.delta.toolCalls.length }) t

section Handler

variable (tools : StreamTools) (settings : StreamSettings)

/-- Data that cannot be decoded is not counted. -/
def processTokenData (data : String) (t : TokenData) : TokenData :=
  match settings.relayMode with
  | .chatCompletions => ((tools.chunk data).map fun chunk => processStreamResponse chunk t).getD t
  | .completions =>
    ((tools.completion data).map fun texts =>
      { t with responseText := t.responseText ++ String.join texts }).getD t
  | .other => t

def sendStreamData (data : String) : List StreamEvent :=
  if data = "" then []
  else if settings.forceFormat = false ∧ settings.thinkingToContent = false then [.stringData data]
  else tools.reformat data

structure OaiStreamState where
  sent : List StreamEvent := []
  lastStreamData : String := ""
  secondLastStreamData : String := ""
  tokens : TokenData := {}
deriving DecidableEq, Repr

/-- The model works with audio. -/
def isAudioModel : Bool := contains (toLower settings.upstreamModelName) "audio"

/-- New data has come in, and the data before it is sent on. -/
def receive (s : OaiStreamState) (data : String) : OaiStreamState :=
  let s :=
    if s.lastStreamData = "" then s
    else { s with sent := s.sent ++ sendStreamData tools settings s.lastStreamData }
  if data = "" then s
  else
    { s with
      secondLastStreamData :=
        if isAudioModel settings ∧ s.lastStreamData ≠ "" then s.lastStreamData
        else s.secondLastStreamData
      lastStreamData := data
      tokens := processTokenData tools settings data s.tokens }

/-- What is known after the last event. -/
structure LastResponse where
  responseId : String
  createAt : ℤ
  systemFingerprint : String
  model : String
  usage : Option OpenAIUsage
  shouldSendLastResp : Bool
deriving DecidableEq, Repr

/-- The usage that an audio model reports in the last event but one. -/
def secondLastUsage (s : OaiStreamState) : Option OpenAIUsage :=
  if isAudioModel settings ∧ s.secondLastStreamData ≠ "" then
    ((tools.usageOnly s.secondLastStreamData).join).filter fun usage => validUsage (some usage)
  else none

/-- The last event is read.  `usage` has been reported before it. -/
def handleLastResponse (lastStreamData : String) (usage : Option OpenAIUsage) : LastResponse :=
  match tools.chunk lastStreamData with
  | none => ⟨"", 0, "", settings.upstreamModelName, usage, true⟩
  | some chunk =>
    if validUsage chunk.usage then
      ⟨chunk.id, chunk.created, chunk.systemFingerprint, chunk.model, chunk.usage,
        settings.shouldIncludeUsage || chunk.choices.any fun choice =>
          choice.delta.getContentString ≠ "" || choice.delta.getReasoningContent ≠ ""⟩
    else ⟨chunk.id, chunk.created, chunk.systemFingerprint, chunk.model, usage, true⟩

/-- The usage by the text that has been counted. -/
def responseText2Usage (tokens : TokenData) : OpenAIUsage where
  promptTokens := settings.estimatePromptTokens
  completionTokens := tools.estimateTokenByModel settings.upstreamModelName tokens.responseText +
    tokens.toolCount * 7
  cachedTokens := 0
  cachedCreationTokens := 0
  claudeCacheCreation5mTokens := 0
  claudeCacheCreation1hTokens := 0

/-- The end of the stream: the usage, if the client has asked for it and it has not been reported, and
the marker. -/
def handleFinalResponse (last : LastResponse) (usage : OpenAIUsage) : List StreamEvent :=
  (if settings.shouldIncludeUsage && last.usage.isNone then
    [.objectData ⟨last.responseId, last.createAt, last.model, last.systemFingerprint, usage⟩]
  else []) ++ [StreamEvent.stringData "[DONE]"]

/-- What is written for the events `chunks`, and the usage. -/
def oaiStreamHandler (chunks : List String) : List StreamEvent × OpenAIUsage :=
  let s := chunks.foldl (receive tools settings) {}
  let last := handleLastResponse tools settings s.lastStreamData (secondLastUsage tools settings s)
  let sent :=
    if last.shouldSendLastResp then sendStreamData tools settings s.lastStreamData else []
  let usage := tools.applyUsagePostProcessing
    (last.usage.getD (responseText2Usage tools settings s.tokens)) s.lastStreamData
  (s.sent ++ sent ++ handleFinalResponse settings last usage, usage)

end Handler

/-! ### What is sent on -/

section Relay

variable (tools : StreamTools) (settings : StreamSettings)

/-- The data is that of an event of a stream. -/
def IsEvent (data : String) : Prop := ∃ line, scanLine line = .event data

/-- The event reports a usage that the client has not asked for, and carries neither text nor
reasoning. -/
def MayBeLeftOut (data : String) : Prop :=
  settings.shouldIncludeUsage = false ∧ ∃ chunk, tools.chunk data = some chunk ∧
    validUsage chunk.usage = true ∧ ∀ choice ∈ chunk.choices,
      choice.delta.getContentString = "" ∧ choice.delta.getReasoningContent = ""

/-- A usage is reported by the last event or, if the model works with audio, by the last but one. -/
def reportsUsage (chunks : List String) : Bool :=
  (chunks.getLast?.bind tools.chunk).any (fun chunk => validUsage chunk.usage) ||
    (isAudioModel settings &&
      validUsage ((chunks.dropLast.getLast?.bind tools.usageOnly).join))

variable {data : String} {chunks : List String}

/-- An event has data, and is not the marker. -/
theorem IsEvent.ne (h : IsEvent data) : data ≠ "" ∧ data ≠ "[DONE]" := by
  obtain ⟨line, hline⟩ := h
  unfold scanLine at hline
  split_ifs at hline with hshort hneither
  simp only at hline
  split_ifs at hline with hempty hdone
  obtain rfl : trimSpace (dropChars 5 line) = data := by simpa using hline
  refine ⟨hempty, fun hmarker => ?_⟩
  rw [hmarker] at hdone
  exact hdone (by decide)

/-- What has been sent, with the data that is still held back. -/
def pending (s : OaiStreamState) : List StreamEvent :=
  s.sent ++ sendStreamData tools settings s.lastStreamData

variable {tools settings}

theorem sendStreamData_plain (hforce : settings.forceFormat = false)
    (hthink : settings.thinkingToContent = false) (hdata : data ≠ "") :
    sendStreamData tools settings data = [.stringData data] := by
  simp [sendStreamData, hforce, hthink, hdata]

theorem receive_lastStreamData (s : OaiStreamState) (hdata : data ≠ "") :
    (receive tools settings s data).lastStreamData = data := by
  simp [receive, hdata]

/-- New data is added to what is sent or held back. -/
theorem receive_pending (hforce : settings.forceFormat = false)
    (hthink : settings.thinkingToContent = false) (s : OaiStreamState) (hdata : data ≠ "") :
    pending tools settings (receive tools settings s data)
      = pending tools settings s ++ [StreamEvent.stringData data] := by
  have hsent : (receive tools settings s data).sent = pending tools settings s := by
    by_cases hlast : s.lastStreamData = ""
    · simp [receive, pending, hdata, hlast, sendStreamData]
    · simp [receive, pending, hdata, hlast]
  rw [pending, hsent, receive_lastStreamData s hdata, sendStreamData_plain hforce hthink hdata]

theorem foldl_pending (hforce : settings.forceFormat = false)
    (hthink : settings.thinkingToContent = false) (hchunks : ∀ data ∈ chunks, data ≠ "")
    (s : OaiStreamState) :
    pending tools settings (chunks.foldl (receive tools settings) s)
      = pending tools settings s ++ chunks.map StreamEvent.stringData := by
  induction chunks generalizing s with
  | nil => simp
  | cons data rest ih =>
    obtain ⟨hdata, hrest⟩ := List.forall_mem_cons.1 hchunks
    rw [List.foldl_cons, ih hrest, receive_pending hforce hthink s hdata]
    simp

/-- The data that is held back is that of the last event. -/
theorem foldl_lastStreamData (hchunks : ∀ data ∈ chunks, data ≠ "") (s : OaiStreamState) :
    (chunks.foldl (receive tools settings) s).lastStreamData
      = chunks.getLast?.getD s.lastStreamData := by
  induction chunks generalizing s with
  | nil => rfl
  | cons data rest ih =>
    obtain ⟨hdata, hrest⟩ := List.forall_mem_cons.1 hchunks
    rw [List.foldl_cons, ih hrest, receive_lastStreamData s hdata]
    cases rest with
    | nil => rfl
    | cons next more => simp [List.getLast?_cons]

theorem receive_secondLastStreamData (haudio : isAudioModel settings = true) (s : OaiStreamState)
    (hdata : data ≠ "") :
    (receive tools settings s data).secondLastStreamData
      = if s.lastStreamData = "" then s.secondLastStreamData else s.lastStreamData := by
  by_cases hlast : s.lastStreamData = ""
  · simp [receive, hdata, hlast]
  · simp [receive, hdata, hlast, haudio]

/-- For audio the data before it is kept as well. -/
theorem foldl_secondLastStreamData (haudio : isAudioModel settings = true)
    (hchunks : ∀ data ∈ chunks, data ≠ "") :
    (chunks.foldl (receive tools settings) {}).secondLastStreamData
      = chunks.dropLast.getLast?.getD "" := by
  rcases List.eq_nil_or_concat chunks with rfl | ⟨init, last, rfl⟩
  · rfl
  · have hlast : last ≠ "" := hchunks last (by simp)
    have hinit : ∀ data ∈ init, data ≠ "" := fun data hdata => hchunks data (by simp [hdata])
    rw [List.concat_eq_append, List.foldl_append, List.dropLast_concat, List.foldl_cons,
      List.foldl_nil, receive_secondLastStreamData haudio _ hlast, foldl_lastStreamData hinit]
    rcases List.eq_nil_or_concat init with rfl | ⟨first, second, rfl⟩
    · rfl
    · have hsecond : second ≠ "" := hinit second (by simp)
      simp [hsecond]

theorem isSome_of_validUsage {usage : Option OpenAIUsage} (h : validUsage usage = true) :
    usage.isSome = true := by
  cases usage with
  | none => simp [validUsage] at h
  | some u => rfl

theorem secondLastUsage_isSome (hchunks : ∀ data ∈ chunks, data ≠ "") :
    (secondLastUsage tools settings (chunks.foldl (receive tools settings) {})).isSome
      = (isAudioModel settings &&
          validUsage ((chunks.dropLast.getLast?.bind tools.usageOnly).join)) := by
  cases haudio : isAudioModel settings with
  | false => simp [secondLastUsage, haudio]
  | true =>
    rw [secondLastUsage, foldl_secondLastStreamData haudio hchunks]
    cases hsecond : chunks.dropLast.getLast? with
    | none => simp [validUsage]
    | some data =>
      have hdata : data ≠ "" :=
        hchunks data (List.mem_of_mem_dropLast (List.mem_of_getLast? hsecond))
      cases hjoin : (tools.usageOnly data).join with
      | none => simp [hdata, haudio, hjoin, validUsage]
      | some usage =>
        cases hvalid : validUsage (some usage) <;>
          simp [hdata, haudio, hjoin, hvalid, Option.filter]

/-- The usage is known after the last event if it has been reported. -/
theorem handleLastResponse_usage (hchunks : ∀ data ∈ chunks, data ≠ "") :
    let s := chunks.foldl (receive tools settings) {}
    (handleLastResponse tools settings s.lastStreamData
      (secondLastUsage tools settings s)).usage.isSome = reportsUsage tools settings chunks := by
  intro s
  have hlast : s.lastStreamData = chunks.getLast?.getD "" := foldl_lastStreamData hchunks {}
  rw [hlast, reportsUsage, ← secondLastUsage_isSome hchunks]
  cases hget : chunks.getLast? with
  | none => simp [handleLastResponse, tools.chunk_empty, s]
  | some data =>
    cases hchunk : tools.chunk data with
    | none => simp [handleLastResponse, hchunk, s]
    | some chunk =>
      cases hvalid : validUsage chunk.usage with
      | false => simp [handleLastResponse, hchunk, hvalid, s]
      | true => simp [handleLastResponse, hchunk, hvalid, isSome_of_validUsage hvalid]

/-- The last event is not sent on if it may be left out. -/
theorem handleLastResponse_shouldSend (data : String) (usage : Option OpenAIUsage) :
    (handleLastResponse tools settings data usage).shouldSendLastResp = false ↔
      MayBeLeftOut tools settings data := by
  unfold handleLastResponse MayBeLeftOut
  cases tools.chunk data with
  | none => simp
  | some chunk =>
    cases hvalid : validUsage chunk.usage with
    | false => simp [hvalid]
    | true => simp [hvalid]

/-- What is written: all events but perhaps the last one, the usage and the marker. -/
theorem oaiStreamHandler_events (tools : StreamTools) (settings : StreamSettings)
    (hchunks : ∀ data ∈ chunks, data ≠ "") (hforce : settings.forceFormat = false)
    (hthink : settings.thinkingToContent = false) :
    ∃ relayed generated : List StreamEvent,
      (oaiStreamHandler tools settings chunks).1
        = relayed ++ generated ++ [StreamEvent.stringData "[DONE]"] ∧
      (relayed = chunks.map StreamEvent.stringData ∨ ∃ init last, chunks = init ++ [last] ∧
        relayed = init.map StreamEvent.stringData ∧ MayBeLeftOut tools settings last) ∧
      (if settings.shouldIncludeUsage = true ∧ reportsUsage tools settings chunks = false then
        ∃ response, generated = [.objectData response]
      else generated = []) := by
  have husage := @handleLastResponse_usage tools settings chunks hchunks
  have hpending := @foldl_pending tools settings chunks hforce hthink hchunks {}
  simp only [oaiStreamHandler, handleFinalResponse] at husage ⊢
  generalize chunks.foldl (receive tools settings) {} = s at husage hpending
  generalize hresponse : handleLastResponse tools settings s.lastStreamData
    (secondLastUsage tools settings s) = response at husage
  have hpending' : s.sent ++ sendStreamData tools settings s.lastStreamData
      = chunks.map StreamEvent.stringData := by
    simpa [pending, sendStreamData] using hpending
  refine ⟨_, _, (List.append_assoc _ _ _).symm, ?_, ?_⟩
  · cases hsend : response.shouldSendLastResp with
    | true => exact .inl (by simpa using hpending')
    | false =>
      rw [← hresponse, handleLastResponse_shouldSend] at hsend
      have hlast : s.lastStreamData ≠ "" := by
        intro hempty
        obtain ⟨_, chunk, hchunk, _⟩ := hsend
        rw [hempty, tools.chunk_empty] at hchunk
        simp at hchunk
      rw [sendStreamData_plain hforce hthink hlast] at hpending'
      rcases List.eq_nil_or_concat chunks with rfl | ⟨init, last, rfl⟩
      · simp at hpending'
      · rw [List.concat_eq_append, List.map_append, List.map_singleton] at hpending'
        obtain ⟨hsent, hheld⟩ := List.append_inj' hpending' rfl
        refine .inr ⟨init, last, List.concat_eq_append, by simpa using hsent, ?_⟩
        obtain rfl : s.lastStreamData = last := by simpa using hheld
        exact hsend
  · rw [← husage]
    cases settings.shouldIncludeUsage <;> cases response.usage <;> simp

/-- **A stream is passed on.**  The handler is called with the data of events, and nothing is to be
changed in it.  Then it writes the events in their order; the event with the usage if the client has
asked for it and it has not been reported; and the marker, once.  Of the events it leaves out at most
the last one: if this reports a usage, the client has not asked for it, and it carries neither text
nor reasoning. -/
theorem oai_stream_relays (tools : StreamTools) (settings : StreamSettings) (chunks : List String)
    (hchunks : ∀ data ∈ chunks, IsEvent data) (hforce : settings.forceFormat = false)
    (hthink : settings.thinkingToContent = false) :
    ∃ relayed generated : List StreamEvent,
      (oaiStreamHandler tools settings chunks).1
        = relayed ++ generated ++ [StreamEvent.stringData "[DONE]"] ∧
      (relayed = chunks.map StreamEvent.stringData ∨ ∃ init last, chunks = init ++ [last] ∧
        relayed = init.map StreamEvent.stringData ∧ MayBeLeftOut tools settings last) ∧
      (if settings.shouldIncludeUsage = true ∧ reportsUsage tools settings chunks = false then
        ∃ response, generated = [.objectData response]
      else generated = []) ∧
      (oaiStreamHandler tools settings chunks).1.count (.stringData "[DONE]") = 1 := by
  have hne : ∀ data ∈ chunks, data ≠ "" := fun data hdata => (hchunks data hdata).ne.1
  obtain ⟨relayed, generated, hevents, hrelayed, hgenerated⟩ :=
    oaiStreamHandler_events tools settings hne hforce hthink
  refine ⟨relayed, generated, hevents, hrelayed, hgenerated, ?_⟩
  have hrelayedMarker : relayed.count (.stringData "[DONE]") = 0 := by
    rw [List.count_eq_zero]
    intro hmem
    have hchunk : "[DONE]" ∈ chunks := by
      rcases hrelayed with rfl | ⟨init, last, rfl, rfl, _⟩
      · simpa using hmem
      · exact List.mem_append_left _ (by simpa using hmem)
    exact (hchunks _ hchunk).ne.2 rfl
  have hgeneratedMarker : generated.count (.stringData "[DONE]") = 0 := by
    split_ifs at hgenerated
    · obtain ⟨response, rfl⟩ := hgenerated
      simp
    · rw [hgenerated]
      rfl
  rw [hevents, List.count_append, List.count_append, hrelayedMarker, hgeneratedMarker]
  rfl

/-! ### Two short streams -/

/-- An event with a text. -/
def textData : String := "\x7b\"choices\":[\x7b\"delta\":\x7b\"content\":\"hi\"\x7d\x7d]\x7d"

/-- An event with a finish reason and a usage. -/
def finishData : String :=
  "\x7b\"choices\":[\x7b\"delta\":\x7b\x7d,\"finish_reason\":\"stop\"\x7d],\"usage\":" ++
    "\x7b\"prompt_tokens\":1,\"completion_tokens\":1\x7d\x7d"

def textChunk : StreamChunk where
  id := ""
  model := ""
  choices := [⟨⟨some "hi", none, none, []⟩, none⟩]
  usage := none
  created := 0
  systemFingerprint := ""

def finishChunk : StreamChunk where
  id := ""
  model := ""
  choices := [⟨⟨none, none, none, []⟩, some "stop"⟩]
  usage := some ⟨1, 1, 0, 0, 0, 0⟩
  created := 0
  systemFingerprint := ""

/-- The decoding of these two; a token is estimated for each text. -/
def plainTools : StreamTools where
  chunk data :=
    if data = textData then some textChunk else if data = finishData then some finishChunk else none
  completion _ := none
  usageOnly _ := none
  estimateTokenByModel _ _ := 1
  applyUsagePostProcessing usage _ := usage
  reformat _ := []
  chunk_empty := by decide

/-- A client that has not asked for the usage. -/
def plainStream : StreamSettings where
  relayMode := .chatCompletions
  upstreamModelName := "model"
  estimatePromptTokens := 1
  shouldIncludeUsage := false
  forceFormat := false
  thinkingToContent := false

theorem isEvent_plain : ∀ data ∈ [textData, finishData], IsEvent data := by
  intro data hdata
  refine ⟨"data: " ++ data, ?_⟩
  revert data
  decide +kernel

/-- The client has not asked for the usage: the event with the finish reason is not sent on.  It has
asked for it, and it is not reported: an event that has not come in is written. -/
theorem stream_not_exact :
    let asked := { plainStream with shouldIncludeUsage := true }
    (∀ data ∈ [textData, finishData], IsEvent data) ∧
      finishChunk.choices.map (·.finish) = ["stop"] ∧
      plainTools.chunk finishData = some finishChunk ∧
      (oaiStreamHandler plainTools plainStream [textData, finishData]).1
        = [.stringData textData, .stringData "[DONE]"] ∧
      (oaiStreamHandler plainTools asked [textData]).1
        = [.stringData textData, .objectData ⟨"", 0, "", "", ⟨1, 1, 0, 0, 0, 0⟩⟩,
          .stringData "[DONE]"] :=
  ⟨isEvent_plain, by decide +kernel, by decide +kernel, by decide +kernel, by decide +kernel⟩

/-- The marker at the end of a stream of two events. -/
theorem oai_stream_relays_two :
    (oaiStreamHandler plainTools plainStream [textData, finishData]).1.count
      (.stringData "[DONE]") = 1 := by
  obtain ⟨_, _, _, _, _, hmarker⟩ := oai_stream_relays plainTools plainStream
    [textData, finishData] isEvent_plain rfl rfl
  exact hmarker

end Relay

end OpenAIFormat

end NewApi
