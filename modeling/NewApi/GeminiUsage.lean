/-
**The usage that is made of Gemini's metadata.**

Gemini reports the tokens of the prompt, of its tools, of the candidates and of the thoughts, and a
total; any of them may be missing, and then counts as zero.  What is missing is made up from the
rest: the prompt from an estimate of the request, the completion from what the prompt leaves of the
total.  The two do not know of each other, so the estimate may be more than the total.  A stream that
ends without a usage is billed by its text; a response that comes whole is not.

Main definitions:

* `NewApi.buildUsageFromGeminiMetadata` — the usage that is made of metadata;
* `NewApi.geminiStreamUsage`, `NewApi.geminiChatUsage` — the usage of a stream, and of a response;
* `NewApi.SoundUsage` — what the usage is to be.

Main results:

* `NewApi.gemini_usage_sound` — **the usage is sound exactly under the condition**;
* `NewApi.estimate_beyond_total` — a negative number of tokens.
-/

import Mathlib.Algebra.BigOperators.Group.List.Basic
import Mathlib.Algebra.Ring.Int.Defs
import Mathlib.Data.Int.Basic

set_option autoImplicit false

namespace NewApi

/-! ### Metadata and usage -/

structure GeminiModalityTokenCount where
  modality : String
  tokenCount : ℤ
deriving DecidableEq, Repr

/-- The metadata of a response; what is missing is zero. -/
structure GeminiUsageMetadata where
  promptTokenCount : ℤ := 0
  toolUsePromptTokenCount : ℤ := 0
  candidatesTokenCount : ℤ := 0
  totalTokenCount : ℤ := 0
  thoughtsTokenCount : ℤ := 0
  cachedContentTokenCount : ℤ := 0
  promptTokensDetails : List GeminiModalityTokenCount := []
  toolUsePromptTokensDetails : List GeminiModalityTokenCount := []
  candidatesTokensDetails : List GeminiModalityTokenCount := []
deriving DecidableEq, Repr

structure GeminiUsage where
  promptTokens : ℤ := 0
  completionTokens : ℤ := 0
  totalTokens : ℤ := 0
  reasoningTokens : ℤ := 0
  cachedTokens : ℤ := 0
  promptAudioTokens : ℤ := 0
  promptTextTokens : ℤ := 0
  completionImageTokens : ℤ := 0
  completionAudioTokens : ℤ := 0
  completionTextTokens : ℤ := 0
deriving DecidableEq, Repr

/-- The tokens of one modality. -/
def modalityTokens (modality : String) (details : List GeminiModalityTokenCount) : ℤ :=
  ((details.filter fun detail => detail.modality = modality).map (·.tokenCount)).sum

def buildUsageFromGeminiMetadata (metadata : GeminiUsageMetadata) (fallbackPromptTokens : ℤ) :
    GeminiUsage :=
  let reported := metadata.promptTokenCount + metadata.toolUsePromptTokenCount
  let promptTokens :=
    if reported ≤ 0 ∧ 0 < fallbackPromptTokens then fallbackPromptTokens else reported
  let completionTokens := metadata.candidatesTokenCount + metadata.thoughtsTokenCount
  let promptAudioTokens := modalityTokens "AUDIO" metadata.promptTokensDetails +
    modalityTokens "AUDIO" metadata.toolUsePromptTokensDetails
  let promptTextTokens := modalityTokens "TEXT" metadata.promptTokensDetails +
    modalityTokens "TEXT" metadata.toolUsePromptTokensDetails
  { promptTokens := promptTokens
    completionTokens :=
      if 0 < metadata.totalTokenCount ∧ completionTokens ≤ 0 then
        metadata.totalTokenCount - promptTokens
      else completionTokens
    totalTokens := metadata.totalTokenCount
    reasoningTokens := metadata.thoughtsTokenCount
    cachedTokens := metadata.cachedContentTokenCount
    promptAudioTokens := promptAudioTokens
    promptTextTokens :=
      if 0 < promptTokens ∧ promptTextTokens = 0 ∧ promptAudioTokens = 0 then promptTokens
      else promptTextTokens
    completionImageTokens := modalityTokens "IMAGE" metadata.candidatesTokensDetails
    completionAudioTokens := modalityTokens "AUDIO" metadata.candidatesTokensDetails
    completionTextTokens := modalityTokens "TEXT" metadata.candidatesTokensDetails }

/-! ### The handlers -/

/-- What is counted of a part: its text, and whether it is inline data of some type. -/
structure CountedPart where
  text : String
  isInlineData : Bool
deriving DecidableEq, Repr

/-- A response, or an event of a stream, with the parts of its candidates. -/
structure GeminiEvent where
  candidates : List (List CountedPart)
  usageMetadata : GeminiUsageMetadata
deriving DecidableEq, Repr

def GeminiEvent.parts (event : GeminiEvent) : List CountedPart := event.candidates.flatten

def countImages (parts : List CountedPart) : ℤ := (parts.filter (·.isInlineData)).length

def joinTexts (parts : List CountedPart) : String := String.join (parts.map (·.text))

/-- The usage of a local count; `estimateTokens` counts the tokens of a text. -/
def responseText2Usage (estimateTokens : String → ℤ) (responseText : String) (promptTokens : ℤ) :
    GeminiUsage :=
  { promptTokens := promptTokens
    completionTokens := estimateTokens responseText
    totalTokens := promptTokens + estimateTokens responseText }

/-- The usage that the last of the events with a total has reported. -/
def reportedUsage (estimatePromptTokens : ℤ) (events : List GeminiEvent) : GeminiUsage :=
  events.foldl (fun usage event =>
    if event.usageMetadata.totalTokenCount ≠ 0 then
      buildUsageFromGeminiMetadata event.usageMetadata estimatePromptTokens
    else usage) {}

/-- The usage of a stream, at its end. -/
def geminiStreamUsage (estimateTokens : String → ℤ) (estimatePromptTokens : ℤ)
    (events : List GeminiEvent) : GeminiUsage :=
  let parts := events.flatMap GeminiEvent.parts
  let reported := reportedUsage estimatePromptTokens events
  let usage :=
    if countImages parts ≠ 0 ∧ reported.completionTokens = 0 then
      { reported with completionTokens := countImages parts * 1400 }
    else reported
  if usage.completionTokens ≤ 0 then
    if events ≠ [] then responseText2Usage estimateTokens (joinTexts parts) estimatePromptTokens
    else {}
  else usage

/-- The usage of a response that comes whole. -/
def geminiChatUsage (estimatePromptTokens : ℤ) (response : GeminiEvent) : GeminiUsage :=
  buildUsageFromGeminiMetadata response.usageMetadata estimatePromptTokens

/-! ### What the usage is to be -/

structure GeminiUsageMetadata.NonNegative (metadata : GeminiUsageMetadata) : Prop where
  prompt : 0 ≤ metadata.promptTokenCount
  toolUse : 0 ≤ metadata.toolUsePromptTokenCount
  candidates : 0 ≤ metadata.candidatesTokenCount
  total : 0 ≤ metadata.totalTokenCount
  thoughts : 0 ≤ metadata.thoughtsTokenCount

/-- The total is that of the counts. -/
def GeminiUsageMetadata.Consistent (metadata : GeminiUsageMetadata) : Prop :=
  metadata.totalTokenCount = metadata.promptTokenCount + metadata.toolUsePromptTokenCount +
    metadata.candidatesTokenCount + metadata.thoughtsTokenCount

/-- The usage of a response is not negative, it adds up if the metadata does, and a response without
metadata is billed if a stream of the same parts is. -/
structure SoundUsage (estimateTokens : String → ℤ) (estimatePromptTokens : ℤ)
    (response : GeminiEvent) : Prop where
  prompt : 0 ≤ (geminiChatUsage estimatePromptTokens response).promptTokens
  completion : 0 ≤ (geminiChatUsage estimatePromptTokens response).completionTokens
  total : response.usageMetadata.Consistent →
    (geminiChatUsage estimatePromptTokens response).promptTokens +
        (geminiChatUsage estimatePromptTokens response).completionTokens =
      (geminiChatUsage estimatePromptTokens response).totalTokens
  billed : response.candidates ≠ [] → response.usageMetadata = {} →
    ∀ events : List GeminiEvent, (∀ event ∈ events, event.usageMetadata = {}) →
      events.flatMap GeminiEvent.parts = response.parts →
      0 < (geminiStreamUsage estimateTokens estimatePromptTokens events).completionTokens →
      0 < (geminiChatUsage estimatePromptTokens response).completionTokens

/-- **The condition**: where the completion is made up from a total, the prompt that is taken from it
is no more than the total; where the counts add up, the prompt is reported or there is no estimate of
it; and where there is no metadata, there is nothing in the response to be billed. -/
structure Reconstructible (estimateTokens : String → ℤ) (estimatePromptTokens : ℤ)
    (response : GeminiEvent) : Prop where
  completion : 0 < response.usageMetadata.totalTokenCount →
    response.usageMetadata.candidatesTokenCount + response.usageMetadata.thoughtsTokenCount = 0 →
    response.usageMetadata.promptTokenCount + response.usageMetadata.toolUsePromptTokenCount ≤
        response.usageMetadata.totalTokenCount ∧
      (response.usageMetadata.promptTokenCount +
          response.usageMetadata.toolUsePromptTokenCount = 0 →
        estimatePromptTokens ≤ response.usageMetadata.totalTokenCount)
  prompt : response.usageMetadata.Consistent →
    0 < response.usageMetadata.promptTokenCount + response.usageMetadata.toolUsePromptTokenCount ∨
      estimatePromptTokens = 0
  empty : response.candidates ≠ [] → response.usageMetadata = {} →
    countImages response.parts = 0 ∧ estimateTokens (joinTexts response.parts) ≤ 0

/-! ### Streams without metadata -/

theorem countImages_nonneg (parts : List CountedPart) : 0 ≤ countImages parts := by
  unfold countImages
  omega

theorem reportedUsage_of_missing (estimatePromptTokens : ℤ) {events : List GeminiEvent}
    (h : ∀ event ∈ events, event.usageMetadata = {}) :
    reportedUsage estimatePromptTokens events = {} := by
  unfold reportedUsage
  induction events with
  | nil => rfl
  | cons event events ih =>
    have hevent : event.usageMetadata.totalTokenCount = 0 := by
      rw [h event List.mem_cons_self]
    rw [List.foldl_cons, if_neg (by simp [hevent])]
    exact ih fun event hevent => h event (List.mem_cons_of_mem _ hevent)

/-- A stream without metadata is billed by its images, or else by its text. -/
theorem geminiStreamUsage_of_missing (estimateTokens : String → ℤ) (estimatePromptTokens : ℤ)
    {events : List GeminiEvent} (hne : events ≠ [])
    (h : ∀ event ∈ events, event.usageMetadata = {}) :
    (geminiStreamUsage estimateTokens estimatePromptTokens events).completionTokens =
      if countImages (events.flatMap GeminiEvent.parts) ≠ 0 then
        countImages (events.flatMap GeminiEvent.parts) * 1400
      else estimateTokens (joinTexts (events.flatMap GeminiEvent.parts)) := by
  have hnonneg := countImages_nonneg (events.flatMap GeminiEvent.parts)
  unfold geminiStreamUsage
  rw [reportedUsage_of_missing estimatePromptTokens h]
  by_cases himages : countImages (events.flatMap GeminiEvent.parts) = 0
  · simp [himages, hne, responseText2Usage]
  · have hpositive : ¬ countImages (events.flatMap GeminiEvent.parts) * 1400 ≤ 0 := by omega
    simp [himages, hpositive]

/-- A response without metadata is billed for no completion. -/
theorem geminiChatUsage_of_missing (estimatePromptTokens : ℤ) {response : GeminiEvent}
    (h : response.usageMetadata = {}) :
    (geminiChatUsage estimatePromptTokens response).completionTokens = 0 := by
  simp [geminiChatUsage, buildUsageFromGeminiMetadata, h]

theorem billed_iff (estimateTokens : String → ℤ) (estimatePromptTokens : ℤ)
    {response : GeminiEvent} (hmissing : response.usageMetadata = {}) :
    (∀ events : List GeminiEvent, (∀ event ∈ events, event.usageMetadata = {}) →
      events.flatMap GeminiEvent.parts = response.parts →
      0 < (geminiStreamUsage estimateTokens estimatePromptTokens events).completionTokens →
      0 < (geminiChatUsage estimatePromptTokens response).completionTokens) ↔
    countImages response.parts = 0 ∧ estimateTokens (joinTexts response.parts) ≤ 0 := by
  rw [geminiChatUsage_of_missing estimatePromptTokens hmissing]
  constructor
  · intro h
    -- the response itself, as the only event of a stream
    have hparts : [response].flatMap GeminiEvent.parts = response.parts := by simp
    have hone := h [response] (by simpa using hmissing) hparts
    rw [geminiStreamUsage_of_missing estimateTokens estimatePromptTokens (by simp)
      (by simpa using hmissing), hparts] at hone
    have hnonneg := countImages_nonneg response.parts
    by_cases himages : countImages response.parts = 0
    · rw [if_neg (by simp [himages])] at hone
      exact ⟨himages, by omega⟩
    · rw [if_pos himages] at hone
      omega
  · rintro ⟨himages, htext⟩ events hevents hparts hbilled
    by_cases hne : events = []
    · subst hne
      simp [geminiStreamUsage, reportedUsage, countImages] at hbilled
    · rw [geminiStreamUsage_of_missing estimateTokens estimatePromptTokens hne hevents, hparts,
        if_neg (by simp [himages])] at hbilled
      omega

/-! ### The usage of a response -/

/-- **The usage of a response is sound exactly if what is missing can be made up.** -/
theorem gemini_usage_sound (estimateTokens : String → ℤ) {estimatePromptTokens : ℤ}
    {response : GeminiEvent} (hestimate : 0 ≤ estimatePromptTokens)
    (hcounts : response.usageMetadata.NonNegative) :
    SoundUsage estimateTokens estimatePromptTokens response ↔
      Reconstructible estimateTokens estimatePromptTokens response := by
  obtain ⟨hp, ht, hc, htotal, hth⟩ := hcounts
  have hprompt : (geminiChatUsage estimatePromptTokens response).promptTokens =
      if response.usageMetadata.promptTokenCount +
          response.usageMetadata.toolUsePromptTokenCount ≤ 0 ∧ 0 < estimatePromptTokens then
        estimatePromptTokens
      else response.usageMetadata.promptTokenCount +
        response.usageMetadata.toolUsePromptTokenCount := rfl
  have hcompletion : (geminiChatUsage estimatePromptTokens response).completionTokens =
      if 0 < response.usageMetadata.totalTokenCount ∧
          response.usageMetadata.candidatesTokenCount +
            response.usageMetadata.thoughtsTokenCount ≤ 0 then
        response.usageMetadata.totalTokenCount -
          (geminiChatUsage estimatePromptTokens response).promptTokens
      else response.usageMetadata.candidatesTokenCount +
        response.usageMetadata.thoughtsTokenCount := rfl
  have htotals : (geminiChatUsage estimatePromptTokens response).totalTokens =
      response.usageMetadata.totalTokenCount := rfl
  constructor
  · intro h
    refine ⟨?_, ?_, ?_⟩
    · intro hpositive hnone
      have hnonneg := h.completion
      rw [hcompletion, if_pos ⟨hpositive, by omega⟩, hprompt] at hnonneg
      split at hnonneg
      · omega
      · omega
    · intro hconsistent
      have hsum := h.total hconsistent
      rw [hcompletion, htotals, hprompt] at hsum
      unfold GeminiUsageMetadata.Consistent at hconsistent
      split at hsum
      · split at hsum
        · omega
        · omega
      · omega
    · intro hcandidates hmissing
      exact (billed_iff estimateTokens estimatePromptTokens hmissing).1
        (h.billed hcandidates hmissing)
  · intro h
    refine ⟨?_, ?_, ?_, ?_⟩
    · rw [hprompt]
      split
      · omega
      · omega
    · rw [hcompletion, hprompt]
      by_cases hmade : 0 < response.usageMetadata.totalTokenCount ∧
          response.usageMetadata.candidatesTokenCount +
            response.usageMetadata.thoughtsTokenCount ≤ 0
      · rw [if_pos hmade]
        obtain ⟨hreported, hfallback⟩ := h.completion hmade.1 (by omega)
        split
        · omega
        · omega
      · rw [if_neg hmade]
        omega
    · intro hconsistent
      have hreported := h.prompt hconsistent
      unfold GeminiUsageMetadata.Consistent at hconsistent
      rw [hcompletion, htotals, hprompt]
      split
      · split
        · omega
        · omega
      · split
        · omega
        · omega
    · intro hcandidates hmissing
      exact (billed_iff estimateTokens estimatePromptTokens hmissing).2
        (h.empty hcandidates hmissing)

/-- A response whose prompt is not reported. -/
def estimatedResponse : GeminiEvent where
  candidates := [[⟨"ok", false⟩]]
  usageMetadata :=
    { candidatesTokenCount := 90
      thoughtsTokenCount := 10
      totalTokenCount := 110 }

/-- Its counts do not add up, and the estimate of its prompt does not make them. -/
theorem gemini_usage_sound_estimated :
    SoundUsage (fun text => text.length) 20 estimatedResponse := by
  refine (gemini_usage_sound _ (by decide) (by constructor <;> decide)).2 ⟨?_, ?_, ?_⟩
  · intro _ hnone
    exact absurd hnone (by decide)
  · intro hconsistent
    exact absurd hconsistent (by simp [GeminiUsageMetadata.Consistent, estimatedResponse])
  · intro _ hmissing
    exact absurd hmissing (by simp [estimatedResponse])

/-- **The estimate of the prompt is more than the total that it is taken from**; and the text of a
response without metadata is not billed, which it is as a stream. -/
theorem estimate_beyond_total :
    (geminiChatUsage 100 ⟨[[⟨"ok", false⟩]], { totalTokenCount := 10 }⟩).completionTokens = -90 ∧
      ¬ SoundUsage (fun text => text.length) 100
        ⟨[[⟨"ok", false⟩]], { totalTokenCount := 10 }⟩ ∧
      (geminiChatUsage 100 ⟨[[⟨"ok", false⟩]], {}⟩).completionTokens = 0 ∧
      (geminiStreamUsage (fun text => text.length) 100
        [⟨[[⟨"ok", false⟩]], {}⟩]).completionTokens = 2 := by
  refine ⟨by decide, ?_, by decide, by decide⟩
  intro h
  exact absurd h.completion (by decide)

end NewApi
