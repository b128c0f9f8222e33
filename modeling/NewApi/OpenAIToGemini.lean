/-
**From OpenAI's replies to Gemini's.**

A reply in the format of OpenAI is converted to one in the format of Gemini, where a call of a
function is a part with all of its arguments.  A stream is converted chunk by chunk, and each piece
of a call becomes a part of its own: its arguments are parsed by themselves, and what cannot be
parsed is kept as a text.

Main definitions:

* `NewApi.ArgumentTools` — the parsing of arguments;
* `NewApi.responseOpenAI2Gemini`, `NewApi.streamResponseOpenAI2Gemini` — the two conversions;
* `NewApi.streamedCalls`, `NewApi.completeCalls` — the calls of a stream and of the message that it
  makes up;
* `NewApi.numberedPieces` — the pieces of a stream with the numbers of their calls.

Main results:

* `NewApi.streamedCalls_eq` — each piece is sent as a call;
* `NewApi.stream_reassembles` — **the calls of a stream are those of the message exactly if every
  call comes in one piece**;
* `NewApi.call_in_pieces` — a call that comes in three.
-/

import NewApi.ClaudeContent

set_option autoImplicit false

namespace NewApi

/-! ### The conversions -/

/-- The parsing of arguments as an object, and objects whose fields are texts. -/
structure ArgumentTools (A : Type*) where
  unmarshal : String → Option A
  object : List (String × String) → A

inductive GeminiReplyPart (A : Type*) where
  | text (text : String)
  | functionCall (functionName : String) (args : A)
deriving DecidableEq

structure GeminiReplyCandidate (A : Type*) where
  finishReason : Option String
  parts : List (GeminiReplyPart A)

structure GeminiReply (A : Type*) where
  candidates : List (GeminiReplyCandidate A)

/-- A choice of a whole reply. -/
structure TextResponseChoice where
  content : String
  toolCalls : List ToolCallRequest
  finishReason : String

def replyFinishReason (finishReason : String) : String :=
  match finishReason with
  | "stop" => "STOP"
  | "length" => "MAX_TOKENS"
  | "content_filter" => "SAFETY"
  | "tool_calls" => "STOP"
  | _ => "STOP"

section Conversion

variable {A : Type*} (tools : ArgumentTools A)

/-- Arguments that are no object are kept as a field. -/
def ArgumentTools.args (arguments : String) : A :=
  if arguments ≠ "" then (tools.unmarshal arguments).getD (tools.object [("arguments", arguments)])
  else tools.object []

def ArgumentTools.part (name arguments : String) : GeminiReplyPart A :=
  .functionCall name (tools.args arguments)

/-- The text of a choice, if there is any. -/
def textOnly (text : String) : List (GeminiReplyPart A) := if text ≠ "" then [.text text] else []

/-- The conversion of a reply. -/
def responseOpenAI2Gemini (choices : List TextResponseChoice) : GeminiReply A where
  candidates := choices.map fun choice =>
    { finishReason := some (replyFinishReason choice.finishReason)
      parts :=
        if choice.toolCalls ≠ [] then
          choice.toolCalls.map fun toolCall => tools.part toolCall.name toolCall.arguments
        else textOnly choice.content }

/-- The conversion of a chunk, which may be skipped.  An empty list of tool calls is none. -/
def streamResponseOpenAI2Gemini (chunk : ChatCompletionsStreamResponse) : Option (GeminiReply A) :=
  let hasContent := chunk.choices.any fun choice =>
    choice.delta.getContentString ≠ "" || choice.delta.toolCalls ≠ []
  let hasFinishReason := chunk.choices.any fun choice => choice.finishReason.isSome
  if !hasContent && !hasFinishReason then none
  else
    some
      { candidates := chunk.choices.map fun choice =>
          { finishReason := choice.finishReason.map replyFinishReason
            parts :=
              if choice.delta.toolCalls ≠ [] then
                choice.delta.toolCalls.map fun toolCall =>
                  tools.part toolCall.name toolCall.arguments
              else textOnly choice.delta.getContentString } }

/-! ### The calls that are received -/

def GeminiReplyPart.call? : GeminiReplyPart A → Option (String × A)
  | .functionCall functionName args => some (functionName, args)
  | .text _ => none

/-- The calls of the first candidate. -/
def GeminiReply.calls (reply : GeminiReply A) : List (String × A) :=
  ((reply.candidates.head?.map fun candidate => candidate.parts).getD []).filterMap
    GeminiReplyPart.call?

/-- The calls that are received of a stream. -/
def streamedCalls (chunks : List ChatCompletionsStreamResponse) : List (String × A) :=
  chunks.flatMap fun chunk =>
    ((streamResponseOpenAI2Gemini tools chunk).map GeminiReply.calls).getD []

/-- The message that a stream makes up. -/
def completeMessage (chunks : List ChatCompletionsStreamResponse) : TextResponseChoice where
  content := contents chunks
  toolCalls := (toolCalls chunks).map Prod.snd
  finishReason := lastFinish "" chunks

/-- The calls that are received of that message. -/
def completeCalls (chunks : List ChatCompletionsStreamResponse) : List (String × A) :=
  (responseOpenAI2Gemini tools [completeMessage chunks]).calls

/-- What is received of a call, or of a piece. -/
def ArgumentTools.received (name arguments : String) : String × A := (name, tools.args arguments)

theorem filterMap_part {β : Type*} (name arguments : β → String) (calls : List β) :
    (calls.map fun call => tools.part (name call) (arguments call)).filterMap
        GeminiReplyPart.call? =
      calls.map fun call => tools.received (name call) (arguments call) := by
  induction calls with
  | nil => rfl
  | cons call calls ih =>
    rw [List.map_cons, List.map_cons, ← ih]
    rfl

theorem filterMap_textOnly (text : String) :
    (textOnly text : List (GeminiReplyPart A)).filterMap GeminiReplyPart.call? = [] := by
  unfold textOnly
  split
  · rfl
  · rfl

/-- **Each piece of a chunk is sent as a call.** -/
theorem calls_streamResponse (chunk : ChatCompletionsStreamResponse) :
    ((streamResponseOpenAI2Gemini tools chunk).map GeminiReply.calls).getD [] =
      chunk.delta.toolCalls.map fun piece => tools.received piece.name piece.arguments := by
  unfold streamResponseOpenAI2Gemini ChatCompletionsStreamResponse.delta
  cases hchoices : chunk.choices with
  | nil => simp
  | cons choice choices =>
    simp only [List.head?_cons, Option.map_some, Option.getD_some]
    split
    · rename_i hskip
      have hnone : choice.delta.toolCalls = [] := by
        simp only [List.any_cons, Bool.and_eq_true, Bool.not_eq_true', Bool.or_eq_false_iff,
          decide_eq_false_iff_not, not_not] at hskip
        exact hskip.1.1.2
      rw [hnone]
      rfl
    · simp only [Option.map_some, Option.getD_some, GeminiReply.calls, List.map_cons,
        List.head?_cons]
      by_cases hcalls : choice.delta.toolCalls = []
      · simp only [hcalls, ne_eq, not_true_eq_false, if_false, filterMap_textOnly, List.map_nil]
      · simp only [hcalls, ne_eq, not_false_eq_true, if_true]
        exact filterMap_part tools ToolCallResponse.name ToolCallResponse.arguments _

theorem streamedCalls_eq (chunks : List ChatCompletionsStreamResponse) :
    streamedCalls tools chunks =
      (chunks.flatMap fun chunk => chunk.delta.toolCalls).map fun piece =>
        tools.received piece.name piece.arguments := by
  unfold streamedCalls
  simp only [calls_streamResponse]
  rw [List.map_flatMap]

theorem completeCalls_eq (chunks : List ChatCompletionsStreamResponse) :
    completeCalls tools chunks = (toolCalls chunks).map fun call =>
      tools.received call.2.name call.2.arguments := by
  unfold completeCalls responseOpenAI2Gemini completeMessage GeminiReply.calls
  simp only [List.map_cons, List.map_nil, List.head?_cons, Option.map_some, Option.getD_some]
  by_cases hcalls : toolCalls chunks = []
  · simp only [hcalls, List.map_nil, ne_eq, not_true_eq_false, if_false, filterMap_textOnly]
  · have hne : (toolCalls chunks).map Prod.snd ≠ [] := by simpa using hcalls
    rw [if_pos hne, filterMap_part tools ToolCallRequest.name ToolCallRequest.arguments,
      List.map_map]
    rfl

end Conversion

/-! ### The pieces of a stream -/

/-- The pieces of a chunk, from the `i`-th on, with the numbers of their calls. -/
def numberedFrom : ℕ → List ToolCallResponse → List (ℤ × ToolCallResponse)
  | _, [] => []
  | i, piece :: pieces => (piece.offset i, piece) :: numberedFrom (i + 1) pieces

/-- The pieces of a stream with the numbers of their calls. -/
def numberedPieces (chunks : List ChatCompletionsStreamResponse) :
    List (ℤ × ToolCallResponse) :=
  chunks.flatMap fun chunk => numberedFrom 0 chunk.delta.toolCalls

/-- A piece as a call of its own. -/
def ToolCallResponse.alone (piece : ToolCallResponse) : ToolCallRequest :=
  ⟨piece.id, piece.name, piece.arguments⟩

/-- Calls with further pieces. -/
def addNumbered (calls : List (ℤ × ToolCallRequest)) (pieces : List (ℤ × ToolCallResponse)) :
    List (ℤ × ToolCallRequest) :=
  pieces.foldl (fun calls piece => addPiece calls piece.1 piece.2) calls

theorem addPieces_eq_addNumbered (i : ℕ) (calls : List (ℤ × ToolCallRequest))
    (pieces : List ToolCallResponse) :
    addPieces i calls pieces = addNumbered calls (numberedFrom i pieces) := by
  induction pieces generalizing i calls with
  | nil => rfl
  | cons piece pieces ih =>
    rw [addPieces, ih]
    rfl

theorem toolCalls_eq_addNumbered (chunks : List ChatCompletionsStreamResponse) :
    toolCalls chunks = addNumbered [] (numberedPieces chunks) := by
  have hfrom : ∀ calls, chunks.foldl (fun calls chunk => addPieces 0 calls chunk.delta.toolCalls)
      calls = addNumbered calls (numberedPieces chunks) := by
    induction chunks with
    | nil =>
      intro calls
      rfl
    | cons chunk chunks ih =>
      intro calls
      rw [List.foldl_cons, ih, addPieces_eq_addNumbered]
      unfold numberedPieces addNumbered
      rw [List.flatMap_cons, List.foldl_append]
  exact hfrom []

theorem snd_numbered (i : ℕ) (pieces : List ToolCallResponse) :
    (numberedFrom i pieces).map Prod.snd = pieces := by
  induction pieces generalizing i with
  | nil => rfl
  | cons piece pieces ih => rw [numberedFrom, List.map_cons, ih]

theorem snd_numberedPieces (chunks : List ChatCompletionsStreamResponse) :
    (numberedPieces chunks).map Prod.snd = chunks.flatMap fun chunk => chunk.delta.toolCalls := by
  unfold numberedPieces
  rw [List.map_flatMap]
  simp only [snd_numbered]

/-- Pieces of different calls are calls of their own. -/
theorem addNumbered_of_nodup {calls : List (ℤ × ToolCallRequest)}
    {pieces : List (ℤ × ToolCallResponse)}
    (h : (Keyed.keys calls ++ pieces.map Prod.fst).Nodup) :
    addNumbered calls pieces = calls ++ pieces.map fun piece => (piece.1, piece.2.alone) := by
  induction pieces generalizing calls with
  | nil => simp [addNumbered]
  | cons piece pieces ih =>
    have hnew : piece.1 ∉ Keyed.keys calls := by
      intro hmem
      exact List.disjoint_of_nodup_append h hmem (by simp)
    have hadd : addPiece calls piece.1 piece.2 = calls ++ [(piece.1, piece.2.alone)] := by
      rw [addPiece, if_neg hnew]
      rfl
    have hrest := @ih (calls ++ [(piece.1, piece.2.alone)]) (by simpa [Keyed.keys] using h)
    unfold addNumbered at hrest ⊢
    rw [List.foldl_cons, hadd, hrest]
    simp

theorem length_addPiece_le (calls : List (ℤ × ToolCallRequest)) (n : ℤ)
    (piece : ToolCallResponse) : (addPiece calls n piece).length ≤ calls.length + 1 := by
  unfold addPiece
  split
  · simp [Keyed.update]
  · simp

theorem length_addNumbered_le (calls : List (ℤ × ToolCallRequest))
    (pieces : List (ℤ × ToolCallResponse)) :
    (addNumbered calls pieces).length ≤ calls.length + pieces.length := by
  induction pieces generalizing calls with
  | nil => exact le_refl _
  | cons piece pieces ih =>
    have hadd := length_addPiece_le calls piece.1 piece.2
    have hrest := ih (addPiece calls piece.1 piece.2)
    unfold addNumbered at hrest ⊢
    rw [List.foldl_cons, List.length_cons]
    omega

/-- If there are as many calls as pieces, the pieces are of different calls. -/
theorem nodup_of_length {calls : List (ℤ × ToolCallRequest)}
    {pieces : List (ℤ × ToolCallResponse)} (hcalls : (Keyed.keys calls).Nodup)
    (h : (addNumbered calls pieces).length = calls.length + pieces.length) :
    (Keyed.keys calls ++ pieces.map Prod.fst).Nodup := by
  induction pieces generalizing calls with
  | nil => simpa using hcalls
  | cons piece pieces ih =>
    have hrest := length_addNumbered_le (addPiece calls piece.1 piece.2) pieces
    have hfold : addNumbered calls (piece :: pieces) =
        addNumbered (addPiece calls piece.1 piece.2) pieces := rfl
    rw [hfold, List.length_cons] at h
    by_cases hmem : piece.1 ∈ Keyed.keys calls
    · -- a piece that continues a call is not a call
      have hsame : (addPiece calls piece.1 piece.2).length = calls.length := by
        rw [addPiece, if_pos hmem]
        simp [Keyed.update]
      omega
    · have hadd : addPiece calls piece.1 piece.2 = calls ++ [(piece.1, piece.2.alone)] := by
        rw [addPiece, if_neg hmem]
        rfl
      rw [hadd] at h
      have hkeys : (Keyed.keys (calls ++ [(piece.1, piece.2.alone)])).Nodup := by
        rw [Keyed.keys, List.map_append, List.nodup_append]
        refine ⟨hcalls, List.nodup_singleton _, ?_⟩
        intro n hn n' hn' heq
        rw [List.map_singleton, List.mem_singleton] at hn'
        rw [heq, hn'] at hn
        exact hmem hn
      have hnodup := ih hkeys (by
        rw [h, List.length_append, List.length_singleton]
        omega)
      simpa [Keyed.keys] using hnodup

/-! ### Streams and messages -/

/-- The number of the call of each piece of a stream. -/
def pieceNumbers (chunks : List ChatCompletionsStreamResponse) : List ℤ :=
  (numberedPieces chunks).map Prod.fst

/-- **The calls that are received of a stream are those of the message that it makes up, in any
order, exactly if every call comes in one piece; and then they are in the same order.** -/
theorem stream_reassembles {A : Type*} (tools : ArgumentTools A)
    (chunks : List ChatCompletionsStreamResponse) :
    ((streamedCalls tools chunks).Perm (completeCalls tools chunks) ↔ (pieceNumbers chunks).Nodup) ∧
      ((pieceNumbers chunks).Nodup → streamedCalls tools chunks = completeCalls tools chunks) := by
  have hsame : (pieceNumbers chunks).Nodup →
      streamedCalls tools chunks = completeCalls tools chunks := by
    intro hnodup
    rw [streamedCalls_eq, completeCalls_eq, toolCalls_eq_addNumbered, ← snd_numberedPieces,
      addNumbered_of_nodup (by simpa [Keyed.keys, pieceNumbers] using hnodup), List.nil_append,
      List.map_map, List.map_map]
    rfl
  refine ⟨⟨fun hperm => ?_, fun hnodup => ?_⟩, hsame⟩
  · have hlength := hperm.length_eq
    rw [streamedCalls_eq, completeCalls_eq, toolCalls_eq_addNumbered, ← snd_numberedPieces,
      List.length_map, List.length_map, List.length_map] at hlength
    have hnodup := @nodup_of_length [] (numberedPieces chunks) List.nodup_nil (by
      rw [List.length_nil, Nat.zero_add]
      exact hlength.symm)
    simpa [Keyed.keys, pieceNumbers] using hnodup
  · rw [hsame hnodup]

/-- A chunk with one piece of the first call. -/
def pieceChunk (id name arguments : String) : ChatCompletionsStreamResponse where
  id := "chatcmpl-1"
  model := "gpt-4o"
  choices := [⟨⟨none, none, none, [⟨some 0, id, name, arguments⟩]⟩, none⟩]
  usage := none

/-- Arguments that are kept as they are written, if they are an object that is closed. -/
def closedObject : ArgumentTools (String × List (String × String)) where
  unmarshal := fun arguments =>
    if arguments = "\x7b\"city\": \"Rome\"\x7d" then some (arguments, []) else none
  object := fun fields => ("", fields)

/-- **A call that comes in three pieces is received as three calls.** -/
theorem call_in_pieces :
    let chunks := [pieceChunk "call_1" "weather" "", pieceChunk "" "" "\x7b\"city\":",
      pieceChunk "" "" " \"Rome\"\x7d"]
    streamedCalls closedObject chunks =
        [("weather", ("", [])), ("", ("", [("arguments", "\x7b\"city\":")])),
          ("", ("", [("arguments", " \"Rome\"\x7d")]))] ∧
      completeCalls closedObject chunks = [("weather", ("\x7b\"city\": \"Rome\"\x7d", []))] ∧
      ¬ (streamedCalls closedObject chunks).Perm (completeCalls closedObject chunks) := by
  intro chunks
  have hstreamed : streamedCalls closedObject chunks =
      [("weather", ("", [])), ("", ("", [("arguments", "\x7b\"city\":")])),
        ("", ("", [("arguments", " \"Rome\"\x7d")]))] := by
    decide
  have hcomplete : completeCalls closedObject chunks =
      [("weather", ("\x7b\"city\": \"Rome\"\x7d", []))] := by
    decide
  refine ⟨hstreamed, hcomplete, fun hperm => ?_⟩
  have hlength := hperm.length_eq
  rw [hstreamed, hcomplete] at hlength
  cases hlength

end NewApi
