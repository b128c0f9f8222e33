/-
**A chat request for a Responses upstream.**

The messages of a chat become input items.  A message of the assistant becomes an item with its
content and an item for each function call, and the answer of a tool an item that names the call it
answers.  The upstream refuses a conversation with an answer to a call that it does not have.

The two sides read the identifier of a call in different ways.  The answer is given the identifier
without white space around it, the call keeps it as it is; and a call without a name is left out
while its answer stays.  So an answer finds its call only where a call that has a name bears exactly
the trimmed identifier.

Main definitions:

* `receiveMessage`, `chatCompletionsRequestToResponsesRequest` — the conversion;
* `ConversationKept` — the items stand in the order of the messages, and answers are linked to calls;
* `Linkable` — an answered call bears the trimmed identifier and has a name.

Main results:

* `inputItems_foldl` — every message adds its own items, behind those of the messages before;
* `conversation_kept` — **the conversation is kept exactly if it is linkable**.
-/

import NewApi.Common
import NewApi.Lib.GoJson

set_option autoImplicit false

namespace NewApi

open GoJson (Json)

/-! ### Chat messages -/

/-- A tool call of a message, as it is decoded. -/
structure ChatToolCall where
  id : String
  type : String := ""
  name : String
  arguments : String := ""
deriving DecidableEq, Repr

/-- A message.  Its content is any JSON value, and `null` if there is none. -/
structure ChatMessage where
  role : String
  content : Json := .null
  toolCalls : List ChatToolCall := []
  toolCallId : String := ""

/-- A part of a content. -/
inductive MediaContent where
  | text (text : String)
  | imageUrl (url detail : String)
  | inputAudio (data format : String)
  | file (fileName fileData fileId : String)
  | videoUrl (url : String)
deriving DecidableEq, Repr

/-- The value of a field. -/
def jsonField (fields : List (String × Json)) (key : String) : Option Json :=
  (fields.find? fun field => decide (field.1 = key)).map Prod.snd

/-- The value of a field that is a text. -/
def textField (fields : List (String × Json)) (key : String) : Option String :=
  match jsonField fields key with
  | some (.str s) => some s
  | _ => none

/-- The address of an image, given as a text or in an object. -/
def parseImageUrl : Option Json → MediaContent
  | some (.str url) => .imageUrl url "high"
  | some (.obj v) => .imageUrl ((textField v "url").getD "") ((textField v "detail").getD "high")
  | _ => .imageUrl "" "high"

def parseFile (fileData : List (String × Json)) : Option MediaContent :=
  match textField fileData "file_id" with
  | some fileId => some (.file "" "" fileId)
  | none =>
    match textField fileData "filename", textField fileData "file_data" with
    | some fileName, some data => some (.file fileName data "")
    | _, _ => none

/-- An entry of a content, if it is one of the known parts. -/
def parseMedia : Json → Option MediaContent
  | .obj item =>
    match textField item "type" with
    | none => none
    | some contentType =>
      if contentType = "text" then (textField item "text").map MediaContent.text
      else if contentType = "image_url" then some (parseImageUrl (jsonField item "image_url"))
      else if contentType = "input_audio" then
        match jsonField item "input_audio" with
        | some (.obj audioData) =>
          match textField audioData "data", textField audioData "format" with
          | some data, some format => some (.inputAudio data format)
          | _, _ => none
        | _ => none
      else if contentType = "file" then
        match jsonField item "file" with
        | some (.obj fileData) => parseFile fileData
        | _ => none
      else if contentType = "video_url" then (textField item "video_url").map MediaContent.videoUrl
      else none
  | _ => none

def parseContent : Json → List MediaContent
  | .str s => [.text s]
  | .arr items => items.filterMap parseMedia
  | _ => []

/-! ### Input items -/

inductive ResponsesInputItem where
  | message (role : String) (content : Json)
  | functionCall (callId name arguments : String)
  | functionCallOutput (callId output : String)

/-- The fields of an object without those that are empty. -/
def nonEmptyFields (fields : List (String × String)) : List (String × Json) :=
  (fields.filter fun field => decide (field.2 ≠ "")).map fun field => (field.1, .str field.2)

/-- A part of a content as it is sent. -/
def contentPart (role : String) : MediaContent → Json
  | .text text =>
    .obj [("type", .str (if role = "assistant" then "output_text" else "input_text")),
      ("text", .str text)]
  | .imageUrl url detail =>
    .obj [("type", .str "input_image"),
      ("image_url",
        if url ≠ "" then .str url
        else .obj (("url", .str url) :: nonEmptyFields [("detail", detail)] ++
          [("MimeType", Json.str "")]))]
  | .inputAudio data format =>
    .obj [("type", .str "input_audio"),
      ("input_audio", .obj [("data", .str data), ("format", .str format)])]
  | .file fileName fileData fileId =>
    .obj [("type", .str "input_file"),
      ("file", .obj (nonEmptyFields
        [("filename", fileName), ("file_data", fileData), ("file_id", fileId)]))]
  | .videoUrl url => .obj [("type", .str "input_video"), ("video_url", .obj [("url", .str url)])]

/-- The item for a tool call, if it is sent. -/
def functionCallItem (tc : ChatToolCall) : Option ResponsesInputItem :=
  if trimSpace tc.id = "" then none
  else if tc.type ≠ "" ∧ tc.type ≠ "function" then none
  else
    let name := trimSpace tc.name
    if name = "" then none else some (.functionCall tc.id name tc.arguments)

/-- What has been read of the messages. -/
structure ResponsesInput where
  instructionsParts : List String := []
  inputItems : List ResponsesInputItem := []

namespace ResponsesInput

def addItems (items : List ResponsesInputItem) (acc : ResponsesInput) : ResponsesInput :=
  { acc with inputItems := acc.inputItems ++ items }

/-- Instructions are kept if there is something in them. -/
def addInstructions (text : String) (acc : ResponsesInput) : ResponsesInput :=
  let s := trimSpace text
  if s ≠ "" then { acc with instructionsParts := acc.instructionsParts ++ [s] } else acc

end ResponsesInput

/-- The output of a tool as a text, with `marshal` for other values. -/
def toolOutput (marshal : Json → String) : Json → String
  | .null => ""
  | .str s => s
  | content => marshal content

/-- The texts of a content, line by line. -/
def instructionsText (content : Json) : String :=
  "\n".intercalate ((parseContent content).filterMap fun part =>
    match part with
    | .text text => if trimSpace text ≠ "" then some text else none
    | _ => none)

/-- The function calls that follow the content of a message. -/
def functionCalls (role : String) (msg : ChatMessage) : List ResponsesInputItem :=
  if role = "assistant" then msg.toolCalls.filterMap functionCallItem else []

/-- The next message of the chat. -/
def receiveMessage (marshal : Json → String) (acc : ResponsesInput) (msg : ChatMessage) :
    ResponsesInput :=
  let role := trimSpace msg.role
  if role = "" then acc
  else if role = "tool" ∨ role = "function" then
    let callID := trimSpace msg.toolCallId
    let output := toolOutput marshal msg.content
    if callID = "" then
      acc.addItems [.message "user" (.str ("[tool_output_missing_call_id] " ++ output))]
    else acc.addItems [.functionCallOutput callID output]
  else if role = "system" ∨ role = "developer" then
    match msg.content with
    | .null => acc
    | .str text => acc.addInstructions text
    | content => acc.addInstructions (instructionsText content)
  else
    match msg.content with
    | .null => (acc.addItems [.message role (.str "")]).addItems (functionCalls role msg)
    | .str text => (acc.addItems [.message role (.str text)]).addItems (functionCalls role msg)
    | content =>
      (acc.addItems [.message role (.arr ((parseContent content).map (contentPart role)))]).addItems
        (functionCalls role msg)

/-! ### The request -/

structure ChatCompletionsRequest where
  model : String
  n : Option ℤ := none
  messages : List ChatMessage

structure ResponsesRequest where
  model : String
  input : List ResponsesInputItem
  instructions : Option String

def chatCompletionsRequestToResponsesRequest (marshal : Json → String) :
    Option ChatCompletionsRequest → Except String ResponsesRequest
  | none => .error "request is nil"
  | some req =>
    if req.model = "" then .error "model is required"
    else if req.n.getD 1 > 1 then
      .error "n>1 is not supported in responses compatibility mode"
    else
      let acc := req.messages.foldl (receiveMessage marshal) {}
      .ok {
        model := req.model
        input := acc.inputItems
        instructions :=
          if acc.instructionsParts = [] then none
          else some ("\n\n".intercalate acc.instructionsParts) }

/-! ### What is asked of the input -/

namespace ChatMessage

def IsTool (msg : ChatMessage) : Prop :=
  trimSpace msg.role = "tool" ∨ trimSpace msg.role = "function"

def IsAssistant (msg : ChatMessage) : Prop := trimSpace msg.role = "assistant"

instance instDecidableIsTool (msg : ChatMessage) : Decidable msg.IsTool :=
  inferInstanceAs (Decidable (_ ∨ _))

instance instDecidableIsAssistant (msg : ChatMessage) : Decidable msg.IsAssistant :=
  inferInstanceAs (Decidable (_ = _))

end ChatMessage

namespace ChatToolCall

def IsFunction (tc : ChatToolCall) : Prop := tc.type = "" ∨ tc.type = "function"

/-- A function call with an identifier and a name. -/
def Sent (tc : ChatToolCall) : Prop :=
  trimSpace tc.id ≠ "" ∧ tc.IsFunction ∧ trimSpace tc.name ≠ ""

instance instDecidableSent (tc : ChatToolCall) : Decidable tc.Sent :=
  inferInstanceAs (Decidable (_ ∧ (_ ∨ _) ∧ _))

/-- The item of a call that is sent. -/
def item (tc : ChatToolCall) : ResponsesInputItem :=
  .functionCall tc.id (trimSpace tc.name) tc.arguments

end ChatToolCall

/-- The items that a message adds. -/
def itemsOf (marshal : Json → String) (msg : ChatMessage) : List ResponsesInputItem :=
  (receiveMessage marshal {} msg).inputItems

/-- A function call of the messages with the given identifier. -/
def CalledBy (messages : List ChatMessage) (P : ChatToolCall → Prop) : Prop :=
  ∃ msg ∈ messages, msg.IsAssistant ∧ ∃ tc ∈ msg.toolCalls, P tc

/-- The items stand in the order of the messages; the content of an assistant's message stands before
its calls, which keep their order and their arguments; and the answer to a function call of an
earlier message names a call that is among the items of the earlier messages. -/
structure ConversationKept (marshal : Json → String) (messages : List ChatMessage)
    (input : List ResponsesInputItem) : Prop where
  order : input = messages.flatMap (itemsOf marshal)
  assistants : ∀ msg ∈ messages, msg.IsAssistant → ∃ content, itemsOf marshal msg =
    .message "assistant" content ::
      (msg.toolCalls.filter fun tc => decide tc.Sent).map ChatToolCall.item
  linked : ∀ before msg after, messages = before ++ msg :: after → msg.IsTool →
    CalledBy before (fun tc => tc.IsFunction ∧ tc.id = msg.toolCallId) →
    ∃ callID output, itemsOf marshal msg = [.functionCallOutput callID output] ∧
      ∃ name arguments, .functionCall callID name arguments ∈ before.flatMap (itemsOf marshal)

/-- Where a tool answers a function call of an earlier message, a call of an earlier message that has
a name bears exactly the identifier without white space around it. -/
def Linkable (messages : List ChatMessage) : Prop :=
  ∀ before msg after, messages = before ++ msg :: after → msg.IsTool →
    CalledBy before (fun tc => tc.IsFunction ∧ tc.id = msg.toolCallId) →
    CalledBy before (fun tc => tc.Sent ∧ tc.id = trimSpace msg.toolCallId)

/-! ### The items of a message -/

section Items

variable {marshal : Json → String} {msg : ChatMessage}

theorem addItems_inputItems (items : List ResponsesInputItem) (acc : ResponsesInput) :
    (acc.addItems items).inputItems = acc.inputItems ++ items := rfl

theorem addInstructions_inputItems (text : String) (acc : ResponsesInput) :
    (acc.addInstructions text).inputItems = acc.inputItems := by
  simp only [ResponsesInput.addInstructions]
  split <;> rfl

/-- A message adds its items behind those that are there. -/
theorem receiveMessage_inputItems (acc : ResponsesInput) (msg : ChatMessage) :
    (receiveMessage marshal acc msg).inputItems = acc.inputItems ++ itemsOf marshal msg := by
  simp only [itemsOf, receiveMessage]
  split
  · exact (List.append_nil _).symm
  · split
    · split
      · simp only [addItems_inputItems, List.nil_append]
      · simp only [addItems_inputItems, List.nil_append]
    · split
      · cases msg.content <;> simp [addInstructions_inputItems]
      · cases msg.content <;> simp [addItems_inputItems]

/-- **Every message adds its own items, behind those of the messages before.** -/
theorem inputItems_foldl (messages : List ChatMessage) :
    ∀ acc : ResponsesInput, (messages.foldl (receiveMessage marshal) acc).inputItems =
      acc.inputItems ++ messages.flatMap (itemsOf marshal) := by
  induction messages with
  | nil =>
    intro acc
    exact (List.append_nil _).symm
  | cons msg messages ih =>
    intro acc
    rw [List.foldl_cons, ih, receiveMessage_inputItems, List.flatMap_cons, List.append_assoc]

theorem functionCallItem_eq (tc : ChatToolCall) :
    functionCallItem tc = if tc.Sent then some tc.item else none := by
  simp only [functionCallItem, ChatToolCall.Sent, ChatToolCall.IsFunction, ChatToolCall.item]
  by_cases hid : trimSpace tc.id = ""
  · simp [hid]
  · by_cases htype : tc.type = "" ∨ tc.type = "function"
    · have htype' : ¬ (tc.type ≠ "" ∧ tc.type ≠ "function") := by
        rw [not_and_or, not_not, not_not]
        exact htype
      by_cases hname : trimSpace tc.name = ""
      · simp [hid, htype', hname]
      · simp [hid, htype, htype', hname]
    · have htype' : tc.type ≠ "" ∧ tc.type ≠ "function" := not_or.1 htype
      simp [hid, htype']

theorem filterMap_functionCallItem (calls : List ChatToolCall) :
    calls.filterMap functionCallItem =
      (calls.filter fun tc => decide tc.Sent).map ChatToolCall.item := by
  induction calls with
  | nil => rfl
  | cons tc calls ih =>
    rw [List.filterMap_cons, functionCallItem_eq]
    by_cases hsent : tc.Sent
    · simp [hsent, ih]
    · simp [hsent, ih]

theorem itemsOf_assistant (h : msg.IsAssistant) :
    ∃ content, itemsOf marshal msg = .message "assistant" content ::
      (msg.toolCalls.filter fun tc => decide tc.Sent).map ChatToolCall.item := by
  have hrole : trimSpace msg.role = "assistant" := h
  simp only [itemsOf, receiveMessage, hrole, functionCalls, String.reduceEq, or_self, if_false,
    if_true, filterMap_functionCallItem]
  cases msg.content <;> exact ⟨_, rfl⟩

theorem itemsOf_tool (h : msg.IsTool) :
    itemsOf marshal msg =
      if trimSpace msg.toolCallId = "" then
        [.message "user" (.str ("[tool_output_missing_call_id] " ++ toolOutput marshal msg.content))]
      else [.functionCallOutput (trimSpace msg.toolCallId) (toolOutput marshal msg.content)] := by
  have hne : trimSpace msg.role ≠ "" := by
    rcases h with h | h <;> rw [h] <;> decide
  have htool : trimSpace msg.role = "tool" ∨ trimSpace msg.role = "function" := h
  simp only [itemsOf, receiveMessage, if_neg hne, if_pos htool]
  split <;> rfl

/-- Only messages of the assistant add function calls. -/
theorem functionCall_mem_itemsOf {callID name arguments : String} :
    .functionCall callID name arguments ∈ itemsOf marshal msg ↔
      msg.IsAssistant ∧ ∃ tc ∈ msg.toolCalls, tc.Sent ∧
        tc.item = .functionCall callID name arguments := by
  constructor
  · intro hmem
    by_cases hrole : msg.IsAssistant
    · obtain ⟨content, hitems⟩ := @itemsOf_assistant marshal msg hrole
      rw [hitems, List.mem_cons, List.mem_map] at hmem
      rcases hmem with hmem | ⟨tc, htc, heq⟩
      · cases hmem
      · rw [List.mem_filter, decide_eq_true_eq] at htc
        exact ⟨hrole, tc, htc.1, htc.2, heq⟩
    · exfalso
      have hrole' : trimSpace msg.role ≠ "assistant" := hrole
      simp only [itemsOf, receiveMessage, functionCalls, if_neg hrole'] at hmem
      split at hmem
      · simp at hmem
      · split at hmem
        · split at hmem <;> simp [ResponsesInput.addItems] at hmem
        · split at hmem
          · cases hcontent : msg.content <;>
              simp [hcontent, addInstructions_inputItems] at hmem
          · cases hcontent : msg.content <;> simp [hcontent, ResponsesInput.addItems] at hmem
  · rintro ⟨hrole, tc, htc, hsent, heq⟩
    obtain ⟨content, hitems⟩ := @itemsOf_assistant marshal msg hrole
    rw [hitems, ← heq]
    exact List.mem_cons_of_mem _ (List.mem_map_of_mem (List.mem_filter.mpr
      ⟨htc, decide_eq_true hsent⟩))

end Items

/-! ### The conversation -/

section Conversation

variable {marshal : Json → String}

/-- A function call with an identifier is among the items of messages where one of their calls is
sent. -/
theorem exists_functionCall_iff {messages : List ChatMessage} {callID : String} :
    (∃ name arguments,
      .functionCall callID name arguments ∈ messages.flatMap (itemsOf marshal)) ↔
      CalledBy messages fun tc => tc.Sent ∧ tc.id = callID := by
  simp only [List.mem_flatMap, functionCall_mem_itemsOf]
  constructor
  · rintro ⟨name, arguments, msg, hmsg, hrole, tc, htc, hsent, heq⟩
    injection heq with hid
    exact ⟨msg, hmsg, hrole, tc, htc, hsent, hid⟩
  · rintro ⟨msg, hmsg, hrole, tc, htc, hsent, rfl⟩
    exact ⟨_, _, msg, hmsg, hrole, tc, htc, hsent, rfl⟩

/-- **The conversation is kept exactly if it is linkable.** -/
theorem conversation_kept {req : ChatCompletionsRequest} {out : ResponsesRequest}
    (h : chatCompletionsRequestToResponsesRequest marshal (some req) = .ok out) :
    ConversationKept marshal req.messages out.input ↔ Linkable req.messages := by
  have hinput : out.input = req.messages.flatMap (itemsOf marshal) := by
    simp only [chatCompletionsRequestToResponsesRequest] at h
    split at h
    · cases h
    · split at h
      · cases h
      · injection h with h
        rw [← h]
        exact inputItems_foldl req.messages {}
  constructor
  · intro hkept before msg after hsplit htool hcalled
    obtain ⟨callID, output, hitem, hcall⟩ := hkept.linked before msg after hsplit htool hcalled
    rw [itemsOf_tool htool] at hitem
    split at hitem
    · simp at hitem
    · simp only [List.cons.injEq, ResponsesInputItem.functionCallOutput.injEq, and_true] at hitem
      rw [hitem.1]
      exact exists_functionCall_iff.mp hcall
  · intro hlinkable
    refine ⟨hinput, fun msg _ => itemsOf_assistant, ?_⟩
    intro before msg after hsplit htool hcalled
    have hsent := hlinkable before msg after hsplit htool hcalled
    have hne : trimSpace msg.toolCallId ≠ "" := by
      obtain ⟨_, _, _, tc, _, ⟨hid, _⟩, heq⟩ := hsent
      rwa [heq, trimSpace_trimSpace] at hid
    have hitem := @itemsOf_tool marshal msg htool
    rw [if_neg hne] at hitem
    exact ⟨_, _, hitem, exists_functionCall_iff.mpr hsent⟩

end Conversation

/-! ### An answer, and one to an identifier with a space -/

/-- The assistant calls a function. -/
def callMessage (id : String) : ChatMessage where
  role := "assistant"
  toolCalls := [⟨id, "function", "weather", "[1]"⟩]

/-- The tool answers. -/
def answerMessage (id : String) : ChatMessage where
  role := "tool"
  content := .str "sunny"
  toolCallId := id

/-- A call and its answer. -/
def answeredCall (id : String) : ChatCompletionsRequest where
  model := "m"
  messages := [callMessage id, answerMessage id]

/-- The items of a call and its answer, with the identifiers of both. -/
def answeredItems (callID answerID : String) : ResponsesRequest where
  model := "m"
  input := [.message "assistant" (.str ""), .functionCall callID "weather" "[1]",
    .functionCallOutput answerID "sunny"]
  instructions := none

theorem answeredCall_linkable : Linkable (answeredCall "call_1").messages := by
  intro before msg after hsplit htool _
  cases before with
  | nil =>
    -- the first message is no answer
    injection hsplit with hmsg
    subst hmsg
    exact absurd htool (by decide)
  | cons first rest =>
    injection hsplit with hfirst hrest
    subst hfirst
    cases rest with
    | nil =>
      obtain rfl : answerMessage "call_1" = msg := (List.cons.inj hrest).1
      exact ⟨_, List.mem_singleton_self _, by decide, _, List.mem_singleton_self _,
        by decide, by decide⟩
    | cons second rest =>
      have hlength := congrArg List.length hrest
      simp at hlength

/-- A call and its answer stay together. -/
theorem conversation_kept_answered :
    ConversationKept (fun _ => "") (answeredCall "call_1").messages
      (answeredItems "call_1" "call_1").input :=
  (@conversation_kept (fun _ => "") (answeredCall "call_1") (answeredItems "call_1" "call_1")
    (by rfl)).mpr answeredCall_linkable

/-- With a space behind it the identifier is another one in the answer than in the call. -/
theorem answer_unlinked :
    ¬ ∀ (marshal : Json → String) (req : ChatCompletionsRequest) (out : ResponsesRequest),
      chatCompletionsRequestToResponsesRequest marshal (some req) = .ok out →
        ConversationKept marshal req.messages out.input := by
  intro h
  have hkept := h (fun _ => "") (answeredCall "call_1 ") _ rfl
  obtain ⟨callID, output, hitem, hcall⟩ := hkept.linked [callMessage "call_1 "]
    (answerMessage "call_1 ") [] rfl (by decide)
    ⟨_, List.mem_singleton_self _, by decide, _, List.mem_singleton_self _,
      Or.inr rfl, rfl⟩
  obtain ⟨msg, hmsg, _, tc, htc, _, hid⟩ := exists_functionCall_iff.mp hcall
  rw [List.mem_singleton] at hmsg
  subst hmsg
  rw [callMessage, List.mem_singleton] at htc
  subst htc
  rw [itemsOf_tool (by decide), if_neg (by decide)] at hitem
  simp only [List.cons.injEq, ResponsesInputItem.functionCallOutput.injEq, and_true] at hitem
  have hsame : trimSpace "call_1 " = "call_1 " := hitem.1.trans hid.symm
  exact absurd hsame (by decide)

end NewApi
