/-
**The tool calls of a stream of a Responses upstream.**

A Responses upstream sends the events of several function calls mixed with one another: that an item
is added, pieces of its arguments, that it is done with its arguments as a whole.  An item event
names the item and the call, a piece names the item only.  The handler sends a Chat Completions
client a piece for each event, under the identifier of the call, and keeps what it has sent of a
call's arguments, so that only the rest of a whole is sent.

This works as long as a call's pieces come between the event that names its item and the one with its
arguments.  A piece that comes earlier is sent under the identifier of the item, to a call that does
not exist, and what was kept for it is not taken over; a piece that comes later is sent although the
arguments are complete.

Main definitions:

* `sentArguments`, `sentNames`, `sentTools` — what a client gets for an identifier;
* `ResponsesCall.Streamed` — a stream has the events of a call;
* `ResponsesCall.PiecesFit` — where its pieces stand;
* `CallView` — the handler as one call sees it.

Main results:

* `callView_run` — the handler serves each call as if it were alone, for every order of the events;
* `tool_call_sent_once` — **a call's arguments and its name are sent once, under an index of its own,
  exactly if its pieces fit**.
-/

import NewApi.ResponsesStream

set_option autoImplicit false

namespace NewApi

/-! ### What a client gets -/

/-- The pieces of tool calls in the order they are sent. -/
def sentTools (chunks : List ChatCompletionsStreamResponse) : List ToolCallResponse :=
  chunks.flatMap fun chunk => chunk.choices.flatMap fun choice => choice.delta.toolCalls

/-- The arguments that are sent for an identifier, put together. -/
def argumentsOf (callID : String) (tools : List ToolCallResponse) : String :=
  String.join ((tools.filter fun tool => decide (tool.id = callID)).map fun tool => tool.arguments)

/-- The names that are sent for an identifier. -/
def namesOf (callID : String) (tools : List ToolCallResponse) : List String :=
  ((tools.filter fun tool => decide (tool.id = callID)).map fun tool => tool.name).filter
    fun name => decide (name ≠ "")

def sentArguments (callID : String) (chunks : List ChatCompletionsStreamResponse) : String :=
  argumentsOf callID (sentTools chunks)

def sentNames (callID : String) (chunks : List ChatCompletionsStreamResponse) : List String :=
  namesOf callID (sentTools chunks)

/-! ### The events of a call -/

/-- A function call with its identifiers without white space. -/
structure ResponsesCall where
  itemID : String
  callID : String
  name : String
  arguments : String
deriving DecidableEq, Repr

/-- What an event is for one call. -/
inductive CallEvent where
  | item (name arguments : String)
  | piece (delta : String)
deriving DecidableEq, Repr

namespace CallEvent

/-- An item event with arguments. -/
def carries : CallEvent → Bool
  | .item _ arguments => decide (arguments ≠ "")
  | .piece _ => false

def isPiece : CallEvent → Bool
  | .item _ _ => false
  | .piece _ => true

/-- The text of a piece. -/
def delta : CallEvent → String
  | .item _ _ => ""
  | .piece delta => delta

end CallEvent

/-- The pieces among the events of a call, put together. -/
def joinPieces (events : List CallEvent) : String := String.join (events.map CallEvent.delta)

/-- The function call that an event adds or says to be done. -/
def ResponsesStreamEvent.functionCall : ResponsesStreamEvent → Option ResponsesOutput
  | .outputItemAdded item | .outputItemDone item =>
    if item.type = "function_call" then some item else none
  | _ => none

namespace ResponsesCall

variable (call : ResponsesCall)

/-- What an event is for the call, if it belongs to it. -/
def event (event : ResponsesStreamEvent) : Option CallEvent :=
  match event.functionCall with
  | some item =>
    if trimSpace item.id = call.itemID then some (.item (trimSpace item.name) item.arguments)
    else none
  | none =>
    match event with
    | .functionCallArgumentsDelta itemId delta =>
      if trimSpace itemId = call.itemID then some (.piece delta) else none
    | _ => none

/-- The events of the call in their order. -/
def events (events : List ResponsesStreamEvent) : List CallEvent := events.filterMap call.event

/-- The stream has the events of the call.  No other call has its identifiers; its item events name
it and carry its arguments or none; and its pieces are its arguments, or there is nothing in them and
an item event carries the arguments. -/
structure Streamed (events : List ResponsesStreamEvent) : Prop where
  itemID_ne : call.itemID ≠ ""
  callID_ne : call.callID ≠ ""
  name_ne : call.name ≠ ""
  ids : ∀ event ∈ events, ∀ item, event.functionCall = some item →
    (trimSpace item.id = call.itemID ↔ trimSpace item.callId = call.callID)
  pieceIDs : ∀ itemId delta, .functionCallArgumentsDelta itemId delta ∈ events →
    trimSpace itemId = call.callID → call.itemID = call.callID
  names : ∀ name arguments, .item name arguments ∈ call.events events →
    name = "" ∨ name = call.name
  named : ∃ arguments, .item call.name arguments ∈ call.events events
  arguments : ∀ name arguments, .item name arguments ∈ call.events events →
    arguments = "" ∨ arguments = call.arguments
  complete : joinPieces (call.events events) = call.arguments ∨
    (joinPieces (call.events events) = "" ∧
      ∃ name, .item name call.arguments ∈ call.events events)

/-- The events of the call from the one on that makes its item known. -/
def heard (events : List CallEvent) : List CallEvent :=
  if call.itemID = call.callID then events else events.dropWhile CallEvent.isPiece

/-- The pieces that come once the item is known, up to the first item event with arguments, are a
beginning of the arguments, and nothing comes after that.  Without such an event they are all
arguments. -/
def PiecesFit (events : List ResponsesStreamEvent) : Prop :=
  let heard := call.heard (call.events events)
  let before := heard.takeWhile fun event => !event.carries
  let after := heard.dropWhile fun event => !event.carries
  if after = [] then joinPieces before = call.arguments
  else hasPrefix call.arguments (joinPieces before) = true ∧ joinPieces after = ""

instance instDecidablePiecesFit (events : List ResponsesStreamEvent) :
    Decidable (call.PiecesFit events) :=
  inferInstanceAs (Decidable (ite _ _ _))

end ResponsesCall

/-- Every function call in the stream has both identifiers. -/
def IdsPresent (events : List ResponsesStreamEvent) : Prop :=
  ∀ event ∈ events, ∀ item, event.functionCall = some item →
    trimSpace item.id ≠ "" ∧ trimSpace item.callId ≠ ""

/-- The stream has no output text. -/
def NoOutputText (events : List ResponsesStreamEvent) : Prop :=
  ∀ delta, .outputTextDelta delta ∈ events → delta = ""

/-! ### The handler as one call sees it -/

/-- What the handler has received of the arguments of a call and what it has sent of them. -/
structure CallView where
  known : Bool := false
  received : String := ""
  sent : String := ""
  names : List String := []
deriving DecidableEq, Repr

namespace CallView

/-- The arguments after an event. -/
def hear (v : CallView) : CallEvent → CallView
  | .item _ arguments =>
    if arguments = "" then v
    else
      { v with
        received := arguments
        sent := v.sent ++ argumentsDelta v.received arguments }
  | .piece delta => { v with received := v.received ++ delta, sent := v.sent ++ delta }

/-- An event of the call, whose item may have its identifier. -/
def receive (sameID : Bool) (v : CallView) : CallEvent → CallView
  | .item name arguments =>
    { v.hear (.item name arguments) with
      known := true
      names := if name ≠ "" ∧ v.names = [] then [name] else v.names }
  | .piece delta => if v.known || sameID then v.hear (.piece delta) else v

/-- The call after an event of the stream. -/
def receiveEvent (call : ResponsesCall) (v : CallView) (event : ResponsesStreamEvent) :
    CallView :=
  match call.event event with
  | some event => v.receive (decide (call.itemID = call.callID)) event
  | none => v

end CallView

/-! ### What one call gets -/

theorem joinPieces_cons (event : CallEvent) (events : List CallEvent) :
    joinPieces (event :: events) = event.delta ++ joinPieces events := by
  rw [joinPieces, List.map_cons, String.join_cons, joinPieces]

private theorem append_eq_empty {a b : String} (h : a ++ b = "") : a = "" ∧ b = "" := by
  have hlength := congrArg String.length h
  rw [String.length_append, String.length_empty] at hlength
  exact ⟨String.length_eq_zero_iff.mp (by omega), String.length_eq_zero_iff.mp (by omega)⟩

theorem argumentsDelta_self (arguments : String) : argumentsDelta arguments arguments = "" := by
  have h := ResponsesChatState.argumentsDelta_append arguments ""
  rwa [String.append_empty] at h

namespace CallView

/-- Without an item event with arguments the pieces are kept and sent. -/
theorem foldl_hear_pieces (events : List CallEvent) :
    ∀ v : CallView, (∀ event ∈ events, event.carries = false) →
      events.foldl hear v =
        { v with
          received := v.received ++ joinPieces events
          sent := v.sent ++ joinPieces events } := by
  induction events with
  | nil =>
    intro v _
    simp [joinPieces]
  | cons event events ih =>
    intro v hquiet
    have hevent := hquiet event (List.mem_cons_self ..)
    have hrest : ∀ event ∈ events, event.carries = false :=
      fun event hmem => hquiet event (List.mem_cons_of_mem _ hmem)
    rw [List.foldl_cons, ih _ hrest, joinPieces_cons]
    cases event with
    | item name arguments =>
      have harguments : arguments = "" := by simpa [CallEvent.carries] using hevent
      simp [hear, harguments, CallEvent.delta]
    | piece delta => simp [hear, CallEvent.delta, String.append_assoc]

/-- Once the arguments have come as a whole, what follows is sent behind them, each piece at
least. -/
theorem foldl_hear_complete {whole : String} (events : List CallEvent) :
    ∀ (v : CallView) (late : String), v.received = whole ++ late →
      (∀ name arguments, .item name arguments ∈ events → arguments = "" ∨ arguments = whole) →
      ∃ more, (events.foldl hear v).sent = v.sent ++ more ∧
        (joinPieces events).length ≤ more.length ∧
        (late = "" → joinPieces events = "" → more = "") := by
  induction events with
  | nil =>
    intro v late _ _
    exact ⟨"", by simp, by simp [joinPieces], fun _ _ => rfl⟩
  | cons event events ih =>
    intro v late hreceived harguments
    have hrest : ∀ name arguments, .item name arguments ∈ events →
        arguments = "" ∨ arguments = whole :=
      fun name arguments hmem => harguments name arguments (List.mem_cons_of_mem _ hmem)
    rw [List.foldl_cons, joinPieces_cons]
    cases event with
    | item name arguments =>
      have hdelta : CallEvent.delta (.item name arguments) = "" := rfl
      rw [hdelta, String.empty_append]
      by_cases hempty : arguments = ""
      · rw [hear, if_pos hempty]
        exact ih v late hreceived hrest
      · have hwhole := (harguments name arguments (List.mem_cons_self ..)).resolve_left hempty
        subst hwhole
        rw [hear, if_neg hempty]
        obtain ⟨more, hsent, hlength, hmore⟩ := ih
          { v with
            received := arguments
            sent := v.sent ++ argumentsDelta v.received arguments } "" String.append_empty.symm hrest
        refine ⟨argumentsDelta v.received arguments ++ more, ?_, ?_, ?_⟩
        · rw [hsent, String.append_assoc]
        · rw [String.length_append]
          omega
        · rintro rfl hpieces
          rw [hreceived, String.append_empty, argumentsDelta_self, hmore rfl hpieces]
          rfl
    | piece delta =>
      obtain ⟨more, hsent, hlength, hmore⟩ := ih
        { v with received := v.received ++ delta, sent := v.sent ++ delta } (late ++ delta)
        (by rw [hreceived, String.append_assoc]) hrest
      refine ⟨delta ++ more, ?_, ?_, ?_⟩
      · rw [hear, hsent, String.append_assoc]
      · simp only [CallEvent.delta, String.length_append]
        omega
      · rintro rfl hpieces
        obtain ⟨hdelta, hevents⟩ := append_eq_empty hpieces
        have hdelta' : delta = "" := hdelta
        rw [hmore (by rw [hdelta', String.append_empty]) hevents, hdelta', String.append_empty]

/-- What is sent is the arguments exactly if the pieces before the first whole begin them and nothing
comes after it. -/
theorem sent_eq_iff {whole : String} {events : List CallEvent}
    (harguments : ∀ name arguments, .item name arguments ∈ events →
      arguments = "" ∨ arguments = whole) :
    (events.foldl hear {}).sent = whole ↔
      if (events.dropWhile fun event => !event.carries) = [] then
        joinPieces (events.takeWhile fun event => !event.carries) = whole
      else
        hasPrefix whole (joinPieces (events.takeWhile fun event => !event.carries)) = true ∧
          joinPieces (events.dropWhile fun event => !event.carries) = "" := by
  have hsplit := @List.takeWhile_append_dropWhile _ (fun event => !CallEvent.carries event) events
  have hquiet : ∀ event ∈ events.takeWhile fun event => !event.carries, event.carries = false := by
    intro event hmem
    simpa using List.mem_takeWhile_imp hmem
  have hfirst : ∀ event rest, (events.dropWhile fun event => !event.carries) = event :: rest →
      event.carries = true := by
    intro event rest heq
    have hne : (events.dropWhile fun event => !event.carries) ≠ [] := by simp [heq]
    have hhead := List.head_dropWhile_not (fun event => !CallEvent.carries event) hne
    simpa [heq] using hhead
  generalize (events.takeWhile fun event => !event.carries) = before at hsplit hquiet ⊢
  generalize (events.dropWhile fun event => !event.carries) = after at hsplit hfirst ⊢
  subst hsplit
  rw [List.foldl_append, foldl_hear_pieces before _ hquiet]
  cases after with
  | nil => simp
  | cons event rest =>
    have hcarries := hfirst event rest rfl
    cases event with
    | piece delta => simp [CallEvent.carries] at hcarries
    | item name arguments =>
      have hne : arguments ≠ "" := by simpa [CallEvent.carries] using hcarries
      have hwhole := (harguments name arguments (by simp)).resolve_left hne
      subst hwhole
      have hrest : ∀ name' arguments', .item name' arguments' ∈ rest →
          arguments' = "" ∨ arguments' = arguments :=
        fun name' arguments' hmem => harguments name' arguments' (by simp [hmem])
      obtain ⟨more, hsent, hlength, hmore⟩ := foldl_hear_complete rest
        { ({} : CallView) with
          received := arguments
          sent := joinPieces before ++ argumentsDelta (joinPieces before) arguments } ""
        String.append_empty.symm hrest
      have hdelta : CallEvent.delta (.item name arguments) = "" := rfl
      simp only [List.foldl_cons, hear, if_neg hne, String.empty_append, reduceCtorEq, if_false,
        joinPieces_cons, hdelta, hsent]
      by_cases hstarts : hasPrefix arguments (joinPieces before) = true
      · have hbegins : joinPieces before ++ argumentsDelta (joinPieces before) arguments =
            arguments := by
          rw [argumentsDelta, if_pos hstarts]
          rw [hasPrefix, List.isPrefixOf_iff_prefix] at hstarts
          obtain ⟨tail, htail⟩ := hstarts
          rw [← String.toList_inj, String.toList_append, String.toList_ofList, ← htail,
            List.drop_left]
        rw [hbegins]
        constructor
        · intro heq
          refine ⟨hstarts, String.length_eq_zero_iff.mp ?_⟩
          have hlengths := congrArg String.length heq
          rw [String.length_append] at hlengths
          omega
        · rintro ⟨_, hnone⟩
          rw [hmore rfl hnone, String.append_empty]
      · rw [argumentsDelta, if_neg hstarts]
        constructor
        · intro heq
          -- the arguments follow something, which is then nothing, and begins them
          have hlengths := congrArg String.length heq
          simp only [String.length_append] at hlengths
          have hbefore : joinPieces before = "" := String.length_eq_zero_iff.mp (by omega)
          rw [hbefore] at hstarts
          exact absurd (by simp [hasPrefix]) hstarts
        · rintro ⟨hbegins, _⟩
          exact absurd hbegins hstarts

/-- Once the item is known every event is heard. -/
theorem foldl_receive_known {sameID : Bool} (events : List CallEvent) :
    ∀ v w : CallView, (v.known || sameID) = true → v.received = w.received → v.sent = w.sent →
      (events.foldl (receive sameID) v).sent = (events.foldl hear w).sent := by
  induction events with
  | nil =>
    intro v w _ _ hsent
    exact hsent
  | cons event events ih =>
    intro v w hknown hreceived hsent
    rw [List.foldl_cons, List.foldl_cons]
    cases event with
    | item name arguments =>
      refine ih _ _ rfl ?_ ?_
      · by_cases hempty : arguments = ""
        · simp [receive, hear, hempty, hreceived]
        · simp [receive, hear, hempty]
      · by_cases hempty : arguments = ""
        · simp [receive, hear, hempty, hsent]
        · simp [receive, hear, hempty, hreceived, hsent]
    | piece delta =>
      rw [receive, if_pos hknown]
      exact ih _ _ hknown (by simp [hear, hreceived]) (by simp [hear, hsent])

/-- Until the item is known the pieces are not heard. -/
theorem foldl_receive_unknown (events : List CallEvent) :
    ∀ v : CallView, v.known = false →
      (events.foldl (receive false) v).sent =
        ((events.dropWhile CallEvent.isPiece).foldl hear v).sent := by
  induction events with
  | nil =>
    intro v _
    rfl
  | cons event events ih =>
    intro v hknown
    cases event with
    | item name arguments =>
      have hdrop : (CallEvent.item name arguments :: events).dropWhile CallEvent.isPiece =
          .item name arguments :: events := rfl
      rw [hdrop, List.foldl_cons, List.foldl_cons]
      exact foldl_receive_known events _ _ rfl rfl rfl
    | piece delta =>
      have hdrop : (CallEvent.piece delta :: events).dropWhile CallEvent.isPiece =
          events.dropWhile CallEvent.isPiece := rfl
      have hskip : v.receive false (.piece delta) = v := by simp [receive, hknown]
      rw [hdrop, List.foldl_cons, hskip]
      exact ih v hknown

/-- The name of a call is sent with the first event that has it. -/
theorem foldl_receive_names {sameID : Bool} {name : String} (hname : name ≠ "")
    (events : List CallEvent) :
    ∀ v : CallView, (∀ name' arguments, .item name' arguments ∈ events → name' = "" ∨ name' = name) →
      v.names = [name] ∨ (v.names = [] ∧ ∃ arguments, .item name arguments ∈ events) →
      (events.foldl (receive sameID) v).names = [name] := by
  induction events with
  | nil =>
    rintro v _ (hsent | ⟨_, _, hmem⟩)
    · exact hsent
    · simp at hmem
  | cons event events ih =>
    intro v hnames hnamed
    have hrest : ∀ name' arguments, .item name' arguments ∈ events → name' = "" ∨ name' = name :=
      fun name' arguments hmem => hnames name' arguments (List.mem_cons_of_mem _ hmem)
    rw [List.foldl_cons]
    refine ih _ hrest ?_
    cases event with
    | piece delta =>
      have hkeep : (v.receive sameID (.piece delta)).names = v.names := by
        rw [receive]
        split <;> rfl
      rw [hkeep]
      rcases hnamed with hsent | ⟨hnone, arguments, hmem⟩
      · exact Or.inl hsent
      · exact Or.inr ⟨hnone, arguments, by simpa using hmem⟩
    | item name' arguments' =>
      have hthis := hnames name' arguments' (List.mem_cons_self ..)
      rcases hnamed with hsent | ⟨hnone, arguments, hmem⟩
      · exact Or.inl (by simp [receive, hsent])
      · rcases hthis with rfl | rfl
        · refine Or.inr ⟨by simp [receive, hnone], arguments, ?_⟩
          simpa [Ne.symm hname, hname] using hmem
        · exact Or.inl (by simp [receive, hnone, hname])

end CallView

/-! ### The pieces that are sent -/

theorem sentTools_append (a b : List ChatCompletionsStreamResponse) :
    sentTools (a ++ b) = sentTools a ++ sentTools b := by
  rw [sentTools, List.flatMap_append, sentTools, sentTools]

theorem sentTools_oneChoice (id model : String) (delta : ChatCompletionsStreamResponseChoiceDelta)
    (finishReason : Option String) :
    sentTools [oneChoice id model delta finishReason] = delta.toolCalls := by
  simp [sentTools, oneChoice]

theorem argumentsOf_concat (callID : String) (tools : List ToolCallResponse)
    (tool : ToolCallResponse) :
    argumentsOf callID (tools ++ [tool]) =
      argumentsOf callID tools ++ if tool.id = callID then tool.arguments else "" := by
  by_cases hid : tool.id = callID
  · simp [argumentsOf, hid, String.join_append]
  · simp [argumentsOf, hid]

theorem namesOf_concat (callID : String) (tools : List ToolCallResponse) (tool : ToolCallResponse) :
    namesOf callID (tools ++ [tool]) =
      namesOf callID tools ++ if tool.id = callID ∧ tool.name ≠ "" then [tool.name] else [] := by
  by_cases hid : tool.id = callID
  · by_cases hname : tool.name = ""
    · simp [namesOf, hid, hname]
    · simp [namesOf, hid, hname]
  · simp [namesOf, hid]

namespace ResponsesChatState

variable {responseId : String} {s : ResponsesChatState}

theorem sentTools_start (s : ResponsesChatState) :
    sentTools (s.sendStartIfNeeded responseId).sent = sentTools s.sent := by
  rw [sendStartIfNeeded]
  split
  · rfl
  · simp only [generateStartEmptyResponse, sentTools_append, sentTools_oneChoice, List.append_nil]

/-- The tool calls of two states are the same. -/
structure SameTools (s s' : ResponsesChatState) : Prop where
  text : s'.outputText = s.outputText
  ids : s'.toolCallIDs = s.toolCallIDs
  nameByID : s'.toolCallNameByID = s.toolCallNameByID
  args : s'.toolCallArgsByID = s.toolCallArgsByID
  nameSent : s'.toolCallNameSent = s.toolCallNameSent
  canonical : s'.toolCallCanonicalIDByItemID = s.toolCallCanonicalIDByItemID
  tools : sentTools s'.sent = sentTools s.sent

theorem SameTools.refl (s : ResponsesChatState) : SameTools s s :=
  ⟨rfl, rfl, rfl, rfl, rfl, rfl, rfl⟩

theorem SameTools.trans {s s' s'' : ResponsesChatState} (h : SameTools s s')
    (h' : SameTools s' s'') : SameTools s s'' :=
  ⟨h'.text.trans h.text, h'.ids.trans h.ids, h'.nameByID.trans h.nameByID, h'.args.trans h.args,
    h'.nameSent.trans h.nameSent, h'.canonical.trans h.canonical, h'.tools.trans h.tools⟩

theorem sameTools_start (s : ResponsesChatState) :
    SameTools s (s.sendStartIfNeeded responseId) := by
  have htools := @sentTools_start responseId s
  obtain ⟨sentStart, sent, heq⟩ := @sendStartIfNeeded_same responseId s
  rw [heq] at htools ⊢
  exact ⟨rfl, rfl, rfl, rfl, rfl, rfl, htools⟩

theorem sameTools_stop (s : ResponsesChatState) : SameTools s (s.sendStop responseId) := by
  rw [sendStop]
  split
  · exact .refl s
  · refine ⟨rfl, rfl, rfl, rfl, rfl, rfl, ?_⟩
    simp only [generateStopResponse, sentTools_append, sentTools_oneChoice, List.append_nil]

theorem sameTools_summary (delta : String) (s : ResponsesChatState) :
    SameTools s (s.sendReasoningSummaryDelta responseId delta) := by
  rw [sendReasoningSummaryDelta]
  split
  · exact .refl s
  · have hstart := @sameTools_start responseId { s with needsReasoningSummarySeparator := false }
    refine ⟨hstart.text, hstart.ids, hstart.nameByID, hstart.args, hstart.nameSent,
      hstart.canonical, ?_⟩
    simp only [sendDelta, sentTools_append, sentTools_oneChoice, List.append_nil]
    exact hstart.tools

/-- An event that is no text and belongs to no function call changes no tool call. -/
theorem sameTools_receive {event : ResponsesStreamEvent} (hcall : event.functionCall = none)
    (hpiece : ∀ itemId delta, event ≠ .functionCallArgumentsDelta itemId delta)
    (htext : ∀ delta, event = .outputTextDelta delta → delta = "") :
    SameTools s (s.receive responseId event) := by
  cases event with
  | created model =>
    simp only [receive]
    split
    · exact ⟨rfl, rfl, rfl, rfl, rfl, rfl, rfl⟩
    · exact .refl s
  | reasoningSummaryTextDelta delta => exact sameTools_summary delta s
  | reasoningSummaryTextDone =>
    simp only [receive]
    split
    · exact ⟨rfl, rfl, rfl, rfl, rfl, rfl, rfl⟩
    · exact .refl s
  | outputTextDelta delta =>
    simp only [receive, htext delta rfl, ne_eq, not_true_eq_false, if_false]
    exact sameTools_start s
  | outputItemAdded item | outputItemDone item =>
    have htype : item.type ≠ "function_call" := by
      simpa [ResponsesStreamEvent.functionCall] using hcall
    simp only [receive, receiveItem, if_pos htype]
    exact .refl s
  | functionCallArgumentsDelta itemId delta => exact absurd rfl (hpiece itemId delta)
  | functionCallArgumentsDone => exact .refl s
  | completed model =>
    simp only [receive]
    refine SameTools.trans ?_ (sameTools_stop _)
    refine SameTools.trans ?_ (sameTools_start _)
    split
    · exact ⟨rfl, rfl, rfl, rfl, rfl, rfl, rfl⟩
    · exact .refl s

/-- A piece of a call with its index, and its name if that has not been sent. -/
structure ToolSent (s s' : ResponsesChatState) (callID name argsDelta : String) : Prop where
  text : s'.outputText = s.outputText
  args : s'.toolCallArgsByID = s.toolCallArgsByID
  canonical : s'.toolCallCanonicalIDByItemID = s.toolCallCanonicalIDByItemID
  ids : s'.toolCallIDs = addID s.toolCallIDs callID
  nameByID : ∀ k, s'.toolCallNameByID k =
    if k = callID ∧ name ≠ "" then name else s.toolCallNameByID k
  nameSent : ∀ k, s'.toolCallNameSent k =
    if k = callID ∧ s.sentName callID name ≠ "" then true else s.toolCallNameSent k
  tools : sentTools s'.sent = sentTools s.sent ++
    [⟨some ((addID s.toolCallIDs callID).idxOf callID), callID, s.sentName callID name, argsDelta⟩]

theorem toolSent {callID name argsDelta : String} (hid : callID ≠ "") (htext : s.outputText = "") :
    ToolSent s (s.sendToolCallDelta responseId callID name argsDelta) callID name argsDelta := by
  have htools := @sentTools_start responseId s
  obtain ⟨sentStart, sent, heq⟩ := @sendStartIfNeeded_same responseId s
  rw [heq] at htools
  rw [sendToolCallDelta, if_neg hid, if_neg (not_not.2 htext), heq]
  refine ⟨rfl, rfl, rfl, rfl, ?_, ?_, ?_⟩
  · intro k
    by_cases hk : k = callID
    · subst hk
      by_cases hname : name = ""
      · simp [hname]
      · simp [hname]
    · by_cases hname : name = ""
      · simp [hname]
      · simp [hname, hk]
  · intro k
    have hsent : s.sentName callID name ≠ "" ↔
        ((if (if name ≠ "" then Function.update s.toolCallNameByID callID name
          else s.toolCallNameByID) callID ≠ "" then
            (if name ≠ "" then Function.update s.toolCallNameByID callID name
              else s.toolCallNameByID) callID else name) ≠ "" ∧ ¬ s.toolCallNameSent callID) := by
      simp only [sentName]
      constructor
      · intro h
        by_contra hnot
        rw [if_neg hnot] at h
        exact h rfl
      · intro h
        rw [if_pos h]
        exact h.1
    simp only [hsent]
    by_cases hk : k = callID
    · subst hk
      split_ifs <;> simp_all
    · simp only [hk, false_and, if_false]
      split_ifs <;> simp [hk]
  · simp only [sentTools_append, sentTools_oneChoice, htools, addID, sentName, decide_eq_true_eq]

theorem sentName_eq (s : ResponsesChatState) (callID name : String) :
    s.sentName callID name =
      if s.toolCallNameSent callID = true then ""
      else if name ≠ "" then name else s.toolCallNameByID callID := by
  simp only [sentName]
  by_cases hsent : s.toolCallNameSent callID = true
  · simp [hsent]
  · by_cases hname : name = ""
    · by_cases hknown : s.toolCallNameByID callID = ""
      · simp [hname, hknown]
      · simp [hname, hknown, hsent]
    · simp [hname, hsent]

/-- The state with what an item event says of its call. -/
def noteItem (item : ResponsesOutput) (s : ResponsesChatState) : ResponsesChatState :=
  { s with
    toolCallCanonicalIDByItemID :=
      if trimSpace item.id ≠ "" ∧ item.key ≠ "" then
        Function.update s.toolCallCanonicalIDByItemID (trimSpace item.id) item.key
      else s.toolCallCanonicalIDByItemID
    toolCallNameByID :=
      if trimSpace item.name ≠ "" then
        Function.update s.toolCallNameByID item.key (trimSpace item.name)
      else s.toolCallNameByID
    toolCallArgsByID :=
      if item.arguments ≠ "" then Function.update s.toolCallArgsByID item.key item.arguments
      else s.toolCallArgsByID }

/-- Nothing is sent when an item is noted. -/
@[simp] theorem noteItem_outputText (item : ResponsesOutput) :
    (s.noteItem item).outputText = s.outputText := by
  rw [noteItem]

@[simp] theorem noteItem_sent (item : ResponsesOutput) : (s.noteItem item).sent = s.sent := by
  rw [noteItem]

@[simp] theorem noteItem_toolCallIDs (item : ResponsesOutput) :
    (s.noteItem item).toolCallIDs = s.toolCallIDs := by
  rw [noteItem]

@[simp] theorem noteItem_toolCallNameSent (item : ResponsesOutput) :
    (s.noteItem item).toolCallNameSent = s.toolCallNameSent := by
  rw [noteItem]

theorem receive_functionCall {event : ResponsesStreamEvent} {item : ResponsesOutput}
    (hcall : event.functionCall = some item) :
    s.receive responseId event =
      (s.noteItem item).sendToolCallDelta responseId item.key (trimSpace item.name)
        (if item.arguments ≠ "" then argumentsDelta (s.toolCallArgsByID item.key) item.arguments
        else "") := by
  have htype : ∀ item', (if item'.type = "function_call" then some item' else none) = some item →
      s.receiveItem responseId item' =
        (s.noteItem item).sendToolCallDelta responseId item.key (trimSpace item.name)
          (if item.arguments ≠ "" then argumentsDelta (s.toolCallArgsByID item.key) item.arguments
          else "") := by
    intro item' h
    split at h
    · rename_i htype
      injection h with h
      subst h
      rw [receiveItem, if_neg (not_not.2 htype)]
      rfl
    · cases h
  cases event with
  | outputItemAdded item' => exact htype item' hcall
  | outputItemDone item' => exact htype item' hcall
  | _ => simp [ResponsesStreamEvent.functionCall] at hcall

/-- The call that a piece for an item belongs to. -/
def pieceID (s : ResponsesChatState) (itemID : String) : String :=
  if s.toolCallCanonicalIDByItemID itemID = "" then itemID
  else s.toolCallCanonicalIDByItemID itemID

/-- The state with a piece of the arguments of a call. -/
def notePiece (callID delta : String) (s : ResponsesChatState) : ResponsesChatState :=
  { s with
    toolCallArgsByID :=
      Function.update s.toolCallArgsByID callID (s.toolCallArgsByID callID ++ delta) }

theorem receive_piece (itemId delta : String) :
    s.receive responseId (.functionCallArgumentsDelta itemId delta) =
      if s.pieceID (trimSpace itemId) = "" then s
      else
        (s.notePiece (s.pieceID (trimSpace itemId)) delta).sendToolCallDelta responseId
          (s.pieceID (trimSpace itemId)) "" delta := rfl

/-! ### Indexes -/

/-- Every piece that was sent has the index of its call. -/
structure Indexed (s : ResponsesChatState) : Prop where
  nodup : s.toolCallIDs.Nodup
  index : ∀ tool ∈ sentTools s.sent,
    tool.id ∈ s.toolCallIDs ∧ tool.index = some ((s.toolCallIDs.idxOf tool.id : ℕ) : ℤ)

theorem Indexed.same {s' : ResponsesChatState} (h : Indexed s) (hsame : SameTools s s') :
    Indexed s' := by
  refine ⟨hsame.ids ▸ h.nodup, ?_⟩
  rw [hsame.tools, hsame.ids]
  exact h.index

theorem Indexed.sent {s' : ResponsesChatState} {callID name argsDelta : String} (h : Indexed s)
    (hsent : ToolSent s s' callID name argsDelta) : Indexed s' := by
  have hmem : callID ∈ addID s.toolCallIDs callID := mem_addID.2 (.inr rfl)
  have hkeep : ∀ k ∈ s.toolCallIDs,
      (addID s.toolCallIDs callID).idxOf k = s.toolCallIDs.idxOf k := by
    intro k hk
    rw [addID]
    split
    · rfl
    · exact List.idxOf_append_of_mem hk
  refine ⟨?_, ?_⟩
  · rw [hsent.ids, addID]
    split
    · exact h.nodup
    · rename_i hnew
      rw [List.nodup_append]
      refine ⟨h.nodup, List.nodup_singleton _, ?_⟩
      intro x hx y hy heq
      exact hnew (List.mem_singleton.1 hy ▸ heq ▸ hx)
  · intro tool htool
    rw [hsent.tools, List.mem_append, List.mem_singleton] at htool
    rw [hsent.ids]
    rcases htool with hold | rfl
    · obtain ⟨hid, hindex⟩ := h.index tool hold
      exact ⟨mem_addID.2 (.inl hid), by rw [hindex, hkeep _ hid]⟩
    · exact ⟨hmem, rfl⟩

/-- The index of a call in a stream, its own and the same for all of its pieces. -/
theorem Indexed.index_iff (h : Indexed s) {callID : String} (hid : callID ∈ s.toolCallIDs) :
    ∀ tool ∈ sentTools s.sent,
      tool.id = callID ↔ tool.index = some ((s.toolCallIDs.idxOf callID : ℕ) : ℤ) := by
  intro tool htool
  obtain ⟨hmem, hindex⟩ := h.index tool htool
  constructor
  · rintro rfl
    exact hindex
  · intro heq
    rw [hindex, Option.some.injEq, Nat.cast_inj] at heq
    exact (List.idxOf_inj hmem).mp heq

/-- Noting something of a call leaves what was sent. -/
theorem Indexed.noted (h : Indexed s) (canonical nameByID argsByID : String → String) :
    Indexed { s with
      toolCallCanonicalIDByItemID := canonical
      toolCallNameByID := nameByID
      toolCallArgsByID := argsByID } :=
  ⟨h.nodup, h.index⟩

/-! ### The state for one call -/

/-- The handler's state is what one call sees of it. -/
structure Views (call : ResponsesCall) (s : ResponsesChatState) (v : CallView) : Prop where
  text : s.outputText = ""
  known : s.toolCallCanonicalIDByItemID call.itemID = if v.known = true then call.callID else ""
  others : ∀ itemID ≠ call.itemID, s.toolCallCanonicalIDByItemID itemID ≠ call.callID
  received : s.toolCallArgsByID call.callID = v.received
  sent : sentArguments call.callID s.sent = v.sent
  names : sentNames call.callID s.sent = v.names
  nameSent : s.toolCallNameSent call.callID = decide (v.names ≠ [])
  named : v.names = [] → s.toolCallNameByID call.callID = ""

section Views

variable {call : ResponsesCall} {v : CallView} {s' : ResponsesChatState}

theorem Views.same (h : Views call s v) (hsame : SameTools s s') : Views call s' v where
  text := hsame.text.trans h.text
  known := hsame.canonical ▸ h.known
  others := hsame.canonical ▸ h.others
  received := hsame.args ▸ h.received
  sent := by
    rw [sentArguments, hsame.tools]
    exact h.sent
  names := by
    rw [sentNames, hsame.tools]
    exact h.names
  nameSent := hsame.nameSent ▸ h.nameSent
  named := hsame.nameByID ▸ h.named

/-- A piece for another identifier. -/
theorem Views.sendOther (h : Views call s v) {callID name argsDelta : String}
    (hother : callID ≠ call.callID) (hsent : ToolSent s s' callID name argsDelta) :
    Views call s' v where
  text := hsent.text.trans h.text
  known := hsent.canonical ▸ h.known
  others := hsent.canonical ▸ h.others
  received := hsent.args ▸ h.received
  sent := by
    rw [sentArguments, hsent.tools, argumentsOf_concat, if_neg hother, String.append_empty]
    exact h.sent
  names := by
    rw [sentNames, hsent.tools, namesOf_concat, if_neg fun hboth => hother hboth.1,
      List.append_nil]
    exact h.names
  nameSent := by
    rw [hsent.nameSent, if_neg fun hboth => hother hboth.1.symm]
    exact h.nameSent
  named := by
    rw [hsent.nameByID, if_neg fun hboth => hother hboth.1.symm]
    exact h.named

/-- The name that goes with a piece is the one given, unless a name has been sent. -/
theorem Views.sentName (h : Views call s v) (name : String) :
    s.sentName call.callID name = if v.names = [] then name else "" := by
  rw [sentName_eq, h.nameSent]
  by_cases hnames : v.names = []
  · by_cases hname : name = ""
    · simp [hnames, hname, h.named hnames]
    · simp [hnames, hname]
  · simp [hnames]

/-- A piece of the arguments of the call. -/
theorem Views.sendPiece (h : Views call s v) {delta : String}
    (hsent : ToolSent (s.notePiece call.callID delta) s' call.callID "" delta) :
    Views call s' (v.hear (.piece delta)) := by
  have hname : (s.notePiece call.callID delta).sentName call.callID "" = "" := by
    have heq := h.sentName ""
    rw [ite_self] at heq
    exact heq
  exact {
    text := hsent.text.trans h.text
    known := hsent.canonical ▸ h.known
    others := hsent.canonical ▸ h.others
    received := by
      rw [hsent.args]
      simp [notePiece, CallView.hear, h.received]
    sent := by
      rw [sentArguments, hsent.tools, argumentsOf_concat, if_pos rfl]
      exact congrArg (· ++ delta) h.sent
    names := by
      rw [sentNames, hsent.tools, namesOf_concat, hname, if_neg fun hboth => hboth.2 rfl,
        List.append_nil]
      exact h.names
    nameSent := by
      rw [hsent.nameSent, hname, if_neg fun hboth => hboth.2 rfl]
      exact h.nameSent
    named := by
      rw [hsent.nameByID, if_neg fun hboth => hboth.2 rfl]
      exact h.named }

/-- An item event of the call. -/
theorem Views.sendItem (h : Views call s v) {item : ResponsesOutput} (sameID : Bool)
    (hitem : trimSpace item.id = call.itemID) (hkey : item.key = call.callID)
    (hitemID : call.itemID ≠ "") (hcallID : call.callID ≠ "")
    (hsent : ToolSent (s.noteItem item) s' call.callID (trimSpace item.name)
      (if item.arguments ≠ "" then argumentsDelta (s.toolCallArgsByID call.callID) item.arguments
      else "")) :
    Views call s' (v.receive sameID (.item (trimSpace item.name) item.arguments)) := by
  have hnote : (s.noteItem item).toolCallCanonicalIDByItemID =
      Function.update s.toolCallCanonicalIDByItemID call.itemID call.callID := by
    simp only [noteItem, hitem, hkey, ne_eq, hitemID, hcallID, not_false_eq_true, and_self, if_true]
  have hname : (s.noteItem item).sentName call.callID (trimSpace item.name) =
      if v.names = [] then trimSpace item.name else "" := by
    rw [sentName_eq, noteItem_toolCallNameSent, h.nameSent]
    by_cases hnames : v.names = []
    · by_cases hempty : trimSpace item.name = ""
      · simp [noteItem, hnames, hempty, h.named hnames]
      · simp [hnames, hempty]
    · simp [hnames]
  exact {
    text := by
      rw [hsent.text, noteItem_outputText]
      exact h.text
    known := by
      rw [hsent.canonical, hnote]
      simp [CallView.receive]
    others := by
      intro itemID hne
      rw [hsent.canonical, hnote, Function.update_of_ne hne]
      exact h.others itemID hne
    received := by
      rw [hsent.args]
      by_cases hempty : item.arguments = ""
      · simp [noteItem, CallView.receive, CallView.hear, hempty, h.received]
      · simp [noteItem, CallView.receive, CallView.hear, hempty, hkey]
    sent := by
      have hold : argumentsOf call.callID (sentTools (s.noteItem item).sent) = v.sent := by
        rw [noteItem_sent]
        exact h.sent
      rw [sentArguments, hsent.tools, argumentsOf_concat, if_pos rfl, hold]
      by_cases hempty : item.arguments = ""
      · simp [CallView.receive, CallView.hear, hempty]
      · simp [CallView.receive, CallView.hear, hempty, h.received]
    names := by
      have hold : namesOf call.callID (sentTools (s.noteItem item).sent) = v.names := by
        rw [noteItem_sent]
        exact h.names
      rw [sentNames, hsent.tools, namesOf_concat, hname, hold]
      by_cases hnames : v.names = []
      · by_cases hempty : trimSpace item.name = ""
        · simp [CallView.receive, hnames, hempty]
        · simp [CallView.receive, hnames, hempty]
      · simp [CallView.receive, hnames]
    nameSent := by
      rw [hsent.nameSent, hname, noteItem_toolCallNameSent, h.nameSent]
      by_cases hnames : v.names = []
      · by_cases hempty : trimSpace item.name = ""
        · simp [CallView.receive, hnames, hempty]
        · simp [CallView.receive, hnames, hempty]
      · simp [CallView.receive, hnames]
    named := by
      intro hnone
      have hnames : v.names = [] ∧ trimSpace item.name = "" := by
        by_cases hempty : trimSpace item.name = ""
        · refine ⟨?_, hempty⟩
          simpa [CallView.receive, hempty] using hnone
        · by_cases hnames : v.names = []
          · simp [CallView.receive, hempty, hnames] at hnone
          · simp [CallView.receive, hnames] at hnone
      rw [hsent.nameByID, if_neg fun hboth => hboth.2 hnames.2]
      simp [noteItem, hnames.2, h.named hnames.1] }

/-- What is noted of other calls does not concern the call. -/
theorem Views.notePiece (h : Views call s v) {callID : String} (hother : callID ≠ call.callID)
    (delta : String) : Views call (s.notePiece callID delta) v where
  text := h.text
  known := h.known
  others := h.others
  received := (Function.update_of_ne hother.symm _ _).trans h.received
  sent := h.sent
  names := h.names
  nameSent := h.nameSent
  named := h.named

theorem Views.noteItem (h : Views call s v) {item : ResponsesOutput}
    (hitem : trimSpace item.id ≠ call.itemID) (hkey : item.key ≠ call.callID) :
    Views call (s.noteItem item) v where
  text := by
    rw [noteItem_outputText]
    exact h.text
  known := by
    simp only [ResponsesChatState.noteItem]
    split
    · rw [Function.update_of_ne hitem.symm]
      exact h.known
    · exact h.known
  others := by
    intro itemID hne
    simp only [ResponsesChatState.noteItem]
    split
    · by_cases hsame : itemID = trimSpace item.id
      · rw [hsame, Function.update_self]
        exact hkey
      · rw [Function.update_of_ne hsame]
        exact h.others itemID hne
    · exact h.others itemID hne
  received := by
    simp only [ResponsesChatState.noteItem]
    split
    · rw [Function.update_of_ne hkey.symm]
      exact h.received
    · exact h.received
  sent := by
    rw [noteItem_sent]
    exact h.sent
  names := by
    rw [noteItem_sent]
    exact h.names
  nameSent := by
    rw [noteItem_toolCallNameSent]
    exact h.nameSent
  named := by
    intro hnone
    simp only [ResponsesChatState.noteItem]
    split
    · rw [Function.update_of_ne hkey.symm]
      exact h.named hnone
    · exact h.named hnone

/-- What is asked of one event of the stream. -/
structure Distinguished (call : ResponsesCall) (event : ResponsesStreamEvent) : Prop where
  text : ∀ delta, event = .outputTextDelta delta → delta = ""
  present : ∀ item, event.functionCall = some item →
    trimSpace item.id ≠ "" ∧ trimSpace item.callId ≠ ""
  ids : ∀ item, event.functionCall = some item →
    (trimSpace item.id = call.itemID ↔ trimSpace item.callId = call.callID)
  pieceIDs : ∀ itemId delta, event = .functionCallArgumentsDelta itemId delta →
    trimSpace itemId = call.callID → call.itemID = call.callID

/-- **The handler serves the call as if it were alone.** -/
theorem Views.receive (h : Views call s v) {event : ResponsesStreamEvent}
    (hevent : Distinguished call event) (hitemID : call.itemID ≠ "") (hcallID : call.callID ≠ "") :
    Views call (s.receive responseId event) (v.receiveEvent call event) := by
  cases hfunction : event.functionCall with
  | some item =>
    obtain ⟨hid, hcallId⟩ := hevent.present item hfunction
    have hkey : item.key = trimSpace item.callId := by
      rw [ResponsesOutput.key, if_neg hcallId]
    rw [receive_functionCall hfunction, CallView.receiveEvent]
    by_cases hown : trimSpace item.id = call.itemID
    · have hkey' : item.key = call.callID := hkey.trans ((hevent.ids item hfunction).mp hown)
      have heq : call.event event = some (.item (trimSpace item.name) item.arguments) := by
        simp only [ResponsesCall.event, hfunction, if_pos hown]
      rw [heq, hkey']
      have htext : (s.noteItem item).outputText = "" := by
        rw [noteItem_outputText]
        exact h.text
      exact h.sendItem _ hown hkey' hitemID hcallID (toolSent hcallID htext)
    · have hkey' : item.key ≠ call.callID := by
        intro heq
        exact hown ((hevent.ids item hfunction).mpr (hkey.symm.trans heq))
      have heq : call.event event = none := by
        simp only [ResponsesCall.event, hfunction, if_neg hown]
      rw [heq]
      have hnoted := h.noteItem hown hkey'
      exact hnoted.sendOther hkey' (toolSent (hkey ▸ hcallId) hnoted.text)
  | none =>
    by_cases hpiece : ∃ itemId delta, event = .functionCallArgumentsDelta itemId delta
    · obtain ⟨itemId, delta, rfl⟩ := hpiece
      rw [receive_piece, CallView.receiveEvent]
      by_cases hown : trimSpace itemId = call.itemID
      · have heq : call.event (.functionCallArgumentsDelta itemId delta) = some (.piece delta) := by
          simp only [ResponsesCall.event, hfunction, if_pos hown]
        rw [heq, hown, pieceID, h.known]
        cases hknown : v.known with
        | true =>
          simp only [if_true, if_neg hcallID, CallView.receive, hknown, Bool.true_or]
          exact h.sendPiece (toolSent hcallID h.text)
        | false =>
          simp only [Bool.false_eq_true, if_false, if_true, if_neg hitemID, CallView.receive, hknown,
            Bool.false_or, decide_eq_true_eq]
          by_cases hsame : call.itemID = call.callID
          · rw [if_pos hsame, hsame]
            exact h.sendPiece (toolSent hcallID h.text)
          · -- the item is not known yet, and the piece goes to a call that has its identifier
            rw [if_neg hsame]
            have hnoted := h.notePiece hsame delta
            exact hnoted.sendOther hsame (toolSent hitemID hnoted.text)
      · have heq : call.event (.functionCallArgumentsDelta itemId delta) = none := by
          simp only [ResponsesCall.event, hfunction, if_neg hown]
        have hother : s.pieceID (trimSpace itemId) ≠ call.callID := by
          rw [pieceID]
          split
          · intro hid
            exact hown (hid.trans (hevent.pieceIDs itemId delta rfl hid).symm)
          · exact h.others _ hown
        rw [heq]
        split
        · exact h
        · rename_i hid
          have hnoted := h.notePiece hother delta
          exact hnoted.sendOther hother (toolSent hid hnoted.text)
    · have hpiece' : ∀ itemId delta, event ≠ .functionCallArgumentsDelta itemId delta :=
        fun itemId delta heq => hpiece ⟨itemId, delta, heq⟩
      have heq : call.event event = none := by
        unfold ResponsesCall.event
        rw [hfunction]
        cases event with
        | functionCallArgumentsDelta itemId delta => exact absurd rfl (hpiece' itemId delta)
        | _ => rfl
      rw [CallView.receiveEvent, heq]
      exact h.same (sameTools_receive hfunction hpiece' hevent.text)

end Views

/-- Every event of a stream without text keeps the indexes. -/
theorem Indexed.receive (h : Indexed s) (htext : s.outputText = "") {event : ResponsesStreamEvent}
    (hdelta : ∀ delta, event = .outputTextDelta delta → delta = "") :
    Indexed (s.receive responseId event) ∧ (s.receive responseId event).outputText = "" := by
  cases hfunction : event.functionCall with
  | some item =>
    have hnoted : Indexed (s.noteItem item) := by
      rw [noteItem]
      exact h.noted _ _ _
    have htext' : (s.noteItem item).outputText = "" := by
      rw [noteItem_outputText]
      exact htext
    rw [receive_functionCall hfunction]
    by_cases hkey : item.key = ""
    · rw [hkey, sendToolCallDelta_of_empty]
      exact ⟨hnoted, htext'⟩
    · have hsent := @toolSent responseId (s.noteItem item) _ (trimSpace item.name)
        (if item.arguments ≠ "" then argumentsDelta (s.toolCallArgsByID item.key) item.arguments
        else "") hkey htext'
      exact ⟨hnoted.sent hsent, hsent.text.trans htext'⟩
  | none =>
    by_cases hpiece : ∃ itemId delta, event = .functionCallArgumentsDelta itemId delta
    · obtain ⟨itemId, delta, rfl⟩ := hpiece
      rw [receive_piece]
      split
      · exact ⟨h, htext⟩
      · rename_i hid
        have hsent := @toolSent responseId (s.notePiece (s.pieceID (trimSpace itemId)) delta) _ ""
          delta hid htext
        exact ⟨Indexed.sent (h.noted _ _ _) hsent, hsent.text.trans htext⟩
    · have hsame := @sameTools_receive responseId s event hfunction
        (fun itemId delta heq => hpiece ⟨itemId, delta, heq⟩) hdelta
      exact ⟨h.same hsame, hsame.text.trans htext⟩

/-! ### Runs -/

theorem callView_events (call : ResponsesCall) (events : List ResponsesStreamEvent) :
    ∀ v : CallView, events.foldl (CallView.receiveEvent call) v =
      (call.events events).foldl (CallView.receive (decide (call.itemID = call.callID))) v := by
  induction events with
  | nil =>
    intro v
    rfl
  | cons event events ih =>
    intro v
    rw [List.foldl_cons, ih]
    simp only [ResponsesCall.events, List.filterMap_cons, CallView.receiveEvent]
    cases call.event event with
    | none => rfl
    | some callEvent => rfl

theorem views_run {call : ResponsesCall} (hitemID : call.itemID ≠ "") (hcallID : call.callID ≠ "")
    (events : List ResponsesStreamEvent) :
    ∀ (s : ResponsesChatState) (v : CallView), Views call s v → Indexed s →
      (∀ event ∈ events, Distinguished call event) →
      Views call (events.foldl (receive responseId) s)
        (events.foldl (CallView.receiveEvent call) v) ∧
      Indexed (events.foldl (receive responseId) s) := by
  induction events with
  | nil =>
    intro s v h hindexed _
    exact ⟨h, hindexed⟩
  | cons event events ih =>
    intro s v h hindexed hevents
    have hevent := hevents event (List.mem_cons_self ..)
    rw [List.foldl_cons, List.foldl_cons]
    refine ih _ _ (h.receive hevent hitemID hcallID) (hindexed.receive h.text hevent.text).1 ?_
    exact fun event hmem => hevents event (List.mem_cons_of_mem _ hmem)

theorem views_start {call : ResponsesCall} (hcallID : call.callID ≠ "") (model : String) :
    Views call { model } {} where
  text := rfl
  known := rfl
  others := fun _ _ heq => hcallID heq.symm
  received := rfl
  sent := rfl
  names := rfl
  nameSent := rfl
  named := fun _ => rfl

theorem indexed_start (model : String) : Indexed { model } where
  nodup := List.nodup_nil
  index := by simp [sentTools]

end ResponsesChatState

/-! ### The tool calls of a stream -/

/-- The client has the arguments of the call and its name once each, and an index belongs to this
call alone. -/
def ToolCallSent (call : ResponsesCall) (chunks : List ChatCompletionsStreamResponse) : Prop :=
  sentArguments call.callID chunks = call.arguments ∧ sentNames call.callID chunks = [call.name] ∧
    ∃ index, ∀ tool ∈ sentTools chunks, tool.id = call.callID ↔ tool.index = some index

section Handler

variable {events : List ResponsesStreamEvent} {call : ResponsesCall}

theorem distinguished_of_mem (hids : IdsPresent events) (htext : NoOutputText events)
    (hcall : call.Streamed events) :
    ∀ event ∈ events, ResponsesChatState.Distinguished call event := by
  intro event hmem
  refine ⟨?_, hids event hmem, hcall.ids event hmem, ?_⟩
  · rintro delta rfl
    exact htext delta hmem
  · rintro itemId delta rfl
    exact hcall.pieceIDs itemId delta hmem

/-- The end of a stream has no tool call. -/
theorem sentTools_handler (responseId model : String) (usage : Option OpenAIUsage)
    (events : List ResponsesStreamEvent) :
    sentTools (oaiResponsesToChatStreamHandler responseId model usage events) =
      sentTools (((events.foldl (ResponsesChatState.receive responseId)
        { model }).sendStartIfNeeded responseId).sendStop responseId).sent := by
  simp only [oaiResponsesToChatStreamHandler, sentTools_append]
  cases usage with
  | none => exact List.append_nil _
  | some usage => exact List.append_nil _

/-- What a call gets of a stream, in whatever order the events of the calls come. -/
theorem callView_run (responseId model : String) (usage : Option OpenAIUsage)
    (hids : IdsPresent events) (htext : NoOutputText events) (hcall : call.Streamed events) :
    let v := (call.events events).foldl
      (CallView.receive (decide (call.itemID = call.callID))) {}
    let chunks := oaiResponsesToChatStreamHandler responseId model usage events
    sentArguments call.callID chunks = v.sent ∧ sentNames call.callID chunks = v.names ∧
      ((∃ tool ∈ sentTools chunks, tool.id = call.callID) →
        ∃ index, ∀ tool ∈ sentTools chunks, tool.id = call.callID ↔ tool.index = some index) := by
  intro v chunks
  obtain ⟨hviews, hindexed⟩ := @ResponsesChatState.views_run responseId call hcall.itemID_ne
    hcall.callID_ne events { model } {} (ResponsesChatState.views_start hcall.callID_ne model)
    (ResponsesChatState.indexed_start model) (distinguished_of_mem hids htext hcall)
  rw [ResponsesChatState.callView_events] at hviews
  have hend := ResponsesChatState.SameTools.trans
    (@ResponsesChatState.sameTools_start responseId
      (events.foldl (ResponsesChatState.receive responseId) { model }))
    (@ResponsesChatState.sameTools_stop responseId _)
  have hviews' := hviews.same hend
  have hindexed' := hindexed.same hend
  have hchunks := sentTools_handler responseId model usage events
  refine ⟨?_, ?_, ?_⟩
  · exact (congrArg (argumentsOf call.callID) hchunks).trans hviews'.sent
  · exact (congrArg (namesOf call.callID) hchunks).trans hviews'.names
  · simp only [chunks, hchunks]
    rintro ⟨tool, htool, hid⟩
    exact ⟨_, hindexed'.index_iff (hid ▸ (hindexed'.index tool htool).1)⟩

/-- **A call's arguments and its name are sent once, under an index of its own, exactly if its pieces
fit.** -/
theorem tool_call_sent_once (responseId model : String) (usage : Option OpenAIUsage)
    (hids : IdsPresent events) (htext : NoOutputText events) (hcall : call.Streamed events) :
    ToolCallSent call (oaiResponsesToChatStreamHandler responseId model usage events) ↔
      call.PiecesFit events := by
  obtain ⟨hsent, hnames, hindex⟩ := callView_run responseId model usage hids htext hcall
  have hname := @CallView.foldl_receive_names (decide (call.itemID = call.callID)) _
    hcall.name_ne (call.events events) {} hcall.names (Or.inr ⟨rfl, hcall.named⟩)
  rw [hname] at hnames
  have hheard : ((call.events events).foldl
      (CallView.receive (decide (call.itemID = call.callID))) {}).sent =
        ((call.heard (call.events events)).foldl CallView.hear {}).sent := by
    rw [ResponsesCall.heard]
    by_cases hsame : call.itemID = call.callID
    · simp only [hsame, decide_true, if_true]
      exact CallView.foldl_receive_known _ _ _ rfl rfl rfl
    · simp only [hsame, decide_false, if_false]
      exact CallView.foldl_receive_unknown _ _ rfl
  have harguments : ∀ name arguments, .item name arguments ∈ call.heard (call.events events) →
      arguments = "" ∨ arguments = call.arguments := by
    intro name arguments hmem
    refine hcall.arguments name arguments ?_
    rw [ResponsesCall.heard] at hmem
    split at hmem
    · exact hmem
    · exact (List.dropWhile_sublist _).subset hmem
  have hiff := CallView.sent_eq_iff harguments
  have hsome : ∃ tool ∈ sentTools (oaiResponsesToChatStreamHandler responseId model usage events),
      tool.id = call.callID := by
    have hmem : call.name ∈ sentNames call.callID
        (oaiResponsesToChatStreamHandler responseId model usage events) := by simp [hnames]
    simp only [sentNames, namesOf, List.mem_filter, List.mem_map, decide_eq_true_eq] at hmem
    obtain ⟨⟨tool, ⟨htool, hid⟩, _⟩, _⟩ := hmem
    exact ⟨tool, htool, hid⟩
  rw [ToolCallSent, hsent, hheard, ResponsesCall.PiecesFit]
  constructor
  · rintro ⟨heq, _⟩
    exact hiff.mp heq
  · intro hfit
    exact ⟨hiff.mpr hfit, hnames, hindex hsome⟩

end Handler

/-! ### Two calls, and a piece that comes early -/

/-- The weather in a town. -/
def weatherCall : ResponsesCall := ⟨"fc_1", "call_1", "weather", "[1]"⟩

/-- The time there. -/
def timeCall : ResponsesCall := ⟨"fc_2", "call_2", "time", "[2]"⟩

/-- The item of a call with some of its arguments. -/
def ResponsesCall.output (call : ResponsesCall) (arguments : String) : ResponsesOutput where
  type := "function_call"
  id := call.itemID
  callId := call.callID
  name := call.name
  arguments := arguments

/-- The events of the two calls in turn. -/
def mixedCalls : List ResponsesStreamEvent :=
  [.outputItemAdded (weatherCall.output ""), .outputItemAdded (timeCall.output ""),
    .functionCallArgumentsDelta "fc_1" "[1", .functionCallArgumentsDelta "fc_2" "[2",
    .functionCallArgumentsDelta "fc_1" "]", .outputItemDone (weatherCall.output "[1]"),
    .functionCallArgumentsDelta "fc_2" "]", .outputItemDone (timeCall.output "[2]")]

/-- The first piece of a call comes before its item. -/
def earlyPiece : List ResponsesStreamEvent :=
  [.functionCallArgumentsDelta "fc_1" "[1", .outputItemAdded (weatherCall.output ""),
    .functionCallArgumentsDelta "fc_1" "]", .outputItemDone (weatherCall.output "[1]")]

theorem weather_event_mixed : weatherCall.events mixedCalls =
    [.item "weather" "", .piece "[1", .piece "]", .item "weather" "[1]"] := by
  decide

theorem weather_event_early : weatherCall.events earlyPiece =
    [.piece "[1", .item "weather" "", .piece "]", .item "weather" "[1]"] := by
  decide

/-- The identifiers of the two calls as they are sent. -/
theorem trim_ids : trimSpace "fc_1" = "fc_1" ∧ trimSpace "fc_2" = "fc_2" ∧
    trimSpace "call_1" = "call_1" ∧ trimSpace "call_2" = "call_2" := by
  decide

/-- A stream with the items and the pieces of the first call. -/
theorem weather_streamed {events : List ResponsesStreamEvent}
    (hids : ∀ event ∈ events, ∀ item, event.functionCall = some item →
      (trimSpace item.id = weatherCall.itemID ↔ trimSpace item.callId = weatherCall.callID))
    (hpieces : ∀ itemId delta, .functionCallArgumentsDelta itemId delta ∈ events →
      itemId = "fc_1" ∨ itemId = "fc_2")
    (hitems : ∀ name arguments, .item name arguments ∈ weatherCall.events events ↔
      name = "weather" ∧ (arguments = "" ∨ arguments = "[1]"))
    (hjoin : joinPieces (weatherCall.events events) = "[1]") : weatherCall.Streamed events where
  itemID_ne := by decide
  callID_ne := by decide
  name_ne := by decide
  ids := hids
  pieceIDs := by
    intro itemId delta hmem hid
    rcases hpieces itemId delta hmem with rfl | rfl
    · rw [trim_ids.1] at hid
      exact absurd hid (by decide)
    · rw [trim_ids.2.1] at hid
      exact absurd hid (by decide)
  names := fun name arguments hmem => Or.inr ((hitems name arguments).mp hmem).1
  named := ⟨"", (hitems _ _).mpr ⟨rfl, Or.inl rfl⟩⟩
  arguments := fun name arguments hmem => ((hitems name arguments).mp hmem).2
  complete := Or.inl hjoin

theorem weather_streamed_mixed : weatherCall.Streamed mixedCalls := by
  refine weather_streamed ?_ ?_ ?_ ?_
  · simp [mixedCalls, ResponsesStreamEvent.functionCall, ResponsesCall.output, weatherCall,
      timeCall, trim_ids]
  · simp [mixedCalls]
    grind
  · simp [weather_event_mixed]
    grind
  · rw [weather_event_mixed]
    decide

theorem weather_streamed_early : weatherCall.Streamed earlyPiece := by
  refine weather_streamed ?_ ?_ ?_ ?_
  · simp [earlyPiece, ResponsesStreamEvent.functionCall, ResponsesCall.output, weatherCall,
      trim_ids]
  · simp [earlyPiece]
    grind
  · simp [weather_event_early]
    grind
  · rw [weather_event_early]
    decide

/-- Two calls whose events are mixed are sent apart. -/
theorem tool_call_sent_once_mixed :
    ToolCallSent weatherCall (oaiResponsesToChatStreamHandler "r" "m" none mixedCalls) :=
  (tool_call_sent_once "r" "m" none
    (by simp [IdsPresent, mixedCalls, ResponsesStreamEvent.functionCall, ResponsesCall.output,
      weatherCall, timeCall, trim_ids])
    (by simp [NoOutputText, mixedCalls])
    weather_streamed_mixed).mpr (by decide)

/-- A piece that comes before its item is sent again with the rest. -/
theorem early_piece_sent_again :
    ¬ ∀ (responseId model : String) (usage : Option OpenAIUsage)
        (events : List ResponsesStreamEvent) (call : ResponsesCall),
      IdsPresent events → NoOutputText events → call.Streamed events →
        ToolCallSent call (oaiResponsesToChatStreamHandler responseId model usage events) := by
  intro h
  have hsent := (h "r" "m" none earlyPiece weatherCall
    (by simp [IdsPresent, earlyPiece, ResponsesStreamEvent.functionCall, ResponsesCall.output,
      weatherCall, trim_ids])
    (by simp [NoOutputText, earlyPiece])
    weather_streamed_early).1
  have htwice : sentArguments weatherCall.callID
      (oaiResponsesToChatStreamHandler "r" "m" none earlyPiece) = "][1]" := by
    decide
  rw [htwice] at hsent
  exact absurd hsent (by decide)

end NewApi
