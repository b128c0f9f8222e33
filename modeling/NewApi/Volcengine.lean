/-
**Frames of the Volcengine speech service.**

A frame is a header of nibbles, padding, and fields that depend on the type, the flag and the
event of the message.  The fields are written by one list and read by another.  The lists are not
quite the same: what a reader makes of a frame is stated here for every sequence of bytes, and
with it for which messages the two lists agree.

Main definitions:

* `NewApi.VolcMessage`, `NewApi.VolcMessage.marshal`, `NewApi.newMessageFromBytes` — a message, what
  is written of it, and what is read;
* `NewApi.VolcMessage.layout` — the bytes from which a message is read;
* `NewApi.VolcMessage.Readable` — the messages that are read from any bytes;
* `NewApi.VolcMessage.carried` — what a frame keeps of a message.

Main results:

* `NewApi.VolcMessage.frames_accepted` — **the frames that are accepted, and what is read from
  them**: all that is declared is there but for the end of the payload;
* `NewApi.VolcMessage.frame_round_trip` — **what is written is read again**, exactly for the
  messages whose fields come in the same order.
-/

import NewApi.Common
import NewApi.Lib.WireFormat

set_option autoImplicit false

namespace NewApi

open WireFormat

/-! ### Messages -/

def msgTypeFlagPositiveSeq : Byte := 0b1
def msgTypeFlagNegativeSeq : Byte := 0b11
def msgTypeFlagWithEvent : Byte := 0b100

def msgTypeFullClientRequest : Byte := 0b1
def msgTypeAudioOnlyClient : Byte := 0b10
def msgTypeFullServerResponse : Byte := 0b1001
def msgTypeAudioOnlyServer : Byte := 0b1011
def msgTypeFrontEndResultServer : Byte := 0b1100
def msgTypeError : Byte := 0b1111

def eventTypeStartConnection : BitVec 32 := 1
def eventTypeFinishConnection : BitVec 32 := 2
def eventTypeConnectionStarted : BitVec 32 := 50
def eventTypeConnectionFailed : BitVec 32 := 51
def eventTypeConnectionFinished : BitVec 32 := 52

structure VolcMessage where
  version : Byte
  headerSize : Byte
  msgType : Byte
  msgTypeFlag : Byte
  serialization : Byte
  compression : Byte
  eventType : BitVec 32
  sessionID : List Byte
  connectID : List Byte
  sequence : BitVec 32
  errorCode : BitVec 32
  payload : List Byte
deriving DecidableEq, Repr

def newMessage (msgType flag : Byte) : VolcMessage where
  version := 1
  headerSize := 1
  msgType := msgType
  msgTypeFlag := flag
  serialization := 1
  compression := 0
  eventType := 0
  sessionID := []
  connectID := []
  sequence := 0
  errorCode := 0
  payload := []

/-- The types with fields other than an error code. -/
def ordinaryTypes : List Byte :=
  [msgTypeFullClientRequest, msgTypeFullServerResponse, msgTypeFrontEndResultServer,
    msgTypeAudioOnlyClient, msgTypeAudioOnlyServer]

/-- The flags with a sequence number. -/
def sequenceFlags : List Byte := [msgTypeFlagPositiveSeq, msgTypeFlagNegativeSeq]

/-- A part of a frame, written or read by a function of its own. -/
inductive VolcField where
  | event
  | sessionID
  | connectID
  | sequence
  | errorCode
  | payload
deriving DecidableEq, Repr

namespace VolcMessage

/-! ### Writing -/

/-- A text behind its length. -/
def writeSized (what : String) (text : List Byte) : Except String (List Byte) :=
  if 2 ^ 32 ≤ text.length then
    .error (what ++ " size (" ++ toString text.length ++ ") exceeds max(uint32)")
  else .ok (sized text)

/-- The events for which no session is written. -/
def unwrittenSessions : List (BitVec 32) :=
  [eventTypeStartConnection, eventTypeFinishConnection, eventTypeConnectionStarted,
    eventTypeConnectionFailed]

def write (m : VolcMessage) : VolcField → Except String (List Byte)
  | .event => .ok (word 4 m.eventType.toNat)
  | .sessionID =>
    if m.eventType ∈ unwrittenSessions then .ok [] else writeSized "session ID" m.sessionID
  | .connectID => .ok []
  | .sequence => .ok (word 4 m.sequence.toNat)
  | .errorCode => .ok (word 4 m.errorCode.toNat)
  | .payload => writeSized "payload" m.payload

def writers (m : VolcMessage) : Except String (List VolcField) :=
  let events : List VolcField :=
    if m.msgTypeFlag = msgTypeFlagWithEvent then [.event, .sessionID] else []
  if m.msgType ∈ ordinaryTypes then
    .ok (events ++ (if m.msgTypeFlag ∈ sequenceFlags then [VolcField.sequence] else []) ++
      [VolcField.payload])
  else if m.msgType = msgTypeError then
    .ok (events ++ [VolcField.errorCode, VolcField.payload])
  else .error ("unsupported message type: " ++ toString m.msgType.toNat)

/-- All fields in turn. -/
def writeAll (m : VolcMessage) : List VolcField → Except String (List Byte)
  | [] => .ok []
  | field :: fields => do
      let bytes ← m.write field
      let rest ← m.writeAll fields
      .ok (bytes ++ rest)

/-- Two nibbles. -/
def nibbles (high low : Byte) : Byte := high <<< 4 ||| low

/-- The bytes of the header after the first three. -/
def paddingSize (headerSize : Byte) : ℕ := 4 * headerSize.toNat - 3

def marshal (m : VolcMessage) : Except String (List Byte) := do
  let header := [nibbles m.version m.headerSize, nibbles m.msgType m.msgTypeFlag,
    nibbles m.serialization m.compression] ++ List.replicate (paddingSize m.headerSize) (0 : Byte)
  let fields ← m.writers
  let body ← m.writeAll fields
  .ok (header ++ body)

/-! ### Reading -/

/-- A number of 32 bits off the front. -/
def readUint32 (buf : List Byte) : Except String (BitVec 32 × List Byte) :=
  match readWord 4 buf with
  | some (n, rest) => .ok (BitVec.ofNat 32 n, rest)
  | none => .error (if buf = [] then "EOF" else "unexpected EOF")

/-- A text behind its length: fewer bytes if the frame ends before, and the one that is there if the
length is zero. -/
def readSized (old buf : List Byte) : Except String (List Byte × List Byte) := do
  let (size, rest) ← readUint32 buf
  .ok (if size = 0 then old else rest.take size.toNat, rest.drop size.toNat)

/-- The events for which no session is read. -/
def unreadSessions : List (BitVec 32) :=
  [eventTypeStartConnection, eventTypeFinishConnection, eventTypeConnectionStarted,
    eventTypeConnectionFailed, eventTypeConnectionFinished]

/-- The events for which a connection is read. -/
def readConnections : List (BitVec 32) :=
  [eventTypeConnectionStarted, eventTypeConnectionFailed, eventTypeConnectionFinished]

def read (m : VolcMessage) (buf : List Byte) :
    VolcField → Except String (VolcMessage × List Byte)
  | .event => do
      let (eventType, rest) ← readUint32 buf
      .ok ({ m with eventType := eventType }, rest)
  | .sessionID =>
    if m.eventType ∈ unreadSessions then .ok (m, buf)
    else do
      let (text, rest) ← readSized m.sessionID buf
      .ok ({ m with sessionID := text }, rest)
  | .connectID =>
    if m.eventType ∈ readConnections then do
      let (text, rest) ← readSized m.connectID buf
      .ok ({ m with connectID := text }, rest)
    else .ok (m, buf)
  | .sequence => do
      let (sequence, rest) ← readUint32 buf
      .ok ({ m with sequence := sequence }, rest)
  | .errorCode => do
      let (errorCode, rest) ← readUint32 buf
      .ok ({ m with errorCode := errorCode }, rest)
  | .payload => do
      let (text, rest) ← readSized m.payload buf
      .ok ({ m with payload := text }, rest)

def readers (m : VolcMessage) : Except String (List VolcField) :=
  let events : List VolcField :=
    if m.msgTypeFlag = msgTypeFlagWithEvent then [.event, .sessionID, .connectID] else []
  if m.msgType ∈ ordinaryTypes then
    .ok ((if m.msgTypeFlag ∈ sequenceFlags then [VolcField.sequence] else []) ++ events ++
      [VolcField.payload])
  else if m.msgType = msgTypeError then .ok ([VolcField.errorCode] ++ events ++ [VolcField.payload])
  else .error ("unsupported message type: " ++ toString m.msgType.toNat)

/-- All fields in turn. -/
def readAll (m : VolcMessage) (buf : List Byte) :
    List VolcField → Except String (VolcMessage × List Byte)
  | [] => .ok (m, buf)
  | field :: fields => do
      let (m, rest) ← m.read buf field
      m.readAll rest fields

/-- Nothing may come after the fields. -/
def ended : VolcMessage × List Byte → Except String VolcMessage
  | (m, []) => .ok m
  | (_, _ :: _) => .error "unexpected data after message: <nil>"

def unmarshal (m : VolcMessage) : List Byte → Except String VolcMessage
  | first :: _ :: third :: rest => do
      let m := { m with
        version := first >>> 4
        headerSize := first &&& 0b00001111
        serialization := third &&& 0b11110000
        compression := third &&& 0b00001111 }
      let padding := paddingSize m.headerSize
      if rest.length < padding then
        .error ("insufficient header bytes: expected " ++ toString padding ++ ", got " ++
          toString rest.length)
      else do
        let fields ← m.readers
        let r ← m.readAll (rest.drop padding) fields
        ended r
  | _ => .error "EOF"

end VolcMessage

def newMessageFromBytes (data : List Byte) : Except String VolcMessage :=
  match data with
  | _ :: typeAndFlag :: _ :: _ =>
    (newMessage (typeAndFlag >>> 4) (typeAndFlag &&& 0b00001111)).unmarshal data
  | _ => .error ("data too short: expected at least 3 bytes, got " ++ toString data.length)

namespace VolcMessage

/-! ### The frames that are accepted -/

/-- **The messages that are read**: nibbles in the header, and nothing in the fields for which there
is no place in the frame. -/
structure Readable (m : VolcMessage) : Prop where
  version : m.version.toNat < 16
  headerSize : m.headerSize.toNat < 16
  flag : m.msgTypeFlag.toNat < 16
  supported : m.msgType ∈ ordinaryTypes ∨ m.msgType = msgTypeError
  serialization : m.serialization &&& 0b00001111 = 0
  compression : m.compression.toNat < 16
  event : m.msgTypeFlag ≠ msgTypeFlagWithEvent → m.eventType = 0
  session : m.msgTypeFlag ≠ msgTypeFlagWithEvent ∨ m.eventType ∈ unreadSessions → m.sessionID = []
  connection : m.msgTypeFlag ≠ msgTypeFlagWithEvent ∨ m.eventType ∉ readConnections →
    m.connectID = []
  sequence : m.msgType = msgTypeError ∨ m.msgTypeFlag ∉ sequenceFlags → m.sequence = 0
  errorCode : m.msgType ≠ msgTypeError → m.errorCode = 0
  session_size : m.sessionID.length < 2 ^ 32
  connection_size : m.connectID.length < 2 ^ 32

/-- The first three bytes. -/
def layoutHeader (m : VolcMessage) : List Byte :=
  [nibbles m.version m.headerSize, nibbles m.msgType m.msgTypeFlag,
    m.serialization ||| m.compression]

/-- The code of an error, or the number in a sequence. -/
def layoutNumber (m : VolcMessage) : List Byte :=
  if m.msgType = msgTypeError then word 4 m.errorCode.toNat
  else if m.msgTypeFlag ∈ sequenceFlags then word 4 m.sequence.toNat else []

/-- An event with its session and its connection. -/
def layoutEvent (m : VolcMessage) : List Byte :=
  if m.msgTypeFlag = msgTypeFlagWithEvent then
    word 4 m.eventType.toNat ++ (if m.eventType ∈ unreadSessions then [] else sized m.sessionID) ++
      (if m.eventType ∈ readConnections then sized m.connectID else [])
  else []

/-- The bytes from which a message is read, with the padding and the declared payload size. -/
def layout (m : VolcMessage) (padding : List Byte) (declared : ℕ) : List Byte :=
  m.layoutHeader ++ padding ++ m.layoutNumber ++ m.layoutEvent ++ word 4 declared ++ m.payload

/-! ### Reading a field -/

theorem bind_eq_ok_iff {ε α β : Type} {x : Except ε α} {f : α → Except ε β} {b : β} :
    (x >>= f) = .ok b ↔ ∃ a, x = .ok a ∧ f a = .ok b := by
  cases x with
  | error e => exact ⟨nofun, nofun⟩
  | ok a =>
    constructor
    · intro h
      exact ⟨a, rfl, h⟩
    · rintro ⟨a', ha, h⟩
      obtain rfl := Except.ok.inj ha
      exact h

theorem readUint32_eq_ok_iff {buf rest : List Byte} {n : BitVec 32} :
    readUint32 buf = .ok (n, rest) ↔ buf = word 4 n.toNat ++ rest := by
  unfold readUint32
  constructor
  · intro h
    split at h
    · rename_i k rest' hread
      obtain ⟨hk, rfl⟩ := readWord_eq_some_iff.1 hread
      simp only [Except.ok.injEq, Prod.mk.injEq] at h
      obtain ⟨rfl, rfl⟩ := h
      rw [BitVec.toNat_ofNat, Nat.mod_eq_of_lt (by omega)]
    · cases h
  · rintro rfl
    have hn := n.isLt
    rw [readWord_word (by omega)]
    simp

/-- A text that is there as a whole, if something comes after it. -/
theorem readSized_eq_ok_iff {buf text rest : List Byte} (hrest : rest ≠ []) :
    readSized [] buf = .ok (text, rest) ↔ text.length < 2 ^ 32 ∧ buf = sized text ++ rest := by
  simp only [readSized, bind_eq_ok_iff, Prod.exists, readUint32_eq_ok_iff]
  constructor
  · rintro ⟨size, r, rfl, h⟩
    simp only [Except.ok.injEq, Prod.mk.injEq] at h
    obtain ⟨rfl, rfl⟩ := h
    have hmore : size.toNat < r.length := by
      by_contra hle
      exact hrest (List.drop_eq_nil_of_le (not_lt.1 hle))
    have htake : (if size = 0 then [] else r.take size.toNat) = r.take size.toNat := by
      split
      · rename_i hzero
        rw [hzero]
        rfl
      · rfl
    have hlength : (r.take size.toNat).length = size.toNat := by
      rw [List.length_take]
      omega
    rw [htake, sized, hlength, List.append_assoc, List.take_append_drop]
    exact ⟨size.isLt, rfl⟩
  · rintro ⟨hsize, rfl⟩
    refine ⟨BitVec.ofNat 32 text.length, text ++ rest, ?_, ?_⟩
    · rw [BitVec.toNat_ofNat, Nat.mod_eq_of_lt hsize, sized, List.append_assoc]
    · rw [BitVec.toNat_ofNat, Nat.mod_eq_of_lt hsize, List.drop_left, List.take_left]
      split
      · rename_i hzero
        have hlength : text.length = 0 := by
          have htoNat := congrArg BitVec.toNat hzero
          rw [BitVec.toNat_ofNat, Nat.mod_eq_of_lt hsize] at htoNat
          exact htoNat
        rw [List.length_eq_zero_iff.1 hlength]
      · rfl

/-- The last text: it may be shorter than it is declared. -/
theorem readSized_last_iff {buf text : List Byte} :
    readSized [] buf = .ok (text, []) ↔ ∃ declared, text.length ≤ declared ∧ declared < 2 ^ 32 ∧
      buf = word 4 declared ++ text := by
  simp only [readSized, bind_eq_ok_iff, Prod.exists, readUint32_eq_ok_iff]
  constructor
  · rintro ⟨size, r, rfl, h⟩
    simp only [Except.ok.injEq, Prod.mk.injEq] at h
    obtain ⟨rfl, hdrop⟩ := h
    have hle : r.length ≤ size.toNat := List.drop_eq_nil_iff.1 hdrop
    have htake : (if size = 0 then [] else r.take size.toNat) = r := by
      split
      · rename_i hzero
        rw [hzero] at hle
        exact (List.length_eq_zero_iff.1 (Nat.le_zero.1 hle)).symm
      · exact List.take_of_length_le hle
    rw [htake]
    exact ⟨size.toNat, hle, size.isLt, rfl⟩
  · rintro ⟨declared, hle, hlt, rfl⟩
    refine ⟨BitVec.ofNat 32 declared, text, ?_, ?_⟩
    · rw [BitVec.toNat_ofNat, Nat.mod_eq_of_lt hlt]
    · rw [BitVec.toNat_ofNat, Nat.mod_eq_of_lt hlt, List.drop_eq_nil_of_le hle,
        List.take_of_length_le hle]
      split
      · rename_i hzero
        have hdeclared : declared = 0 := by
          have htoNat := congrArg BitVec.toNat hzero
          rw [BitVec.toNat_ofNat, Nat.mod_eq_of_lt hlt] at htoNat
          exact htoNat
        have htext : text = [] := List.length_eq_zero_iff.1 (by omega)
        rw [htext]
      · rfl

/-! ### Reading all fields -/

variable {m m' : VolcMessage} {buf rest : List Byte}

theorem readAll_cons_iff {field : VolcField} {fields : List VolcField}
    {r : VolcMessage × List Byte} :
    m.readAll buf (field :: fields) = .ok r ↔
      ∃ m' rest, m.read buf field = .ok (m', rest) ∧ m'.readAll rest fields = .ok r := by
  simp only [readAll, bind_eq_ok_iff, Prod.exists]

theorem read_event_iff : m.read buf .event = .ok (m', rest) ↔
    ∃ e : BitVec 32, m' = { m with eventType := e } ∧ buf = word 4 e.toNat ++ rest := by
  simp only [read, bind_eq_ok_iff, Prod.exists, readUint32_eq_ok_iff, Except.ok.injEq,
    Prod.mk.injEq]
  constructor
  · rintro ⟨e, _, rfl, rfl, rfl⟩
    exact ⟨e, rfl, rfl⟩
  · rintro ⟨e, rfl, rfl⟩
    exact ⟨e, rest, rfl, rfl, rfl⟩

theorem read_sequence_iff : m.read buf .sequence = .ok (m', rest) ↔
    ∃ n : BitVec 32, m' = { m with sequence := n } ∧ buf = word 4 n.toNat ++ rest := by
  simp only [read, bind_eq_ok_iff, Prod.exists, readUint32_eq_ok_iff, Except.ok.injEq,
    Prod.mk.injEq]
  constructor
  · rintro ⟨n, _, rfl, rfl, rfl⟩
    exact ⟨n, rfl, rfl⟩
  · rintro ⟨n, rfl, rfl⟩
    exact ⟨n, rest, rfl, rfl, rfl⟩

theorem read_errorCode_iff : m.read buf .errorCode = .ok (m', rest) ↔
    ∃ n : BitVec 32, m' = { m with errorCode := n } ∧ buf = word 4 n.toNat ++ rest := by
  simp only [read, bind_eq_ok_iff, Prod.exists, readUint32_eq_ok_iff, Except.ok.injEq,
    Prod.mk.injEq]
  constructor
  · rintro ⟨n, _, rfl, rfl, rfl⟩
    exact ⟨n, rfl, rfl⟩
  · rintro ⟨n, rfl, rfl⟩
    exact ⟨n, rest, rfl, rfl, rfl⟩

/-- A session, of a message without one, that is followed by something. -/
theorem read_sessionID_iff (hsession : m.sessionID = []) (hrest : rest ≠ []) :
    m.read buf .sessionID = .ok (m', rest) ↔ ∃ text, (m.eventType ∈ unreadSessions → text = []) ∧
      text.length < 2 ^ 32 ∧ m' = { m with sessionID := text } ∧
      buf = (if m.eventType ∈ unreadSessions then [] else sized text) ++ rest := by
  simp only [read]
  split
  · rename_i hunread
    simp only [Except.ok.injEq, Prod.mk.injEq]
    constructor
    · rintro ⟨rfl, rfl⟩
      refine ⟨[], fun _ => rfl, by decide, ?_, rfl⟩
      rw [← hsession]
    · rintro ⟨text, htext, _, rfl, rfl⟩
      rw [htext hunread, ← hsession]
      exact ⟨rfl, rfl⟩
  · rename_i hread
    simp only [bind_eq_ok_iff, Prod.exists, Except.ok.injEq, Prod.mk.injEq, hsession]
    constructor
    · rintro ⟨text, _, htext, rfl, rfl⟩
      obtain ⟨hsize, rfl⟩ := (readSized_eq_ok_iff hrest).1 htext
      exact ⟨text, fun hunread => absurd hunread hread, hsize, rfl, rfl⟩
    · rintro ⟨text, _, hsize, rfl, rfl⟩
      exact ⟨text, rest, (readSized_eq_ok_iff hrest).2 ⟨hsize, rfl⟩, rfl, rfl⟩

/-- A connection, of a message without one, that is followed by something. -/
theorem read_connectID_iff (hconnect : m.connectID = []) (hrest : rest ≠ []) :
    m.read buf .connectID = .ok (m', rest) ↔ ∃ text, (m.eventType ∉ readConnections → text = []) ∧
      text.length < 2 ^ 32 ∧ m' = { m with connectID := text } ∧
      buf = (if m.eventType ∈ readConnections then sized text else []) ++ rest := by
  simp only [read]
  split
  · rename_i hread
    simp only [bind_eq_ok_iff, Prod.exists, Except.ok.injEq, Prod.mk.injEq, hconnect]
    constructor
    · rintro ⟨text, _, htext, rfl, rfl⟩
      obtain ⟨hsize, rfl⟩ := (readSized_eq_ok_iff hrest).1 htext
      exact ⟨text, fun hunread => absurd hread hunread, hsize, rfl, rfl⟩
    · rintro ⟨text, _, hsize, rfl, rfl⟩
      exact ⟨text, rest, (readSized_eq_ok_iff hrest).2 ⟨hsize, rfl⟩, rfl, rfl⟩
  · rename_i hunread
    simp only [Except.ok.injEq, Prod.mk.injEq]
    constructor
    · rintro ⟨rfl, rfl⟩
      refine ⟨[], fun _ => rfl, by decide, ?_, rfl⟩
      rw [← hconnect]
    · rintro ⟨text, htext, _, rfl, rfl⟩
      rw [htext hunread, ← hconnect]
      exact ⟨rfl, rfl⟩

/-- The payload is read up to the end. -/
theorem readAll_payload_iff (hpayload : m.payload = []) :
    m.readAll buf [.payload] = .ok (m', []) ↔ ∃ declared text, text.length ≤ declared ∧
      declared < 2 ^ 32 ∧ m' = { m with payload := text } ∧ buf = word 4 declared ++ text := by
  simp only [readAll, read, bind_eq_ok_iff, Prod.exists, Except.ok.injEq, Prod.mk.injEq, hpayload]
  constructor
  · rintro ⟨_, _, ⟨text, _, hread, rfl, rfl⟩, rfl, rfl⟩
    obtain ⟨declared, hle, hlt, rfl⟩ := readSized_last_iff.1 hread
    exact ⟨declared, text, hle, hlt, rfl, rfl⟩
  · rintro ⟨declared, text, hle, hlt, rfl, rfl⟩
    exact ⟨_, _, ⟨text, [], readSized_last_iff.2 ⟨declared, hle, hlt, rfl⟩, rfl, rfl⟩, rfl, rfl⟩

theorem word_append_ne_nil (n : ℕ) (text : List Byte) : word 4 n ++ text ≠ [] := by
  intro h
  have hlength := congrArg List.length h
  rw [List.length_append, length_word] at hlength
  simp at hlength

/-- Nothing can be read of an empty buffer. -/
theorem readUint32_nil : readUint32 [] = .error "EOF" := rfl

theorem readAll_payload_ne_nil {r : VolcMessage × List Byte}
    (h : m.readAll buf [.payload] = .ok r) : buf ≠ [] := by
  rintro rfl
  obtain ⟨m', rest, hread, -⟩ := readAll_cons_iff.1 h
  simp only [read, readSized, readUint32_nil] at hread
  exact nomatch hread

theorem read_connectID_nil (h : m.read [] .connectID = .ok (m', rest)) : rest = [] := by
  simp only [read] at h
  split at h
  · simp only [readSized, readUint32_nil] at h
    exact nomatch h
  · simp only [Except.ok.injEq, Prod.mk.injEq] at h
    exact h.2.symm

/-- An event with its session and its connection, and the payload. -/
theorem readAll_event_iff (hsession : m.sessionID = []) (hconnect : m.connectID = [])
    (hpayload : m.payload = []) :
    m.readAll buf [.event, .sessionID, .connectID, .payload] = .ok (m', []) ↔
      ∃ (e : BitVec 32) (s c : List Byte) (declared : ℕ) (text : List Byte),
        (e ∈ unreadSessions → s = []) ∧ s.length < 2 ^ 32 ∧ (e ∉ readConnections → c = []) ∧
        c.length < 2 ^ 32 ∧ text.length ≤ declared ∧ declared < 2 ^ 32 ∧
        m' = { m with eventType := e, sessionID := s, connectID := c, payload := text } ∧
        buf = word 4 e.toNat ++ ((if e ∈ unreadSessions then [] else sized s) ++
          ((if e ∈ readConnections then sized c else []) ++ (word 4 declared ++ text))) := by
  constructor
  · intro h
    obtain ⟨m₁, buf₁, hread₁, h₁⟩ := readAll_cons_iff.1 h
    obtain ⟨m₂, buf₂, hread₂, h₂⟩ := readAll_cons_iff.1 h₁
    obtain ⟨m₃, buf₃, hread₃, h₃⟩ := readAll_cons_iff.1 h₂
    have hne₃ : buf₃ ≠ [] := readAll_payload_ne_nil h₃
    have hne₂ : buf₂ ≠ [] := by
      rintro rfl
      exact hne₃ (read_connectID_nil hread₃)
    obtain ⟨e, rfl, rfl⟩ := read_event_iff.1 hread₁
    obtain ⟨s, hs, hssize, rfl, rfl⟩ :=
      (read_sessionID_iff (m := { m with eventType := e }) hsession hne₂).1 hread₂
    obtain ⟨c, hc, hcsize, rfl, rfl⟩ :=
      (read_connectID_iff (m := { m with eventType := e, sessionID := s }) hconnect hne₃).1 hread₃
    obtain ⟨declared, text, hle, hlt, rfl, rfl⟩ := (readAll_payload_iff
      (m := { m with eventType := e, sessionID := s, connectID := c }) hpayload).1 h₃
    exact ⟨e, s, c, declared, text, hs, hssize, hc, hcsize, hle, hlt, rfl, rfl⟩
  · rintro ⟨e, s, c, declared, text, hs, hssize, hc, hcsize, hle, hlt, rfl, rfl⟩
    have hlast := word_append_ne_nil declared text
    have hmore : (if e ∈ readConnections then sized c else []) ++ (word 4 declared ++ text) ≠ [] :=
      fun h => hlast (List.append_eq_nil_iff.1 h).2
    have hread₂ := (read_sessionID_iff (m := { m with eventType := e }) hsession hmore).2
      ⟨s, hs, hssize, rfl, rfl⟩
    have hread₃ := (read_connectID_iff (m := { m with eventType := e, sessionID := s }) hconnect
      hlast).2 ⟨c, hc, hcsize, rfl, rfl⟩
    refine readAll_cons_iff.2 ⟨_, _, read_event_iff.2 ⟨e, rfl, rfl⟩, readAll_cons_iff.2 ⟨_, _,
      hread₂, readAll_cons_iff.2 ⟨_, _, hread₃, ?_⟩⟩⟩
    exact (readAll_payload_iff (m := { m with eventType := e, sessionID := s, connectID := c })
      hpayload).2 ⟨declared, text, hle, hlt, rfl, rfl⟩

/-! ### Nibbles -/

theorem nibbles_toNat {high low : Byte} (hhigh : high.toNat < 16) (hlow : low.toNat < 16) :
    (nibbles high low).toNat = 16 * high.toNat + low.toNat := by
  have hshift : (high <<< 4).toNat = high.toNat <<< 4 := by
    rw [BitVec.toNat_shiftLeft, Nat.shiftLeft_eq, Nat.mod_eq_of_lt (by omega)]
  rw [nibbles, BitVec.toNat_or, hshift, ← Nat.shiftLeft_add_eq_or_of_lt (by omega),
    Nat.shiftLeft_eq]
  omega

theorem low_toNat (b : Byte) : (b &&& 0b00001111).toNat = b.toNat % 16 := by
  rw [BitVec.toNat_and]
  exact Nat.and_two_pow_sub_one_eq_mod b.toNat 4

theorem high_toNat (b : Byte) : (b >>> 4).toNat = b.toNat / 16 := by
  rw [BitVec.toNat_ushiftRight, Nat.shiftRight_eq_div_pow]

theorem low_lt (b : Byte) : (b &&& 0b00001111).toNat < 16 := by
  rw [low_toNat]
  omega

theorem high_lt (b : Byte) : (b >>> 4).toNat < 16 := by
  have hb := b.isLt
  rw [high_toNat]
  omega

/-- The nibbles of a byte make it up. -/
theorem nibbles_of_byte (b : Byte) : nibbles (b >>> 4) (b &&& 0b00001111) = b := by
  have hb := b.isLt
  apply BitVec.eq_of_toNat_eq
  rw [nibbles_toNat (high_lt b) (low_lt b), high_toNat, low_toNat]
  omega

theorem nibbles_high {high low : Byte} (hhigh : high.toNat < 16) (hlow : low.toNat < 16) :
    nibbles high low >>> 4 = high := by
  apply BitVec.eq_of_toNat_eq
  rw [high_toNat, nibbles_toNat hhigh hlow]
  omega

theorem nibbles_low {high low : Byte} (hhigh : high.toNat < 16) (hlow : low.toNat < 16) :
    nibbles high low &&& 0b00001111 = low := by
  apply BitVec.eq_of_toNat_eq
  rw [low_toNat, nibbles_toNat hhigh hlow]
  omega

/-- A byte is its upper part and its lower part. -/
theorem parts_of_byte (b : Byte) :
    (b &&& (0b11110000 : Byte)) ||| (b &&& (0b00001111 : Byte)) = b := by
  revert b
  decide

theorem upper_and_lower (b : Byte) : b &&& (0b11110000 : Byte) &&& (0b00001111 : Byte) = 0 := by
  revert b
  decide

theorem upper_eq_shift (b : Byte) : b &&& (0b11110000 : Byte) = (b >>> 4) <<< 4 := by
  revert b
  decide

/-- The two parts of a byte are read back. -/
theorem parts_of_or {upper lower : Byte} (hupper : upper &&& 0b00001111 = 0)
    (hlower : lower.toNat < 16) :
    (upper ||| lower) &&& 0b11110000 = upper ∧ (upper ||| lower) &&& 0b00001111 = lower := by
  have hself : upper &&& 0b11110000 = upper := by
    have hparts := parts_of_byte upper
    rw [hupper] at hparts
    exact (BitVec.or_zero).symm.trans hparts
  have hshift : upper = (upper >>> 4) <<< 4 := hself.symm.trans (upper_eq_shift upper)
  have hhigh := high_lt upper
  have hor : upper ||| lower = nibbles (upper >>> 4) lower := by
    rw [nibbles, ← hshift]
  rw [hor, upper_eq_shift, nibbles_high hhigh hlower, nibbles_low hhigh hlower]
  exact ⟨hshift.symm, rfl⟩

/-! ### Frames -/

/-- Nothing has been read yet of what comes after the number. -/
structure Fresh (m : VolcMessage) : Prop where
  eventType : m.eventType = 0
  sessionID : m.sessionID = []
  connectID : m.connectID = []
  payload : m.payload = []

theorem Fresh.with_payload (h : m.Fresh) (text : List Byte) :
    { m with payload := text } =
      { m with eventType := 0, sessionID := [], connectID := [], payload := text } := by
  obtain ⟨hevent, hsession, hconnect, -⟩ := h
  cases m
  simp only at hevent hsession hconnect
  subst hevent hsession hconnect
  rfl

/-- What comes after the number. -/
theorem readAll_tail_iff (hfresh : m.Fresh) :
    m.readAll buf ((if m.msgTypeFlag = msgTypeFlagWithEvent then
        [VolcField.event, VolcField.sessionID, VolcField.connectID] else []) ++
        [VolcField.payload]) = .ok (m', []) ↔
      ∃ (e : BitVec 32) (s c : List Byte) (declared : ℕ) (text : List Byte),
        m' = { m with eventType := e, sessionID := s, connectID := c, payload := text } ∧
        (m.msgTypeFlag ≠ msgTypeFlagWithEvent → e = 0) ∧
        (m.msgTypeFlag ≠ msgTypeFlagWithEvent ∨ e ∈ unreadSessions → s = []) ∧
        (m.msgTypeFlag ≠ msgTypeFlagWithEvent ∨ e ∉ readConnections → c = []) ∧
        s.length < 2 ^ 32 ∧ c.length < 2 ^ 32 ∧ text.length ≤ declared ∧ declared < 2 ^ 32 ∧
        buf = m'.layoutEvent ++ (word 4 declared ++ text) := by
  obtain ⟨-, hsession, hconnect, hpayload⟩ := id hfresh
  by_cases hflag : m.msgTypeFlag = msgTypeFlagWithEvent
  · rw [if_pos hflag]
    refine (readAll_event_iff hsession hconnect hpayload).trans ?_
    constructor
    · rintro ⟨e, s, c, declared, text, hs, hssize, hc, hcsize, hle, hlt, rfl, rfl⟩
      refine ⟨e, s, c, declared, text, rfl, fun h => absurd hflag h, fun h => ?_, fun h => ?_,
        hssize, hcsize, hle, hlt, ?_⟩
      · exact hs (h.resolve_left fun hne => hne hflag)
      · exact hc (h.resolve_left fun hne => hne hflag)
      · rw [layoutEvent, if_pos hflag]
        simp only [List.append_assoc]
    · rintro ⟨e, s, c, declared, text, rfl, -, hs, hc, hssize, hcsize, hle, hlt, rfl⟩
      refine ⟨e, s, c, declared, text, fun h => hs (.inr h), hssize, fun h => hc (.inr h), hcsize,
        hle, hlt, rfl, ?_⟩
      rw [layoutEvent, if_pos hflag]
      simp only [List.append_assoc]
  · rw [if_neg hflag]
    refine (readAll_payload_iff hpayload).trans ?_
    constructor
    · rintro ⟨declared, text, hle, hlt, rfl, rfl⟩
      refine ⟨0, [], [], declared, text, ?_, fun _ => rfl, fun _ => rfl, fun _ => rfl, by decide,
        by decide, hle, hlt, ?_⟩
      · exact hfresh.with_payload text
      · rw [layoutEvent, if_neg hflag]
        rfl
    · rintro ⟨e, s, c, declared, text, rfl, he, hs, hc, -, -, hle, hlt, rfl⟩
      obtain rfl := he hflag
      obtain rfl := hs (.inl hflag)
      obtain rfl := hc (.inl hflag)
      refine ⟨declared, text, hle, hlt, ?_, ?_⟩
      · exact (hfresh.with_payload text).symm
      · rw [layoutEvent, if_neg hflag]
        rfl

/-- The number in front. -/
theorem readers_number_iff (hsupported : m.msgType ∈ ordinaryTypes ∨ m.msgType = msgTypeError)
    (hsequence : m.sequence = 0) (hcode : m.errorCode = 0) {r : VolcMessage × List Byte} :
    (∃ fields, m.readers = .ok fields ∧ m.readAll buf fields = .ok r) ↔
      ∃ (n code : BitVec 32) (rest : List Byte),
        (m.msgType = msgTypeError ∨ m.msgTypeFlag ∉ sequenceFlags → n = 0) ∧
        (m.msgType ≠ msgTypeError → code = 0) ∧
        buf = (if m.msgType = msgTypeError then word 4 code.toNat
          else if m.msgTypeFlag ∈ sequenceFlags then word 4 n.toNat else []) ++ rest ∧
        ({ m with sequence := n, errorCode := code } : VolcMessage).readAll rest
          ((if m.msgTypeFlag = msgTypeFlagWithEvent then
            [VolcField.event, VolcField.sessionID, VolcField.connectID] else []) ++
            [VolcField.payload]) = .ok r := by
  have herror : msgTypeError ∉ ordinaryTypes := by decide
  have hsame : ∀ n code : BitVec 32, n = m.sequence → code = m.errorCode →
      ({ m with sequence := n, errorCode := code } : VolcMessage) = m := by
    rintro _ _ rfl rfl
    rfl
  unfold readers
  by_cases htype : m.msgType = msgTypeError
  · have hnot : m.msgType ∉ ordinaryTypes := by
      rw [htype]
      exact herror
    simp only [if_neg hnot, if_pos htype]
    constructor
    · rintro ⟨fields, hfields, h⟩
      obtain rfl := Except.ok.inj hfields
      obtain ⟨m₁, rest, hread, h₁⟩ := readAll_cons_iff.1 h
      obtain ⟨code, rfl, rfl⟩ := read_errorCode_iff.1 hread
      refine ⟨0, code, rest, fun _ => rfl, fun hne => absurd htype hne, rfl, ?_⟩
      rw [← hsequence]
      exact h₁
    · rintro ⟨n, code, rest, hn, -, rfl, h⟩
      obtain rfl := hn (.inl htype)
      refine ⟨_, rfl, readAll_cons_iff.2 ⟨_, _, read_errorCode_iff.2 ⟨code, rfl, rfl⟩, ?_⟩⟩
      rw [← hsequence] at h
      exact h
  · have hordinary : m.msgType ∈ ordinaryTypes := hsupported.resolve_right htype
    simp only [if_pos hordinary, if_neg htype]
    by_cases hflag : m.msgTypeFlag ∈ sequenceFlags
    · simp only [if_pos hflag]
      constructor
      · rintro ⟨fields, hfields, h⟩
        obtain rfl := Except.ok.inj hfields
        obtain ⟨m₁, rest, hread, h₁⟩ := readAll_cons_iff.1 h
        obtain ⟨n, rfl, rfl⟩ := read_sequence_iff.1 hread
        refine ⟨n, 0, rest, fun hor => absurd hflag (hor.resolve_left htype), fun _ => rfl, rfl, ?_⟩
        rw [← hcode]
        exact h₁
      · rintro ⟨n, code, rest, -, hzero, rfl, h⟩
        obtain rfl := hzero htype
        refine ⟨_, rfl, readAll_cons_iff.2 ⟨_, _, read_sequence_iff.2 ⟨n, rfl, rfl⟩, ?_⟩⟩
        rw [← hcode] at h
        exact h
    · simp only [if_neg hflag]
      constructor
      · rintro ⟨fields, hfields, h⟩
        obtain rfl := Except.ok.inj hfields
        refine ⟨0, 0, buf, fun _ => rfl, fun _ => rfl, rfl, ?_⟩
        rw [hsame 0 0 hsequence.symm hcode.symm]
        exact h
      · rintro ⟨n, code, rest, hn, hzero, rfl, h⟩
        rw [hsame n code ((hn (.inr hflag)).trans hsequence.symm)
          ((hzero htype).trans hcode.symm)] at h
        exact ⟨_, rfl, h⟩

/-- What the readers of a type and a flag make of the bytes after the header. -/
theorem readers_iff (hsupported : m.msgType ∈ ordinaryTypes ∨ m.msgType = msgTypeError)
    (hfresh : m.Fresh) (hsequence : m.sequence = 0) (hcode : m.errorCode = 0) :
    (∃ fields, m.readers = .ok fields ∧ m.readAll buf fields = .ok (m', [])) ↔
      ∃ (n code e : BitVec 32) (s c : List Byte) (declared : ℕ) (text : List Byte),
        m' = { m with sequence := n, errorCode := code, eventType := e, sessionID := s,
                      connectID := c, payload := text } ∧
        (m.msgType = msgTypeError ∨ m.msgTypeFlag ∉ sequenceFlags → n = 0) ∧
        (m.msgType ≠ msgTypeError → code = 0) ∧
        (m.msgTypeFlag ≠ msgTypeFlagWithEvent → e = 0) ∧
        (m.msgTypeFlag ≠ msgTypeFlagWithEvent ∨ e ∈ unreadSessions → s = []) ∧
        (m.msgTypeFlag ≠ msgTypeFlagWithEvent ∨ e ∉ readConnections → c = []) ∧
        s.length < 2 ^ 32 ∧ c.length < 2 ^ 32 ∧ text.length ≤ declared ∧ declared < 2 ^ 32 ∧
        buf = m'.layoutNumber ++ (m'.layoutEvent ++ (word 4 declared ++ text)) := by
  rw [readers_number_iff hsupported hsequence hcode]
  have hfresh' : ∀ n code : BitVec 32,
      ({ m with sequence := n, errorCode := code } : VolcMessage).Fresh := fun _ _ =>
    ⟨hfresh.eventType, hfresh.sessionID, hfresh.connectID, hfresh.payload⟩
  constructor
  · rintro ⟨n, code, rest, hn, hzero, rfl, h⟩
    obtain ⟨e, s, c, declared, text, rfl, he, hs, hc, hssize, hcsize, hle, hlt, rfl⟩ :=
      (readAll_tail_iff (hfresh' n code)).1 h
    exact ⟨n, code, e, s, c, declared, text, rfl, hn, hzero, he, hs, hc, hssize, hcsize, hle, hlt,
      rfl⟩
  · rintro ⟨n, code, e, s, c, declared, text, rfl, hn, hzero, he, hs, hc, hssize, hcsize, hle, hlt,
      rfl⟩
    exact ⟨n, code, _, hn, hzero, rfl, (readAll_tail_iff (hfresh' n code)).2 ⟨e, s, c, declared,
      text, rfl, he, hs, hc, hssize, hcsize, hle, hlt, rfl⟩⟩

theorem readers_supported {fields : List VolcField} (h : m.readers = .ok fields) :
    m.msgType ∈ ordinaryTypes ∨ m.msgType = msgTypeError := by
  by_contra hnot
  rw [not_or] at hnot
  simp only [readers, if_neg hnot.1, if_neg hnot.2] at h
  exact nomatch h

/-- A message of a type and a flag, with the rest of its header. -/
def headed (first typeAndFlag third : Byte) : VolcMessage :=
  { newMessage (typeAndFlag >>> 4) (typeAndFlag &&& 0b00001111) with
    version := first >>> 4
    headerSize := first &&& 0b00001111
    serialization := third &&& 0b11110000
    compression := third &&& 0b00001111 }

theorem ended_eq_ok_iff {r : VolcMessage × List Byte} : ended r = .ok m ↔ r = (m, []) := by
  obtain ⟨m', rest⟩ := r
  cases rest with
  | nil => simp [ended]
  | cons b rest => simp [ended]

/-- The header and the padding are cut off, and the fields come to the end of the frame. -/
theorem newMessageFromBytes_cons_iff {first second third : Byte} :
    newMessageFromBytes (first :: second :: third :: buf) = .ok m ↔
      ∃ padding rest, padding.length = paddingSize (first &&& 0b00001111) ∧ buf = padding ++ rest ∧
        ∃ fields, (headed first second third).readers = .ok fields ∧
          (headed first second third).readAll rest fields = .ok (m, []) := by
  have hstep : newMessageFromBytes (first :: second :: third :: buf) =
      if buf.length < paddingSize (first &&& 0b00001111) then
        .error ("insufficient header bytes: expected " ++
          toString (paddingSize (first &&& 0b00001111)) ++ ", got " ++ toString buf.length)
      else (headed first second third).readers >>= fun fields =>
        (headed first second third).readAll (buf.drop (paddingSize (first &&& 0b00001111))) fields
          >>= ended := rfl
  rw [hstep]
  constructor
  · intro h
    split at h
    · exact nomatch h
    · rename_i hlong
      simp only [bind_eq_ok_iff] at h
      obtain ⟨fields, hfields, r, hread, hend⟩ := h
      rw [ended_eq_ok_iff] at hend
      rw [hend] at hread
      refine ⟨buf.take (paddingSize (first &&& 0b00001111)), _, ?_,
        (List.take_append_drop _ _).symm, fields, hfields, hread⟩
      rw [List.length_take]
      omega
  · rintro ⟨padding, rest, hpadding, rfl, fields, hfields, hread⟩
    rw [if_neg (by rw [List.length_append]; omega), List.drop_left' hpadding]
    simp only [bind_eq_ok_iff]
    exact ⟨fields, hfields, (m, []), hread, rfl⟩

theorem headed_fresh (first second third : Byte) : (headed first second third).Fresh :=
  ⟨rfl, rfl, rfl, rfl⟩

/-- A message is read from the bytes of its layout, with any padding and with a payload that may be
shorter than it is declared, and from no others. -/
theorem newMessageFromBytes_iff (data : List Byte) (m : VolcMessage) :
    newMessageFromBytes data = .ok m ↔ m.Readable ∧ ∃ (padding : List Byte) (declared : ℕ),
      padding.length = paddingSize m.headerSize ∧ m.payload.length ≤ declared ∧
      declared < 2 ^ 32 ∧ data = m.layout padding declared := by
  constructor
  · intro h
    match data, h with
    | first :: second :: third :: buf, h =>
      obtain ⟨padding, rest, hpadding, rfl, fields, hfields, hread⟩ :=
        newMessageFromBytes_cons_iff.1 h
      have hsupported := readers_supported hfields
      obtain ⟨n, code, e, s, c, declared, text, rfl, hn, hcode, he, hs, hc, hssize, hcsize, hle,
        hlt, rfl⟩ := (readers_iff hsupported (headed_fresh first second third) rfl rfl).1
          ⟨fields, hfields, hread⟩
      refine ⟨⟨?_, ?_, ?_, hsupported, ?_, ?_, he, hs, hc, hn, hcode, hssize, hcsize⟩, padding,
        declared, hpadding, hle, hlt, ?_⟩
      · exact high_lt first
      · exact low_lt first
      · exact low_lt second
      · exact upper_and_lower third
      · exact low_lt third
      · rw [layout, layoutHeader]
        simp only [headed, newMessage, nibbles_of_byte, parts_of_byte, List.append_assoc,
          List.cons_append, List.nil_append]
  · rintro ⟨hm, padding, declared, hpadding, hle, hlt, rfl⟩
    have htype : m.msgType.toNat < 16 := by
      rcases hm.supported with h | h
      · revert h
        generalize m.msgType = t
        revert t
        decide
      · rw [h]
        decide
    obtain ⟨hupper, hlower⟩ := parts_of_or hm.serialization hm.compression
    have hhead : headed (nibbles m.version m.headerSize) (nibbles m.msgType m.msgTypeFlag)
        (m.serialization ||| m.compression) =
        { newMessage m.msgType m.msgTypeFlag with
          version := m.version
          headerSize := m.headerSize
          serialization := m.serialization
          compression := m.compression } := by
      rw [headed, nibbles_high hm.version hm.headerSize, nibbles_low hm.version hm.headerSize,
        nibbles_high htype hm.flag, nibbles_low htype hm.flag, hupper, hlower]
    rw [layout, layoutHeader]
    simp only [List.append_assoc, List.cons_append, List.nil_append]
    refine newMessageFromBytes_cons_iff.2 ⟨padding, _, ?_, rfl, ?_⟩
    · rw [nibbles_low hm.version hm.headerSize]
      exact hpadding
    · rw [hhead]
      exact (readers_iff (m := { newMessage m.msgType m.msgTypeFlag with
          version := m.version
          headerSize := m.headerSize
          serialization := m.serialization
          compression := m.compression }) hm.supported ⟨rfl, rfl, rfl, rfl⟩ rfl rfl).2
        ⟨m.sequence, m.errorCode, m.eventType, m.sessionID, m.connectID, declared, m.payload, rfl,
          hm.sequence, hm.errorCode, hm.event, hm.session, hm.connection, hm.session_size,
          hm.connection_size, hle, hlt, rfl⟩

/-- **The frames that are accepted, and what is read of them**: every field that is declared is
there, but for the end of the payload, and the message has nothing in fields that have no place; a
frame is refused only if it is the layout of no such message. -/
theorem frames_accepted (data : List Byte) :
    match newMessageFromBytes data with
    | .ok m => m.Readable ∧ ∃ (padding : List Byte) (declared : ℕ),
        padding.length = paddingSize m.headerSize ∧ m.payload.length ≤ declared ∧
        declared < 2 ^ 32 ∧ data = m.layout padding declared
    | .error _ => ∀ (m : VolcMessage) (padding : List Byte) (declared : ℕ), m.Readable →
        padding.length = paddingSize m.headerSize → m.payload.length ≤ declared →
        declared < 2 ^ 32 → data ≠ m.layout padding declared := by
  cases hread : newMessageFromBytes data with
  | ok m => exact (newMessageFromBytes_iff data m).1 hread
  | error message =>
    intro m padding declared hm hpadding hle hlt hdata
    have hok := (newMessageFromBytes_iff data m).2
      ⟨hm, padding, declared, hpadding, hle, hlt, hdata⟩
    rw [hread] at hok
    cases hok

/-! ### Writing and reading again -/

/-- **The messages that can be written**: nibbles in the header, and texts whose sizes fit; and no
error with an event, for which the fields are written and read in a different order. -/
structure Writable (m : VolcMessage) : Prop where
  version : m.version.toNat < 16
  headerSize : m.headerSize.toNat < 16
  flag : m.msgTypeFlag.toNat < 16
  supported : m.msgType ∈ ordinaryTypes ∨ m.msgType = msgTypeError
  serialization : m.serialization.toNat < 16
  compression : m.compression.toNat < 16
  session_size : m.sessionID.length < 2 ^ 32
  payload_size : m.payload.length < 2 ^ 32
  ordered : m.msgTypeFlag = msgTypeFlagWithEvent → m.msgType ≠ msgTypeError

/-- What a frame keeps of a message: the serialization is read in the upper nibble, and the fields
that have no place are empty. -/
def carried (m : VolcMessage) : VolcMessage :=
  { m with
    serialization := m.serialization <<< 4
    eventType := if m.msgTypeFlag = msgTypeFlagWithEvent then m.eventType else 0
    sessionID := if m.msgTypeFlag = msgTypeFlagWithEvent ∧ m.eventType ∉ unwrittenSessions then
      m.sessionID else []
    connectID := []
    sequence := if m.msgType ≠ msgTypeError ∧ m.msgTypeFlag ∈ sequenceFlags then m.sequence else 0
    errorCode := if m.msgType = msgTypeError then m.errorCode else 0 }

/-- The event and the session as they are written. -/
def writtenEvent (m : VolcMessage) : List Byte :=
  if m.msgTypeFlag = msgTypeFlagWithEvent then
    word 4 m.eventType.toNat ++ (if m.eventType ∈ unwrittenSessions then [] else sized m.sessionID)
  else []

theorem writeSized_eq {what : String} {text : List Byte} (h : text.length < 2 ^ 32) :
    writeSized what text = .ok (sized text) := if_neg (not_le.2 h)

theorem write_sessionID (h : m.sessionID.length < 2 ^ 32) :
    m.write .sessionID =
      .ok (if m.eventType ∈ unwrittenSessions then [] else sized m.sessionID) := by
  simp only [write, writeSized_eq h]
  split <;> rfl

theorem writeAll_cons {field : VolcField} {fields : List VolcField} {bytes rest : List Byte}
    (h : m.write field = .ok bytes) (hrest : m.writeAll fields = .ok rest) :
    m.writeAll (field :: fields) = .ok (bytes ++ rest) := by
  rw [writeAll, h, hrest]
  rfl

theorem writeAll_payload (h : m.Writable) : m.writeAll [.payload] = .ok (sized m.payload) := by
  have hpayload : m.write .payload = .ok (sized m.payload) := writeSized_eq h.payload_size
  have hnil : m.writeAll [] = .ok [] := rfl
  have hall := writeAll_cons hpayload hnil
  rwa [List.append_nil] at hall

/-- The fields of a message that can be written. -/
theorem writeAll_writers (h : m.Writable) : ∃ fields, m.writers = .ok fields ∧
    m.writeAll fields = .ok (m.layoutNumber ++ (m.writtenEvent ++ sized m.payload)) := by
  have herror : msgTypeError ∉ ordinaryTypes := by decide
  have hexclusive : msgTypeFlagWithEvent ∉ sequenceFlags := by decide
  have hpayload := writeAll_payload h
  unfold writers layoutNumber writtenEvent
  by_cases hevent : m.msgTypeFlag = msgTypeFlagWithEvent
  · have htype := h.ordered hevent
    have hflag : m.msgTypeFlag ∉ sequenceFlags := by
      rw [hevent]
      exact hexclusive
    simp only [if_pos (h.supported.resolve_right htype), if_neg htype, if_pos hevent, if_neg hflag]
    have hword : m.write .event = .ok (word 4 m.eventType.toNat) := rfl
    have hall := writeAll_cons hword (writeAll_cons (write_sessionID h.session_size) hpayload)
    refine ⟨_, rfl, ?_⟩
    rw [List.nil_append, List.append_assoc]
    exact hall
  · by_cases htype : m.msgType = msgTypeError
    · have hnot : m.msgType ∉ ordinaryTypes := by
        rw [htype]
        exact herror
      simp only [if_neg hnot, if_pos htype, if_neg hevent]
      have hword : m.write .errorCode = .ok (word 4 m.errorCode.toNat) := rfl
      exact ⟨_, rfl, writeAll_cons hword hpayload⟩
    · simp only [if_pos (h.supported.resolve_right htype), if_neg htype, if_neg hevent]
      by_cases hflag : m.msgTypeFlag ∈ sequenceFlags
      · simp only [if_pos hflag]
        have hword : m.write .sequence = .ok (word 4 m.sequence.toNat) := rfl
        exact ⟨_, rfl, writeAll_cons hword hpayload⟩
      · simp only [if_neg hflag]
        exact ⟨_, rfl, hpayload⟩

/-- The frame of a message. -/
theorem marshal_eq (h : m.Writable) : m.marshal = .ok ([nibbles m.version m.headerSize,
    nibbles m.msgType m.msgTypeFlag, nibbles m.serialization m.compression] ++
      List.replicate (paddingSize m.headerSize) 0 ++
      (m.layoutNumber ++ (m.writtenEvent ++ sized m.payload))) := by
  obtain ⟨fields, hfields, hall⟩ := writeAll_writers h
  rw [marshal, hfields]
  simp only [bind, Except.bind, hall]

theorem layoutNumber_carried : m.carried.layoutNumber = m.layoutNumber := by
  unfold layoutNumber carried
  by_cases htype : m.msgType = msgTypeError
  · simp only [if_pos htype]
  · by_cases hflag : m.msgTypeFlag ∈ sequenceFlags
    · simp only [if_neg htype, if_pos hflag, if_pos (And.intro htype hflag)]
    · simp only [if_neg htype, if_neg hflag]

/-- **The messages whose fields come in the same order**: a connection is read where none has been
written, and a session is not read that has been. -/
def SameOrder (m : VolcMessage) : Prop :=
  m.msgTypeFlag = msgTypeFlagWithEvent → m.eventType ≠ eventTypeConnectionStarted ∧
    m.eventType ≠ eventTypeConnectionFailed ∧
    (m.eventType = eventTypeConnectionFinished → m.sessionID = [])

theorem mem_unreadSessions {e : BitVec 32} :
    e ∈ unreadSessions ↔ e ∈ unwrittenSessions ∨ e = eventTypeConnectionFinished := by
  simp only [unreadSessions, unwrittenSessions, List.mem_cons, List.not_mem_nil, or_false, or_assoc]

theorem mem_readConnections {e : BitVec 32} : e ∈ readConnections ↔
    e = eventTypeConnectionStarted ∨ e = eventTypeConnectionFailed ∨
      e = eventTypeConnectionFinished := by
  simp only [readConnections, List.mem_cons, List.not_mem_nil, or_false]

/-- What is read of a message is what is written of it. -/
theorem layoutEvent_carried (hsame : m.SameOrder) : m.carried.layoutEvent = m.writtenEvent := by
  unfold layoutEvent carried writtenEvent
  by_cases hevent : m.msgTypeFlag = msgTypeFlagWithEvent
  · obtain ⟨hstarted, hfailed, hfinished⟩ := hsame hevent
    simp only [hevent, true_and, if_true]
    by_cases hfin : m.eventType = eventTypeConnectionFinished
    · have hunread : m.eventType ∈ unreadSessions := mem_unreadSessions.2 (.inr hfin)
      have hread : m.eventType ∈ readConnections := mem_readConnections.2 (.inr (.inr hfin))
      have hwritten : m.eventType ∉ unwrittenSessions := by
        rw [hfin]
        decide
      rw [if_pos hunread, if_pos hread, if_neg hwritten, hfinished hfin, List.append_nil]
    · have hread : m.eventType ∉ readConnections := by
        rw [mem_readConnections]
        rintro (h | h | h)
        · exact hstarted h
        · exact hfailed h
        · exact hfin h
      have hunread : m.eventType ∈ unreadSessions ↔ m.eventType ∈ unwrittenSessions := by
        rw [mem_unreadSessions, or_iff_left hfin]
      rw [if_neg hread, List.append_nil]
      by_cases hwritten : m.eventType ∈ unwrittenSessions
      · rw [if_pos (hunread.2 hwritten), if_pos hwritten]
      · rw [if_neg (mt hunread.1 hwritten), if_neg hwritten, if_pos hwritten]
  · simp only [if_neg hevent]

/-- What a frame keeps of a message can be read. -/
theorem readable_carried (h : m.Writable) (hsame : m.SameOrder) : m.carried.Readable where
  version := h.version
  headerSize := h.headerSize
  flag := h.flag
  supported := h.supported
  serialization := by
    apply BitVec.eq_of_toNat_eq
    have hshift : (m.serialization <<< 4).toNat = 16 * m.serialization.toNat := by
      have hlt := h.serialization
      rw [BitVec.toNat_shiftLeft, Nat.shiftLeft_eq, Nat.mod_eq_of_lt (by omega)]
      omega
    rw [carried, low_toNat, hshift]
    exact Nat.mul_mod_right 16 _
  compression := h.compression
  event := fun hevent => if_neg hevent
  session := by
    intro hnone
    by_cases hevent : m.msgTypeFlag = msgTypeFlagWithEvent
    · have hunread : m.carried.eventType ∈ unreadSessions :=
        hnone.resolve_left fun hne => hne hevent
      simp only [carried, if_pos hevent] at hunread
      simp only [carried, hevent, true_and]
      rcases mem_unreadSessions.1 hunread with hwritten | hfin
      · exact if_neg (not_not.2 hwritten)
      · rw [(hsame hevent).2.2 hfin, ite_self]
    · exact if_neg fun hboth => hevent hboth.1
  connection := fun _ => rfl
  sequence := by
    intro hnone
    refine if_neg fun hboth => ?_
    exact hnone.elim hboth.1 fun hflag => hflag hboth.2
  errorCode := fun htype => if_neg htype
  session_size := by
    have hsize := h.session_size
    simp only [carried]
    split
    · exact hsize
    · decide
  connection_size := Nat.two_pow_pos 32

/-- **What is written is read again, exactly for messages whose fields come in the same order.** -/
theorem frame_round_trip (m : VolcMessage) (h : m.Writable) : ∃ bytes, m.marshal = .ok bytes ∧
    (newMessageFromBytes bytes = .ok m.carried ↔ m.SameOrder) := by
  refine ⟨_, marshal_eq h, ?_⟩
  rw [newMessageFromBytes_iff]
  constructor
  · rintro ⟨hreadable, padding, declared, hpadding, hle, hlt, heq⟩ hevent
    have hkept : m.carried.eventType = m.eventType := if_pos hevent
    have hlength : m.writtenEvent.length = m.carried.layoutEvent.length := by
      have hall := congrArg List.length heq
      rw [layout, layoutNumber_carried] at hall
      have hheader : m.carried.layoutHeader.length = 3 := rfl
      have hsize : m.carried.headerSize = m.headerSize := rfl
      have hpayload : m.carried.payload = m.payload := rfl
      simp only [List.length_append, List.length_cons, List.length_nil, List.length_replicate,
        length_sized, length_word, hheader, hpadding, hsize, hpayload] at hall
      omega
    have hwritten : m.writtenEvent.length =
        4 + (if m.eventType ∈ unwrittenSessions then [] else sized m.sessionID).length := by
      rw [writtenEvent, if_pos hevent, List.length_append, length_word]
    have hlayout :
        4 + (if m.eventType ∈ readConnections then sized m.carried.connectID else []).length ≤
          m.carried.layoutEvent.length := by
      have hflag : m.carried.msgTypeFlag = msgTypeFlagWithEvent := hevent
      rw [layoutEvent, if_pos hflag, hkept, List.length_append, List.length_append, length_word]
      omega
    refine ⟨fun he => ?_, fun he => ?_, fun he => ?_⟩
    · have hread : m.eventType ∈ readConnections := mem_readConnections.2 (.inl he)
      have hunwritten : m.eventType ∈ unwrittenSessions := by
        rw [he]
        decide
      rw [if_pos hunwritten] at hwritten
      rw [if_pos hread, length_sized] at hlayout
      simp only [List.length_nil] at hwritten
      omega
    · have hread : m.eventType ∈ readConnections := mem_readConnections.2 (.inr (.inl he))
      have hunwritten : m.eventType ∈ unwrittenSessions := by
        rw [he]
        decide
      rw [if_pos hunwritten] at hwritten
      rw [if_pos hread, length_sized] at hlayout
      simp only [List.length_nil] at hwritten
      omega
    · have hunread : m.carried.eventType ∈ unreadSessions := by
        rw [hkept]
        exact mem_unreadSessions.2 (.inr he)
      have hnone := hreadable.session (.inr hunread)
      have hnot : m.eventType ∉ unwrittenSessions := by
        rw [he]
        decide
      rw [carried] at hnone
      exact (if_pos ⟨hevent, hnot⟩).symm.trans hnone
  · intro hsame
    refine ⟨readable_carried h hsame, List.replicate (paddingSize m.headerSize) 0,
      m.payload.length, List.length_replicate, le_rfl, h.payload_size, ?_⟩
    rw [layout, layoutNumber_carried, layoutEvent_carried hsame]
    simp only [layoutHeader, carried, nibbles, sized, List.append_assoc, List.cons_append,
      List.nil_append]

/-- A request of one byte in a session that is asked to finish. -/
theorem frame_round_trip_request :
    let m := { newMessage msgTypeFullClientRequest msgTypeFlagWithEvent with
      eventType := 102
      sessionID := [0x73, 0x31]
      payload := [0x61] }
    ∃ bytes, m.marshal = .ok bytes ∧ newMessageFromBytes bytes = .ok m.carried := by
  intro m
  obtain ⟨bytes, hbytes, hiff⟩ := frame_round_trip m (by constructor <;> decide)
  exact ⟨bytes, hbytes, hiff.2 fun _ => by decide⟩

end VolcMessage

end NewApi
