/-
**The scanner of a stream of events.**

The body of an upstream's answer comes in line by line.  Three parties share the work: the scanner
reads the lines, picks out the payloads of the events and puts them into a buffered channel; the
handler takes them out and sends them on; and the main function waits until one of the two says that
it has stopped, and then for both to end.  A fourth one may send pings.  They say so on one channel,
`stopChan`, which every one of them also listens to.

As long as the scanner has not closed the channel of the events nothing can have been said on
`stopChan`, and what is said later does not hold the handler up.  So every payload the scanner has
found is handled, whatever the order of the steps.

The scanner takes a line for the marker of the end if it is an event with the payload `[DONE]`.  It
lets a line pass that starts with `[DONE]` itself, and then cuts off five characters from it, as if
it were an event: what is left, `]`, is handled.

Main definitions:

* `NewApi.scanLine` — a line, as the scanner takes it;
* `NewApi.ScanState`, `NewApi.scanStep` — the parties and their steps;
* `NewApi.scanBody` — the lines of a body, one after the other;
* `NewApi.eventsBefore` — the events before the marker.

Main results:

* `NewApi.run_scanInv` — **every run without an incident does what is done one after the other**;
* `NewApi.scanner_delivers` — **the events before the marker are handled, unless the first marker is
  a line of its own**;
* `NewApi.bare_marker_handled` — a marker that is handled as an event.
-/

import NewApi.Common
import NewApi.Lib.Transition

set_option autoImplicit false

namespace NewApi

/-! ### Lines -/

/-- The string without its first `n` characters. -/
def dropChars (n : ℕ) (s : String) : String := String.ofList (s.toList.drop n)

/-- What the scanner makes of a line. -/
inductive ScannedLine where
  | skip
  | event (data : String)
  | done
deriving DecidableEq, Repr

def scanLine (line : String) : ScannedLine :=
  if byteLength line < 6 then .skip
  else if hasPrefix line "data:" = false ∧ hasPrefix line "[DONE]" = false then .skip
  else
    let data := trimSpace (dropChars 5 line)
    if data = "" then .skip
    else if hasPrefix data "[DONE]" then .done
    else .event data

/-! ### The parties -/

inductive StreamEndReason where
  | done
  | eof
  | timeout
  | clientGone
  | scannerError
  | handlerStop
  | pingFail
deriving DecidableEq, Repr

/-- Where the scanner is: before a line, at a line, with an event in its hands, or at its end, where
it closes the channel of the events, says that it is done, and signals. -/
inductive ScannerAt where
  | scanning
  | checking (line : String)
  | sending (data : String)
  | closing
  | leaving
  | signalling
  | exited
deriving DecidableEq, Repr

inductive HandlerAt where
  | receiving
  | handling (data : String)
  | leaving
  | signalling
  | exited
deriving DecidableEq, Repr

/-- The pings go on, or have ended, perhaps by a signal. -/
inductive PingAt where
  | pinging
  | exited
deriving DecidableEq, Repr

inductive MainAt where
  | waiting
  | cancelling
  | notifying
  | joining
  | closing
  | returned
deriving DecidableEq, Repr

/-- The parties and the channels between them.  Of `stopChan` only the number of signals in it
matters.  `handled` are the events the handler has been called with. -/
structure ScanState where
  lines : List String
  scanner : ScannerAt
  handler : HandlerAt
  ping : PingAt
  main : MainAt
  dataChan : List String
  dataClosed : Bool
  stopChan : ℕ
  stopClosed : Bool
  ctxDone : Bool
  clientGone : Bool
  endReason : Option StreamEndReason
  handled : List String
deriving DecidableEq, Repr

def dataChanSize : ℕ := 10

def stopChanSize : ℕ := 3

/-- Before the first step. -/
def scanStart (pingEnabled : Bool) (lines : List String) : ScanState where
  lines := lines
  scanner := .scanning
  handler := .receiving
  ping := if pingEnabled then .pinging else .exited
  main := .waiting
  dataChan := []
  dataClosed := false
  stopChan := 0
  stopClosed := false
  ctxDone := false
  clientGone := false
  endReason := none
  handled := []

namespace ScanState

/-- The reason of the end is set once. -/
def setEndReason (reason : StreamEndReason) (s : ScanState) : ScanState :=
  { s with endReason := s.endReason.or (some reason) }

/-- A signal, which waits for room in the channel; to a channel that is closed it gets lost. -/
def safeSendBool (s : ScanState) : Option ScanState :=
  if s.stopClosed then some s
  else if s.stopChan < stopChanSize then some { s with stopChan := s.stopChan + 1 }
  else none

/-- The line has been found to be `r`. -/
def scanned (r : ScannedLine) (s : ScanState) : ScanState :=
  match r with
  | .skip => { s with scanner := .scanning }
  | .event data => { s with scanner := .sending data }
  | .done => { s.setEndReason .done with scanner := .closing }

end ScanState

/-! ### Steps -/

/-- The case a party chooses when it listens to several channels. -/
inductive SelectCase where
  | stop
  | cancelled
  | clientGone
  | go
deriving DecidableEq, Repr

inductive ScannerAction where
  | scan
  | scanError
  | check (c : SelectCase)
  | send (c : SelectCase)
  | close
  | leave
  | signal
deriving DecidableEq, Repr

/-- `handle` says whether the handler asks to stop. -/
inductive HandlerAction where
  | receive
  | handle (stops : Bool)
  | leave
  | signal
deriving DecidableEq, Repr

inductive PingAction where
  | stop
  | cancelled
  | fail
  | expire
deriving DecidableEq, Repr

inductive MainAction where
  | wake
  | timeout
  | clientGone
  | cancel
  | notify
  | join
  | joinTimeout
  | close
deriving DecidableEq, Repr

inductive ScanAction where
  | scanner (a : ScannerAction)
  | handler (a : HandlerAction)
  | ping (a : PingAction)
  | main (a : MainAction)
  | disconnect
deriving DecidableEq, Repr

/-- A step of the scanner.  A step that is not possible does nothing. -/
def scannerStep (s : ScanState) (a : ScannerAction) : ScanState :=
  match s.scanner, a with
  | .scanning, .scan =>
    match s.lines with
    | [] => { s.setEndReason .eof with scanner := .closing }
    | line :: rest => { s with lines := rest, scanner := .checking line }
  | .scanning, .scanError => { s.setEndReason .scannerError with scanner := .closing }
  | .checking _, .check .stop =>
    if 0 < s.stopChan then { s with stopChan := s.stopChan - 1, scanner := .closing } else s
  | .checking _, .check .cancelled => if s.ctxDone then { s with scanner := .closing } else s
  | .checking _, .check .clientGone =>
    if s.clientGone then { s.setEndReason .clientGone with scanner := .closing } else s
  | .checking line, .check .go =>
    if s.stopChan = 0 ∧ s.ctxDone = false ∧ s.clientGone = false then s.scanned (scanLine line)
    else s
  | .sending _, .send .stop =>
    if 0 < s.stopChan then { s with stopChan := s.stopChan - 1, scanner := .closing } else s
  | .sending _, .send .cancelled => if s.ctxDone then { s with scanner := .closing } else s
  | .sending data, .send .go =>
    if s.dataChan.length < dataChanSize then
      { s with dataChan := s.dataChan ++ [data], scanner := .scanning }
    else s
  | .closing, .close => { s with dataClosed := true, scanner := .leaving }
  | .leaving, .leave => { s with scanner := .signalling }
  | .signalling, .signal => (s.safeSendBool.map fun s => { s with scanner := .exited }).getD s
  | _, _ => s

/-- A step of the handler. -/
def handlerStep (s : ScanState) (a : HandlerAction) : ScanState :=
  match s.handler, a with
  | .receiving, .receive =>
    match s.dataChan with
    | data :: rest => { s with dataChan := rest, handler := .handling data }
    | [] => if s.dataClosed then { s with handler := .leaving } else s
  | .handling data, .handle false =>
    { s with handled := s.handled ++ [data], handler := .receiving }
  | .handling data, .handle true =>
    { s.setEndReason .handlerStop with handled := s.handled ++ [data], handler := .leaving }
  | .leaving, .leave => { s with handler := .signalling }
  | .signalling, .signal => (s.safeSendBool.map fun s => { s with handler := .exited }).getD s
  | _, _ => s

/-- A step of the pings; what is sent does not matter here. -/
def pingStep (s : ScanState) (a : PingAction) : ScanState :=
  match s.ping, a with
  | .pinging, .stop =>
    if 0 < s.stopChan then { s with stopChan := s.stopChan - 1, ping := .exited } else s
  | .pinging, .cancelled => if s.ctxDone then { s with ping := .exited } else s
  | .pinging, .fail => { s.setEndReason .pingFail with ping := .exited }
  | .pinging, .expire => { s with ping := .exited }
  | _, _ => s

/-- All parties have said that they are done. -/
def ScanState.AllDone (s : ScanState) : Prop :=
  (s.scanner = .signalling ∨ s.scanner = .exited) ∧
    (s.handler = .signalling ∨ s.handler = .exited) ∧ s.ping = .exited

instance ScanState.decidableAllDone (s : ScanState) : Decidable s.AllDone :=
  inferInstanceAs (Decidable (_ ∧ _ ∧ _))

/-- A step of the main function. -/
def mainStep (s : ScanState) (a : MainAction) : ScanState :=
  match s.main, a with
  | .waiting, .wake =>
    if 0 < s.stopChan then { s with stopChan := s.stopChan - 1, main := .cancelling } else s
  | .waiting, .timeout => { s.setEndReason .timeout with main := .cancelling }
  | .waiting, .clientGone =>
    if s.clientGone then { s.setEndReason .clientGone with main := .cancelling } else s
  | .cancelling, .cancel => { s with ctxDone := true, main := .notifying }
  | .notifying, .notify => (s.safeSendBool.map fun s => { s with main := .joining }).getD s
  | .joining, .join => if s.AllDone then { s with main := .closing } else s
  | .joining, .joinTimeout => { s with main := .closing }
  | .closing, .close => { s with stopClosed := true, main := .returned }
  | _, _ => s

def scanStep (s : ScanState) : ScanAction → ScanState
  | .scanner a => scannerStep s a
  | .handler a => handlerStep s a
  | .ping a => pingStep s a
  | .main a => mainStep s a
  | .disconnect => { s with clientGone := true }

/-- An action that is no incident: no timeout, no error, the client stays, and the handler does not
ask to stop. -/
def ScanAction.Regular : ScanAction → Prop
  | .scanner .scanError | .handler (.handle true) | .ping .fail | .main .timeout
  | .main .joinTimeout | .disconnect => False
  | _ => True

instance : DecidablePred ScanAction.Regular := fun a => by
  unfold ScanAction.Regular; split <;> infer_instance

/-! ### One line after the other -/

/-- The payloads of a body, and why it ends. -/
def scanBody : List String → List String × StreamEndReason
  | [] => ([], .eof)
  | line :: rest =>
    match scanLine line with
    | .skip => scanBody rest
    | .event data => (data :: (scanBody rest).1, (scanBody rest).2)
    | .done => ([], .done)

/-! ### What the parties have in hands -/

/-- The scanner has closed the channel of the events. -/
def ScannerAt.past : ScannerAt → Bool
  | .leaving | .signalling | .exited => true
  | _ => false

/-- The handler still takes events. -/
def HandlerAt.active : HandlerAt → Bool
  | .receiving | .handling _ => true
  | _ => false

def HandlerAt.held : HandlerAt → List String
  | .handling data => [data]
  | _ => []

/-- The main function has seen that all parties are done, if it has not lost patience. -/
def MainAt.ended : MainAt → Bool
  | .closing | .returned => true
  | _ => false

/-- The payloads that are not in the channel yet, `lines` being the lines that are still to be read. -/
def ScannerAt.ahead (lines : List String) : ScannerAt → List String
  | .scanning => (scanBody lines).1
  | .checking line => (scanBody (line :: lines)).1
  | .sending data => data :: (scanBody lines).1
  | _ => []

/-- Why the body is going to end. -/
def ScannerAt.due (lines : List String) : ScannerAt → Option StreamEndReason
  | .scanning | .sending _ => some (scanBody lines).2
  | .checking line => some (scanBody (line :: lines)).2
  | _ => none

/-- In a run without an incident every payload of the body has been handled, is in somebody's hands
or is ahead.  Until the scanner closes the channel of the events the other parties are where they
have been, and once the handler has stopped there is nothing left in it. -/
structure ScanInv (body : List String) (s : ScanState) : Prop where
  present : s.clientGone = false
  quiet : s.dataClosed = false →
    s.stopChan = 0 ∧ s.ctxDone = false ∧ s.main = .waiting ∧ s.handler.active = true
  closed : s.dataClosed = s.scanner.past
  kept : s.handled ++ s.handler.held ++ s.dataChan ++ s.scanner.ahead s.lines
    = (scanBody body).1
  reason : (s.scanner.due s.lines = some (scanBody body).2 ∧ s.endReason = none) ∨
    (s.scanner.due s.lines = none ∧ s.endReason = some (scanBody body).2)
  drained : s.handler.active = false → s.dataChan = [] ∧ s.dataClosed = true
  joined : s.main.ended = true → s.handler.active = false

theorem scanStart_inv (pingEnabled : Bool) (body : List String) :
    ScanInv body (scanStart pingEnabled body) where
  present := rfl
  quiet _ := ⟨rfl, rfl, rfl, rfl⟩
  closed := rfl
  kept := rfl
  reason := .inl ⟨rfl, rfl⟩
  drained h := by simp [scanStart, HandlerAt.active] at h
  joined h := by simp [scanStart, MainAt.ended] at h

section Invariant

variable {body : List String} {s : ScanState}

/-- A signal changes nothing but the number of signals. -/
theorem safeSendBool_eq {s' : ScanState} (h : s.safeSendBool = some s') :
    ∃ n, s' = { s with stopChan := n } := by
  unfold ScanState.safeSendBool at h
  split_ifs at h
  · exact ⟨s.stopChan, (Option.some.inj h).symm⟩
  · exact ⟨s.stopChan + 1, (Option.some.inj h).symm⟩

/-- As long as the end is due its reason is not set. -/
theorem ScanInv.unset (h : ScanInv body s) (hdue : s.scanner.due s.lines ≠ none) :
    s.endReason = none := by
  rcases h.reason with ⟨_, hunset⟩ | ⟨hnone, _⟩
  · exact hunset
  · exact absurd hnone hdue

/-- The scanner goes on with the body: what is in the channel and ahead stays the same, and so does
the reason of the end, which is set when it is no longer due. -/
theorem ScanInv.read (h : ScanInv body s) (hpast : s.scanner.past = false) {lines dataChan : List String}
    {scanner : ScannerAt} {endReason : Option StreamEndReason} (hpast' : scanner.past = false)
    (hkept : dataChan ++ scanner.ahead lines = s.dataChan ++ s.scanner.ahead s.lines)
    (hreason : (scanner.due lines = s.scanner.due s.lines ∧ endReason = s.endReason) ∨
      (scanner.due lines = none ∧ s.endReason = none ∧ endReason = s.scanner.due s.lines)) :
    ScanInv body { s with
      lines := lines, scanner := scanner, dataChan := dataChan, endReason := endReason } := by
  have hopen : s.dataClosed = false := h.closed.trans hpast
  have hactive := (h.quiet hopen).2.2.2
  refine ⟨h.present, h.quiet, by rw [hpast']; exact hopen, ?_, ?_, ?_, h.joined⟩
  · have hall := h.kept
    rw [List.append_assoc] at hall ⊢
    rw [← hall, hkept]
  · rcases hreason with ⟨hdue, hsame⟩ | ⟨hdue, hunset, hset⟩
    · rw [hdue, hsame]
      exact h.reason
    · rcases h.reason with ⟨hdue', _⟩ | ⟨_, hset'⟩
      · exact .inr ⟨hdue, hset.trans hdue'⟩
      · simp [hunset] at hset'
  · intro hidle
    rw [hactive] at hidle
    simp at hidle

/-- The channel is closed by now, and the scanner has nothing more to do with the events. -/
theorem ScanInv.leave (h : ScanInv body s) (hahead : s.scanner.ahead s.lines = [])
    (hdue : s.scanner.due s.lines = none) {scanner : ScannerAt} (hpast : scanner.past = true)
    (stopChan : ℕ) :
    ScanInv body { s with scanner := scanner, dataClosed := true, stopChan := stopChan } := by
  have hahead' : scanner.ahead s.lines = [] := by
    cases scanner <;> simp [ScannerAt.past, ScannerAt.ahead] at hpast ⊢
  have hdue' : scanner.due s.lines = none := by
    cases scanner <;> simp [ScannerAt.past, ScannerAt.due] at hpast ⊢
  refine ⟨h.present, ?_, hpast.symm, ?_, ?_, ?_, h.joined⟩
  · intro hopen
    simp at hopen
  · rw [hahead', ← hahead]
    exact h.kept
  · have hreason := h.reason
    rw [hdue] at hreason
    rw [hdue']
    exact hreason
  · intro hidle
    exact ⟨(h.drained hidle).1, rfl⟩

/-- The handler has stopped, and signals. -/
theorem ScanInv.retire (h : ScanInv body s) (hidle : s.handler.active = false)
    (hheld : s.handler.held = []) {handler : HandlerAt} (hidle' : handler.active = false)
    (hheld' : handler.held = []) (stopChan : ℕ) :
    ScanInv body { s with handler := handler, stopChan := stopChan } := by
  obtain ⟨hempty, hclosed⟩ := h.drained hidle
  refine ⟨h.present, fun hopen => ?_, h.closed, ?_, h.reason, fun _ => ⟨hempty, hclosed⟩,
    fun _ => hidle'⟩
  · rw [show s.dataClosed = false from hopen] at hclosed
    simp at hclosed
  · rw [hheld', ← hheld]
    exact h.kept

theorem scannerStep_inv (h : ScanInv body s) {a : ScannerAction}
    (ha : (ScanAction.scanner a).Regular) : ScanInv body (scannerStep s a) := by
  cases hs : s.scanner with
  | scanning =>
    have hpast : s.scanner.past = false := by rw [hs]; rfl
    cases a with
    | scan =>
      have hunset : s.endReason = none := h.unset (by simp [hs, ScannerAt.due])
      cases hlines : s.lines with
      | nil =>
        have hstep : scannerStep s .scan = { s with
            lines := s.lines, scanner := .closing, dataChan := s.dataChan
            endReason := some .eof } := by
          simp [scannerStep, hs, hlines, ScanState.setEndReason, hunset]
        rw [hstep]
        exact h.read hpast rfl (by simp [hs, hlines, ScannerAt.ahead, scanBody])
          (.inr ⟨rfl, hunset, by simp [hs, hlines, ScannerAt.due, scanBody]⟩)
      | cons line rest =>
        have hstep : scannerStep s .scan = { s with
            lines := rest, scanner := .checking line, dataChan := s.dataChan
            endReason := s.endReason } := by
          simp [scannerStep, hs, hlines]
        rw [hstep]
        exact h.read hpast rfl (by rw [hs, hlines]; rfl) (.inl ⟨by rw [hs, hlines]; rfl, rfl⟩)
    | scanError => exact ha.elim
    | _ => simpa [scannerStep, hs] using h
  | checking line =>
    have hpast : s.scanner.past = false := by rw [hs]; rfl
    have hopen : s.dataClosed = false := h.closed.trans hpast
    obtain ⟨hnone, hctx, _, _⟩ := h.quiet hopen
    have hunset : s.endReason = none := h.unset (by simp [hs, ScannerAt.due])
    cases a with
    | check c =>
      cases c with
      | stop => simpa [scannerStep, hs, hnone] using h
      | cancelled => simpa [scannerStep, hs, hctx] using h
      | clientGone => simpa [scannerStep, hs, h.present] using h
      | go =>
        have hgo : scannerStep s (.check .go) = s.scanned (scanLine line) := by
          simp [scannerStep, hs, hnone, hctx, h.present]
        rw [hgo]
        cases hline : scanLine line with
        | skip | event data =>
          exact h.read hpast rfl (by simp [hs, ScannerAt.ahead, scanBody, hline])
            (.inl ⟨by simp [hs, ScannerAt.due, scanBody, hline], rfl⟩)
        | done =>
          refine h.read hpast rfl ?_ (.inr ⟨rfl, hunset, ?_⟩)
          · simp [hs, ScannerAt.ahead, scanBody, hline, ScanState.setEndReason]
          · simp [hs, ScannerAt.due, scanBody, hline, ScanState.setEndReason, hunset]
    | _ => simpa [scannerStep, hs] using h
  | sending data =>
    have hpast : s.scanner.past = false := by rw [hs]; rfl
    have hopen : s.dataClosed = false := h.closed.trans hpast
    obtain ⟨hnone, hctx, _, _⟩ := h.quiet hopen
    cases a with
    | send c =>
      cases c with
      | stop => simpa [scannerStep, hs, hnone] using h
      | cancelled => simpa [scannerStep, hs, hctx] using h
      | clientGone => simpa [scannerStep, hs] using h
      | go =>
        simp only [scannerStep, hs]
        split_ifs with hroom
        · exact h.read hpast rfl (by simp [hs, ScannerAt.ahead])
            (.inl ⟨by simp [hs, ScannerAt.due], rfl⟩)
        · exact h
    | _ => simpa [scannerStep, hs] using h
  | closing =>
    cases a with
    | close =>
      simp only [scannerStep, hs]
      exact h.leave (by rw [hs]; rfl) (by rw [hs]; rfl) rfl s.stopChan
    | _ => simpa [scannerStep, hs] using h
  | leaving =>
    cases a with
    | leave =>
      have hclosed : s.dataClosed = true := h.closed.trans (by rw [hs]; rfl)
      have hstep : scannerStep s .leave = { s with
          scanner := .signalling, dataClosed := true, stopChan := s.stopChan } := by
        simp [scannerStep, hs, ← hclosed]
      rw [hstep]
      exact h.leave (by rw [hs]; rfl) (by rw [hs]; rfl) rfl s.stopChan
    | _ => simpa [scannerStep, hs] using h
  | signalling =>
    cases a with
    | signal =>
      have hclosed : s.dataClosed = true := h.closed.trans (by rw [hs]; rfl)
      cases hsend : s.safeSendBool with
      | none => simpa [scannerStep, hs, hsend] using h
      | some s' =>
        obtain ⟨n, rfl⟩ := safeSendBool_eq hsend
        have hstep : scannerStep s .signal = { s with
            scanner := .exited, dataClosed := true, stopChan := n } := by
          simp [scannerStep, hs, hsend, ← hclosed]
        rw [hstep]
        exact h.leave (by rw [hs]; rfl) (by rw [hs]; rfl) rfl n
    | _ => simpa [scannerStep, hs] using h
  | exited => cases a <;> simpa [scannerStep, hs] using h

theorem handlerStep_inv (h : ScanInv body s) {a : HandlerAction}
    (ha : (ScanAction.handler a).Regular) : ScanInv body (handlerStep s a) := by
  cases hs : s.handler with
  | receiving =>
    cases a with
    | receive =>
      have hkept := h.kept
      rw [hs] at hkept
      cases hdata : s.dataChan with
      | nil =>
        simp only [handlerStep, hs, hdata]
        split_ifs with hclosed
        · -- the channel is closed and there is nothing left in it
          rw [hdata] at hkept
          refine ⟨h.present, fun hopen => ?_, h.closed, ?_, h.reason, fun _ => ?_, fun _ => rfl⟩
          · rw [show s.dataClosed = false from hopen] at hclosed
            simp at hclosed
          · simpa [HandlerAt.held, hdata] using hkept
          · exact ⟨rfl, hclosed⟩
        · exact h
      | cons data rest =>
        have hstep : handlerStep s .receive
            = { s with dataChan := rest, handler := .handling data } := by
          simp [handlerStep, hs, hdata]
        rw [hstep]
        rw [hdata] at hkept
        refine ⟨h.present, fun hopen => ?_, h.closed, ?_, h.reason, fun hidle => ?_,
          fun hended => ?_⟩
        · obtain ⟨hnone, hctx, hmain, _⟩ := h.quiet hopen
          exact ⟨hnone, hctx, hmain, rfl⟩
        · simpa [HandlerAt.held] using hkept
        · simp [HandlerAt.active] at hidle
        · have hidle := h.joined hended
          simp [hs, HandlerAt.active] at hidle
    | _ => simpa [handlerStep, hs] using h
  | handling data =>
    cases a with
    | handle stops =>
      cases stops with
      | true => exact ha.elim
      | false =>
        have hkept := h.kept
        rw [hs] at hkept
        simp only [handlerStep, hs]
        refine ⟨h.present, fun hopen => ?_, h.closed, ?_, h.reason, fun hidle => ?_,
          fun hended => ?_⟩
        · obtain ⟨hnone, hctx, hmain, _⟩ := h.quiet hopen
          exact ⟨hnone, hctx, hmain, rfl⟩
        · simpa [HandlerAt.held] using hkept
        · simp [HandlerAt.active] at hidle
        · have hidle := h.joined hended
          simp [hs, HandlerAt.active] at hidle
    | _ => simpa [handlerStep, hs] using h
  | leaving =>
    cases a with
    | leave =>
      simp only [handlerStep, hs]
      exact h.retire (by rw [hs]; rfl) (by rw [hs]; rfl) rfl rfl s.stopChan
    | _ => simpa [handlerStep, hs] using h
  | signalling =>
    cases a with
    | signal =>
      cases hsend : s.safeSendBool with
      | none => simpa [handlerStep, hs, hsend] using h
      | some s' =>
        obtain ⟨n, rfl⟩ := safeSendBool_eq hsend
        simp only [handlerStep, hs, hsend, Option.map_some, Option.getD_some]
        exact h.retire (by rw [hs]; rfl) (by rw [hs]; rfl) rfl rfl n
    | _ => simpa [handlerStep, hs] using h
  | exited => cases a <;> simpa [handlerStep, hs] using h

/-- Once the channel of the events is closed the number of signals, the pings and the main function
do not matter, but that the main function ends after the handler. -/
theorem ScanInv.others (h : ScanInv body s) (hclosed : s.dataClosed = true) (ping : PingAt)
    {main : MainAt} (hended : main.ended = true → s.handler.active = false) (stopChan : ℕ)
    (stopClosed ctxDone : Bool) :
    ScanInv body { s with
      ping := ping, main := main, stopChan := stopChan, stopClosed := stopClosed
      ctxDone := ctxDone } := by
  refine ⟨h.present, fun hopen => ?_, h.closed, h.kept, h.reason, h.drained, hended⟩
  rw [show s.dataClosed = false from hopen] at hclosed
  simp at hclosed

/-- The channel is closed if something has happened that waits for its end. -/
theorem ScanInv.closed_of (h : ScanInv body s)
    (hnot : ¬ (s.stopChan = 0 ∧ s.ctxDone = false ∧ s.main = .waiting ∧ s.handler.active = true)) :
    s.dataClosed = true := by
  cases hclosed : s.dataClosed with
  | true => rfl
  | false => exact absurd (h.quiet hclosed) hnot

theorem pingStep_inv (h : ScanInv body s) {a : PingAction} (ha : (ScanAction.ping a).Regular) :
    ScanInv body (pingStep s a) := by
  cases hs : s.ping with
  | pinging =>
    cases a with
    | stop =>
      simp only [pingStep, hs]
      split_ifs with hsignal
      · exact h.others (h.closed_of (by omega)) .exited h.joined _ _ _
      · exact h
    | cancelled =>
      simp only [pingStep, hs]
      split_ifs with hctx
      · exact h.others (h.closed_of (by simp [hctx])) .exited h.joined _ _ _
      · exact h
    | fail => exact ha.elim
    | expire =>
      simp only [pingStep, hs]
      exact ⟨h.present, h.quiet, h.closed, h.kept, h.reason, h.drained, h.joined⟩
  | exited => cases a <;> simpa [pingStep, hs] using h

theorem mainStep_inv (h : ScanInv body s) {a : MainAction} (ha : (ScanAction.main a).Regular) :
    ScanInv body (mainStep s a) := by
  cases hs : s.main with
  | waiting =>
    cases a with
    | wake =>
      simp only [mainStep, hs]
      split_ifs with hsignal
      · exact h.others (h.closed_of (by omega)) s.ping (by simp [MainAt.ended]) _ _ _
      · exact h
    | timeout => exact ha.elim
    | clientGone => simpa [mainStep, hs, h.present] using h
    | _ => simpa [mainStep, hs] using h
  | cancelling =>
    have hclosed := h.closed_of (by simp [hs])
    cases a with
    | cancel =>
      simp only [mainStep, hs]
      exact h.others hclosed s.ping (by simp [MainAt.ended]) _ _ _
    | _ => simpa [mainStep, hs] using h
  | notifying =>
    have hclosed := h.closed_of (by simp [hs])
    cases a with
    | notify =>
      cases hsend : s.safeSendBool with
      | none => simpa [mainStep, hs, hsend] using h
      | some s' =>
        obtain ⟨n, rfl⟩ := safeSendBool_eq hsend
        simp only [mainStep, hs, hsend, Option.map_some, Option.getD_some]
        exact h.others hclosed s.ping (by simp [MainAt.ended]) n _ _
    | _ => simpa [mainStep, hs] using h
  | joining =>
    have hclosed := h.closed_of (by simp [hs])
    cases a with
    | join =>
      simp only [mainStep, hs]
      split_ifs with hdone
      · refine h.others hclosed s.ping (fun _ => ?_) _ _ _
        rcases hdone.2.1 with hhandler | hhandler <;> rw [hhandler] <;> rfl
      · exact h
    | joinTimeout => exact ha.elim
    | _ => simpa [mainStep, hs] using h
  | closing =>
    have hclosed := h.closed_of (by simp [hs])
    cases a with
    | close =>
      simp only [mainStep, hs]
      exact h.others hclosed s.ping (fun _ => h.joined (by rw [hs]; rfl)) _ _ _
    | _ => simpa [mainStep, hs] using h
  | returned => cases a <;> simpa [mainStep, hs] using h

theorem scanStep_inv (s : ScanState) (a : ScanAction) (h : ScanInv body s) (ha : a.Regular) :
    ScanInv body (scanStep s a) := by
  cases a with
  | scanner a => exact scannerStep_inv h ha
  | handler a => exact handlerStep_inv h ha
  | ping a => exact pingStep_inv h ha
  | main a => exact mainStep_inv h ha
  | disconnect => exact ha.elim

/-- **Every run without an incident keeps the invariant.** -/
theorem run_scanInv (pingEnabled : Bool) (body : List String) {as : List ScanAction}
    (has : ∀ a ∈ as, a.Regular) :
    ScanInv body (Transition.run scanStep (scanStart pingEnabled body) as) :=
  Transition.run_invariant scanStep_inv (scanStart_inv pingEnabled body)
    (Transition.along_of_forall has)

/-- When the main function returns the events have been handled as they come one after the other. -/
theorem ScanInv.returned (h : ScanInv body s) (hmain : s.main = .returned) :
    s.handled = (scanBody body).1 ∧ s.endReason = some (scanBody body).2 := by
  have hidle : s.handler.active = false := h.joined (by rw [hmain]; rfl)
  obtain ⟨hempty, hclosed⟩ := h.drained hidle
  have hpast : s.scanner.past = true := h.closed.symm.trans hclosed
  have hheld : s.handler.held = [] := by
    cases hs : s.handler <;> simp [hs, HandlerAt.active, HandlerAt.held] at hidle ⊢
  have hahead : s.scanner.ahead s.lines = [] := by
    cases hs : s.scanner <;> simp [hs, ScannerAt.past, ScannerAt.ahead] at hpast ⊢
  have hdue : s.scanner.due s.lines = none := by
    cases hs : s.scanner <;> simp [hs, ScannerAt.past, ScannerAt.due] at hpast ⊢
  constructor
  · have hkept := h.kept
    rw [hheld, hempty, hahead] at hkept
    simpa using hkept
  · rcases h.reason with ⟨hdue', _⟩ | ⟨_, hset⟩
    · simp [hdue] at hdue'
    · exact hset

end Invariant

/-! ### The events before the marker -/

/-- The payload of an event, trimmed. -/
def dataPayload (line : String) : Option String :=
  if hasPrefix line "data:" then some (trimSpace (dropChars 5 line)) else none

/-- A marker of the end, as an event or as a line of its own. -/
def isMarker (line : String) : Bool :=
  hasPrefix line "[DONE]" || (dataPayload line).any fun payload => hasPrefix payload "[DONE]"

/-- The payloads of the events before the first marker that are not empty, and why the body ends. -/
def eventsBefore : List String → List String × StreamEndReason
  | [] => ([], .eof)
  | line :: rest =>
    if isMarker line then ([], .done)
    else
      match dataPayload line with
      | none => eventsBefore rest
      | some payload =>
        if payload = "" then eventsBefore rest
        else (payload :: (eventsBefore rest).1, (eventsBefore rest).2)

/-- The first marker, if there is one, is an event. -/
def MarkerIsEvent (body : List String) : Prop :=
  ∀ line, body.find? isMarker = some line → hasPrefix line "data:" = true

theorem hasPrefix_iff {s pre : String} :
    hasPrefix s pre = true ↔ ∃ rest, s.toList = pre.toList ++ rest := by
  rw [hasPrefix, List.isPrefixOf_iff_prefix]
  constructor
  · rintro ⟨rest, hrest⟩
    exact ⟨rest, hrest.symm⟩
  · rintro ⟨rest, hrest⟩
    exact ⟨rest, hrest.symm⟩

/-- A string has at least as many bytes as characters. -/
theorem length_le_byteLength (s : String) : s.toList.length ≤ byteLength s := by
  rw [byteLength]
  induction s.toList with
  | nil => simp
  | cons c l ih =>
    have hpos : 0 < c.utf8Size := Char.utf8Size_pos c
    simp only [List.map_cons, List.sum_cons, List.length_cons]
    omega

/-- A short line that starts as an event has no payload. -/
theorem dropChars_of_short {line : String} (h : hasPrefix line "data:" = true)
    (hshort : byteLength line < 6) : dropChars 5 line = "" := by
  obtain ⟨rest, hrest⟩ := hasPrefix_iff.1 h
  have hlength := length_le_byteLength line
  rw [hrest] at hlength
  have hnil : rest = [] := by
    cases rest with
    | nil => rfl
    | cons c rest => simp at hlength; omega
  rw [dropChars, hrest, hnil]
  rfl

/-- An event is taken for what it is. -/
theorem scanLine_data {line payload : String} (h : dataPayload line = some payload) :
    scanLine line = if payload = "" then .skip
      else if hasPrefix payload "[DONE]" then .done else .event payload := by
  unfold dataPayload at h
  split_ifs at h with hdata
  obtain rfl := Option.some.inj h
  unfold scanLine
  by_cases hshort : byteLength line < 6
  · rw [if_pos hshort, dropChars_of_short hdata hshort]
    simp
  · simp [hshort, hdata]

/-- A line that is neither an event nor starts with the marker is skipped. -/
theorem scanLine_other {line : String} (h : dataPayload line = none)
    (hmarker : hasPrefix line "[DONE]" = false) : scanLine line = .skip := by
  have hdata : hasPrefix line "data:" = false := by
    unfold dataPayload at h
    split_ifs at h with hdata
    exact Bool.eq_false_of_not_eq_true hdata
  simp [scanLine, hdata, hmarker]

/-- A trimmed string starts as before if it does not start with white space. -/
theorem toList_trimSpace_cons {s : String} {c : Char} {rest : List Char}
    (h : s.toList = c :: rest) (hc : isSpace c = false) :
    ∃ more, (trimSpace s).toList = c :: more := by
  have hfirst : s.toList.dropWhile isSpace = c :: rest := by simp [h, hc]
  simp only [trimSpace, trimList, String.toList_ofList, hfirst, List.reverse_cons,
    List.dropWhile_append]
  split_ifs
  · exact ⟨[], by simp [hc]⟩
  · exact ⟨_, by rw [List.reverse_append]; rfl⟩

/-- Of a marker that is a line of its own a payload is left. -/
theorem scanLine_bare {line : String} (hmarker : hasPrefix line "[DONE]" = true) :
    ∃ data, scanLine line = .event data := by
  obtain ⟨rest, hrest⟩ := hasPrefix_iff.1 hmarker
  have hlength := length_le_byteLength line
  rw [hrest] at hlength
  have hlong : ¬ byteLength line < 6 := by
    simp at hlength
    omega
  have hdrop : (dropChars 5 line).toList = ']' :: rest := by
    rw [dropChars, hrest]
    simp
  -- what is left starts with a bracket
  obtain ⟨more, hmore⟩ := toList_trimSpace_cons hdrop (by decide)
  have hne : trimSpace (dropChars 5 line) ≠ "" := by
    intro hempty
    simp [hempty] at hmore
  have hnot : hasPrefix (trimSpace (dropChars 5 line)) "[DONE]" = false := by
    rw [hasPrefix, hmore]
    rfl
  exact ⟨_, by simp [scanLine, hlong, hmarker, hne, hnot]; rfl⟩

/-- One line after the other, the events before the marker are found just if the first marker is
one. -/
theorem scanBody_eq_eventsBefore_iff (body : List String) :
    scanBody body = eventsBefore body ↔ MarkerIsEvent body := by
  induction body with
  | nil => simp [scanBody, eventsBefore, MarkerIsEvent]
  | cons line rest ih =>
    cases hbare : hasPrefix line "[DONE]" with
    | true =>
      obtain ⟨data, hdata⟩ := scanLine_bare hbare
      have hmarker : isMarker line = true := by simp [isMarker, hbare]
      have hnot : hasPrefix line "data:" = false := by
        obtain ⟨more, hmore⟩ := hasPrefix_iff.1 hbare
        rw [hasPrefix, hmore]
        rfl
      simp [scanBody, eventsBefore, MarkerIsEvent, hdata, hmarker, hnot]
    | false =>
      cases hpayload : dataPayload line with
      | none =>
        have hmarker : isMarker line = false := by simp [isMarker, hbare, hpayload]
        rw [MarkerIsEvent, List.find?_cons_of_neg (by simp [hmarker])]
        simpa [scanBody, eventsBefore, scanLine_other hpayload hbare, hmarker, hpayload,
          MarkerIsEvent] using ih
      | some payload =>
        have hscan := scanLine_data hpayload
        have hevent : hasPrefix line "data:" = true := by
          by_contra hnot
          simp [dataPayload, hnot] at hpayload
        by_cases hempty : payload = ""
        · have hmarker : isMarker line = false := by
            rw [isMarker, hbare, hpayload, hempty]
            rfl
          rw [MarkerIsEvent, List.find?_cons_of_neg (by simp [hmarker])]
          simpa [scanBody, eventsBefore, hscan, hmarker, hpayload, hempty, MarkerIsEvent]
            using ih
        · cases hdone : hasPrefix payload "[DONE]" with
          | true =>
            have hmarker : isMarker line = true := by simp [isMarker, hpayload, hdone]
            simp [scanBody, eventsBefore, MarkerIsEvent, hscan, hmarker, hempty, hdone,
              hevent]
          | false =>
            have hmarker : isMarker line = false := by
              simp [isMarker, hbare, hpayload, hdone]
            rw [MarkerIsEvent, List.find?_cons_of_neg (by simp [hmarker])]
            rw [Prod.ext_iff] at ih
            simpa [scanBody, eventsBefore, hscan, hmarker, hpayload, hempty, hdone,
              MarkerIsEvent] using ih

/-- **The scanner delivers the events before the marker.**  In every run without an incident that has
returned, the handler has been called with the payloads of the events before the first marker, in
their order, and the reason of the end tells whether there was one, if and only if the first marker,
if there is one, is an event. -/
theorem scanner_delivers (pingEnabled : Bool) (body : List String) (as : List ScanAction)
    (has : ∀ a ∈ as, a.Regular)
    (hreturned : (Transition.run scanStep (scanStart pingEnabled body) as).main = .returned) :
    let s := Transition.run scanStep (scanStart pingEnabled body) as
    (s.handled = (eventsBefore body).1 ∧ s.endReason = some (eventsBefore body).2) ↔
      MarkerIsEvent body := by
  intro s
  obtain ⟨hhandled, hreason⟩ := (run_scanInv pingEnabled body has).returned hreturned
  rw [← scanBody_eq_eventsBefore_iff, Prod.ext_iff, hhandled, hreason, Option.some_inj]

/-- An event that is read and handled. -/
def oneEvent : List ScanAction :=
  [.scanner .scan, .scanner (.check .go), .scanner (.send .go), .handler .receive,
    .handler (.handle false)]

/-- The end of a run: the scanner stops, then the handler, then the main function. -/
def lastSteps : List ScanAction :=
  [.scanner .close, .scanner .leave, .scanner .signal, .main .wake, .handler .receive,
    .handler .leave, .handler .signal, .main .cancel, .main .notify, .main .join, .main .close]

/-- A marker that is a line of its own is handled as an event, and what comes after it as well. -/
theorem bare_marker_handled :
    let body := ["data: a", "[DONE]", "data: b"]
    let as := oneEvent ++ oneEvent ++ oneEvent ++ [ScanAction.scanner .scan] ++ lastSteps
    let s := Transition.run scanStep (scanStart false body) as
    (∀ a ∈ as, a.Regular) ∧ s.main = .returned ∧
      s.handled = ["a", "]", "b"] ∧ s.endReason = some .eof ∧
      eventsBefore body = (["a"], .done) ∧
      ¬ (s.handled = (eventsBefore body).1 ∧ s.endReason = some (eventsBefore body).2) := by
  decide

/-- A comment, an event and a marker. -/
theorem scanner_delivers_one :
    let body := [": ping", "data: a", "data: [DONE]"]
    let as := [ScanAction.scanner .scan, ScanAction.scanner (.check .go)] ++ oneEvent ++
      [ScanAction.scanner .scan, ScanAction.scanner (.check .go)] ++ lastSteps
    let s := Transition.run scanStep (scanStart false body) as
    s.handled = ["a"] ∧ s.endReason = some .done := by
  intro body as s
  have hmarker : MarkerIsEvent body := by
    intro line hline
    rw [show body.find? isMarker = some "data: [DONE]" by decide] at hline
    obtain rfl := Option.some.inj hline
    decide
  have hdelivers := (scanner_delivers false body as (by decide) (by decide)).2 hmarker
  rw [show eventsBefore body = (["a"], .done) by decide] at hdelivers
  exact hdelivers

end NewApi
