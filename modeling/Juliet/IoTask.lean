import Juliet.Transition
import Juliet.IoCore

namespace Juliet

open Rust

/-- How `next_event` ends for good: with `Ok(None)` or with an error. -/
inductive Exit
  | closed
  | failed (err : CoreError)
  deriving DecidableEq, Repr

/-- Where `next_event` stands. A call that has returned an event is at the top of its loop, just as
one that has been dropped: the next call begins there. -/
inductive Position
  | top
  | select
  | draining
  | writingError (data : Option Bytes)
  | done (exit : Exit)
  | panicked
  deriving DecidableEq, Repr

/-- A core with its position in `next_event`, and what has been observed of it: the bytes handed to
the writer, the frames they belong to (as they were before their first byte was written), the frames
completely sent, the outcomes of `process_incoming` and the events. `issued` are the request ids
handed out with tickets that have been used. -/
structure IoTask (N : Nat) where
  core : IoCore N
  position : Position
  issued : Finset IoId
  written : Bytes
  begun : List OutgoingFrame
  sentFrames : List (Nat × Header)
  outcomes : List ReadOutcome
  events : List IoEvent

namespace IoCore

variable {N : Nat}

/-- The part of the loop of `next_event` that parses: the outcome of `process_incoming` if it was
called, and what is returned if something is. -/
def parseIncoming (self : IoCore N) :
    Checked (Option ReadOutcome × Option (Except CoreError IoEvent) × IoCore N) :=
  if self.nextParseAt ≤ self.buffer.length then do
    let (outcome, juliet, buffer) ← self.juliet.processIncoming self.buffer
    let self := { self with nextParseAt := 0, juliet, buffer }
    match outcome with
    | .incomplete n =>
      return (some outcome, none, { self with nextParseAt := buffer.length + n.get })
    | .fatal errMsg => return (some outcome, none, ← self.injectError errMsg)
    | .success read =>
      match read with
      | .receivedResponse channel _ _ =>
        match ← self.processWaitQueue channel with
        | (.error violation, self) =>
          return (some outcome, some (.error (.localProtocolViolation violation)), self)
        | (.ok (), self) =>
          let (result, self) := self.handleCompletedRead read
          return (some outcome, some result, self)
      | _ =>
        let (result, self) := self.handleCompletedRead read
        return (some outcome, some result, self)
  else .ok (none, none, self)

def readyIfIdle (self : IoCore N) : Checked (IoCore N) :=
  if self.currentFrame = none ∧ self.readyQueue ≠ [] then self.readyNextFrame else .ok self

/-- A finished multi-frame send is no longer active. -/
def clearActive (self : IoCore N) (headerSent : Header) : Checked (IoCore N) := do
  let i ← channelIndex N headerSent.channel
  return if self.activeMultiFrame i = some headerSent then self.setActive i none else self

/-- What follows the write of the last byte of the current frame. -/
def frameSent (self : IoCore N) (sent : CurrentFrame) :
    Checked (Except CoreError Unit × IoCore N) := do
  let self := { self with currentFrame := none }
  let headerSent := sent.frame.header
  let self ← (if sent.isFinal then self.clearActive headerSent else .ok self)
  if headerSent.isError then return (.error (.remoteProtocolViolation headerSent none), self)
  match ← self.processWaitQueue headerSent.channel with
  | (.error violation, self) => return (.error (.localProtocolViolation violation), self)
  | (.ok (), self) => return (.ok (), self)

end IoCore

/-- What is reported along with a pending error: its payload, if the kind has one. -/
def OutgoingFrame.errorData (frame : OutgoingFrame) : Checked (Option Bytes) :=
  if frame.header.isError then do
    if (← frame.header.errorKind) = .other then return some frame.segment else return none
  else .ok none

/-- The frames the bytes written belong to, when bytes of `frame` are about to be added. -/
def begin (begun : List OutgoingFrame) (frame : OutgoingFrame) : List OutgoingFrame :=
  if frame.position = 0 then begun ++ [frame] else begun

inductive IoAct
  | enqueue (item : QueuedItem)
  | dropHandles
  | turn
  | write (k : Nat)
  | writeFailed
  | read (bytes : Bytes)
  | readDone
  | readFailed
  | hangUp
  | recv
  | tryRecv
  | tryRecvClosed
  | timeout
  | drop
  deriving DecidableEq, Repr

namespace IoTask

variable {N : Nat}

def new (builder : ProtocolBuilder N) : IoTask N :=
  { core := .new builder
    position := .top
    issued := ∅
    written := []
    begun := []
    sentFrames := []
    outcomes := []
    events := [] }

/-- Sends an item from a handle. The id of a request comes with its ticket and is used once. -/
def enqueue (t : IoTask N) (item : QueuedItem) : Option (IoTask N) :=
  if t.core.receiver.closed ∨ ¬ t.core.receiver.handles then none
  else
    let t' := { t with
      core := { t.core with
        receiver := { t.core.receiver with queue := t.core.receiver.queue ++ [item] } } }
    match item with
    | .request _ ioId _ =>
      if ioId ∈ t.issued then none else some { t' with issued := insert ioId t.issued }
    | _ => some t'

/-- From the top of the loop to where it suspends or returns. -/
def turn (t : IoTask N) : IoTask N :=
  match t.core.pendingError with
  | some frame =>
    match frame.errorData with
    | .error _ => { t with position := .panicked }
    | .ok data => { t with position := .writingError data }
  | none =>
    match t.core.parseIncoming with
    | .error _ => { t with position := .panicked }
    | .ok (outcome, some (.ok event), core) =>
      { t with core, outcomes := t.outcomes ++ outcome.toList, events := t.events ++ [event] }
    | .ok (outcome, some (.error err), core) =>
      { t with core, outcomes := t.outcomes ++ outcome.toList, position := .done (.failed err) }
    | .ok (outcome, none, core) =>
      match core.readyIfIdle with
      | .error _ => { t with position := .panicked }
      | .ok core => { t with core, outcomes := t.outcomes ++ outcome.toList, position := .select }

/-- The writer takes `k` bytes of the current frame. -/
def writeCurrent (t : IoTask N) (current : CurrentFrame) (k : Nat) : IoTask N :=
  let frame := current.frame.advance k
  let t := { t with
    written := t.written ++ current.frame.bytes.take k
    begun := begin t.begun current.frame
    core := { t.core with currentFrame := some { current with frame } } }
  if frame.remaining = 0 then
    let t := { t with sentFrames := t.sentFrames ++ [(current.serial, frame.header)] }
    match t.core.frameSent { current with frame } with
    | .error _ => { t with position := .panicked }
    | .ok (.error err, core) => { t with core, position := .done (.failed err) }
    | .ok (.ok (), core) => { t with core, position := .top }
  else t

/-- The writer takes `k` bytes of the pending error. -/
def writeError (t : IoTask N) (pending : OutgoingFrame) (data : Option Bytes) (k : Nat) :
    IoTask N :=
  let frame := pending.advance k
  let t := { t with
    written := t.written ++ pending.bytes.take k
    begun := begin t.begun pending }
  if frame.remaining = 0 then
    { t with
      core := { t.core with pendingError := none }
      position := .done (.failed (.remoteProtocolViolation frame.header data)) }
  else { t with core := { t.core with pendingError := some frame } }

/-- Handles an item that the local queue has yielded. -/
def take (t : IoTask N) (item : QueuedItem) (rest : List QueuedItem) : IoTask N :=
  match { t.core with receiver := { t.core.receiver with queue := rest } }.handleIncomingItem
    item with
  | .error _ => { t with position := .panicked }
  | .ok (.error violation, core) =>
    { t with core, position := .done (.failed (.localProtocolViolation violation)) }
  | .ok (.ok (), core) => { t with core, position := .draining }

/-- Everything that can happen to a core that is being polled. `BytesMut` holds fewer than `2 ^ 63`
bytes. An empty queue that has been closed while handles are left is `Empty` to `try_recv` as it is
documented, and `Disconnected` to some implementations: `tryRecvClosed` is the latter. -/
def step (t : IoTask N) : IoAct → Option (IoTask N)
  | .enqueue item => t.enqueue item
  | .dropHandles =>
    some { t with core := { t.core with receiver := { t.core.receiver with handles := false } } }
  | .turn => if t.position = .top then some t.turn else none
  | .write k =>
    match t.position with
    | .select =>
      match t.core.currentFrame with
      | some current =>
        if 0 < k ∧ k ≤ current.frame.remaining then some (t.writeCurrent current k) else none
      | none => none
    | .writingError data =>
      match t.core.pendingError with
      | some pending =>
        if 0 < k ∧ k ≤ pending.remaining then some (t.writeError pending data k) else none
      | none => none
    | _ => none
  | .writeFailed =>
    match t.position with
    | .select =>
      if t.core.currentFrame.isSome then some { t with position := .done (.failed .writeFailed) }
      else none
    | .writingError _ => some { t with position := .done (.failed .writeFailed) }
    | _ => none
  | .read bytes =>
    if t.position = .select ∧ t.core.buffer.length < t.core.nextParseAt ∧ bytes ≠ [] ∧
        t.core.buffer.length + bytes.length < 2 ^ 63 then
      let t := { t with core := { t.core with buffer := t.core.buffer ++ bytes } }
      some (if t.core.nextParseAt ≤ t.core.buffer.length then { t with position := .top } else t)
    else none
  | .readDone =>
    if t.position = .select ∧ t.core.nextParseAt ≤ t.core.buffer.length then
      some { t with position := .top }
    else none
  | .readFailed =>
    if t.position = .select ∧ t.core.buffer.length < t.core.nextParseAt then
      some { t with position := .done (.failed .readFailed) }
    else none
  | .hangUp =>
    if t.position = .select ∧ t.core.buffer.length < t.core.nextParseAt then
      some { t with position := .done .closed }
    else none
  | .recv =>
    if t.position = .select then
      match t.core.receiver.queue with
      | item :: rest => some (t.take item rest)
      | [] =>
        if t.core.receiver.closed ∨ ¬ t.core.receiver.handles then
          some { t with position := .done .closed }
        else none
    else none
  | .tryRecv =>
    if t.position = .draining then
      match t.core.receiver.queue with
      | item :: rest => some (t.take item rest)
      | [] => some { t with position := if t.core.receiver.handles then .top else .done .closed }
    else none
  | .tryRecvClosed =>
    if t.position = .draining ∧ t.core.receiver.queue = [] ∧ t.core.receiver.closed then
      some { t with position := .done .closed }
    else none
  | .timeout =>
    match t.position with
    | .writingError _ => some { t with position := .done (.failed .errorWriteTimeout) }
    | _ => none
  | .drop =>
    match t.position with
    | .select => some { t with position := .top }
    | .writingError _ => some { t with position := .top }
    | _ => none

/-- The states of runs whose steps all meet a condition. -/
abbrev Reach (builder : ProtocolBuilder N) (ok : IoTask N → IoAct → Bool) : IoTask N → Prop :=
  Transition.Reach step (fun t a => ok t a) (.new builder)

/-- A run given by its steps. -/
abbrev run (builder : ProtocolBuilder N) (ok : IoTask N → IoAct → Bool) (as : List IoAct) :
    Option (IoTask N) :=
  Transition.exec step ok as (.new builder)

/-- No condition on the steps of a run. -/
def anyStep (_ : IoTask N) (_ : IoAct) : Bool := true

end IoTask

end Juliet
