import Juliet.BiMap
import Juliet.ProcessIncoming

namespace Juliet

open Rust

/-- An IO layer request id. -/
structure IoId where
  get : Nat
  deriving DecidableEq, Repr

/-- An item in the outgoing queue, less the semaphore permit of a request. -/
inductive QueuedItem
  | request (channel : ChannelId) (ioId : IoId) (payload : Option Bytes)
  | requestCancellation (ioId : IoId)
  | response (channel : ChannelId) (id : Id) (payload : Option Bytes)
  | responseCancellation (channel : ChannelId) (id : Id)
  | error (channel : ChannelId) (id : Id) (payload : Bytes)
  deriving DecidableEq, Repr

def QueuedItem.payload : QueuedItem → Option Bytes
  | .request _ _ payload => payload
  | .response _ _ payload => payload
  | .requestCancellation _ => none
  | .responseCancellation _ _ => none
  | .error _ _ payload => some payload

inductive CoreError
  | readFailed
  | writeFailed
  | errorWriteTimeout
  | remoteReportedError (header : Header) (data : Option Bytes)
  | remoteProtocolViolation (header : Header) (data : Option Bytes)
  | localProtocolViolation (violation : LocalProtocolViolation)
  | internalError (text : String)
  deriving DecidableEq, Repr

inductive IoEvent
  | newRequest (channel : ChannelId) (id : Id) (payload : Option Bytes)
  | requestCancelled (channel : ChannelId) (id : Id)
  | receivedResponse (ioId : IoId) (payload : Option Bytes)
  | receivedCancellationResponse (ioId : IoId)
  deriving DecidableEq, Repr

/-- The receiving end of the local queue. `handles` says whether a handle to send with is left. -/
structure Receiver where
  queue : List QueuedItem
  closed : Bool
  handles : Bool

/-- A message that has been created, and the item it was created for. -/
structure Sent where
  item : QueuedItem
  msg : OutgoingMessage
  deriving DecidableEq, Repr

/-- An entry of the ready queue. The serial is the position of the message in the history. -/
structure ReadyEntry where
  serial : Nat
  frames : FrameIter
  deriving DecidableEq, Repr

/-- The frame being sent and whether it is the last one of its message. -/
structure CurrentFrame where
  frame : OutgoingFrame
  isFinal : Bool
  serial : Nat
  deriving DecidableEq, Repr

/-- The IO layer, less its reader and writer. The history of messages is for the statements only:
nothing reads it, and neither do the serials. -/
structure IoCore (N : Nat) where
  juliet : JulietProtocol N
  buffer : Bytes
  nextParseAt : Nat
  pendingError : Option OutgoingFrame
  currentFrame : Option CurrentFrame
  activeMultiFrame : Fin N → Option Header
  readyQueue : List ReadyEntry
  waitQueue : Fin N → List QueuedItem
  receiver : Receiver
  requestMap : BiMap IoId (ChannelId × Id)
  history : List Sent

def usizeMax : Nat := 2 ^ 64 - 1

/-- The index of a channel into an array of length `N`. -/
def channelIndex (N : Nat) (channel : ChannelId) : Checked (Fin N) :=
  if h : channel.get.toNat < N then .ok ⟨channel.get.toNat, h⟩ else .error .outOfRange

/-- The part of `item_should_wait` about multi-frame sends in progress. -/
def waitsForTransfer {N : Nat} (m : MaxFrameSize) (active : Fin N → Option Header)
    (channel : ChannelId) (payload : Option Bytes) : Checked (Option ChannelId) := do
  let i ← channelIndex N channel
  if (active i).isSome ∧ payload.any (fun payload => payloadIsMultiFrame m payload.length) then
    return some channel
  else return none

def itemShouldWait {N : Nat} (item : QueuedItem) (juliet : JulietProtocol N)
    (active : Fin N → Option Header) :
    Checked (Except LocalProtocolViolation (Option ChannelId)) :=
  match item with
  | .request channel _ payload =>
    match juliet.allowedToSendRequest channel with
    | .error violation => .ok (.error violation)
    | .ok false => .ok (.ok (some channel))
    | .ok true => do return .ok (← waitsForTransfer juliet.maxFrameSize active channel payload)
  | .response channel _ payload => do
    return .ok (← waitsForTransfer juliet.maxFrameSize active channel payload)
  | .requestCancellation _ => .ok (.ok none)
  | .responseCancellation _ _ => .ok (.ok none)
  | .error _ _ _ => .ok (.ok none)

namespace IoCore

variable {N : Nat}

def new (builder : ProtocolBuilder N) : IoCore N :=
  { juliet := builder.build
    buffer := []
    nextParseAt := 0
    pendingError := none
    currentFrame := none
    activeMultiFrame := fun _ => none
    readyQueue := []
    waitQueue := fun _ => []
    receiver := ⟨[], false, true⟩
    requestMap := .empty
    history := [] }

def setWaitQueue (self : IoCore N) (i : Fin N) (queue : List QueuedItem) : IoCore N :=
  { self with waitQueue := Function.update self.waitQueue i queue }

def setActive (self : IoCore N) (i : Fin N) (header : Option Header) : IoCore N :=
  { self with activeMultiFrame := Function.update self.activeMultiFrame i header }

/-- Records the message as created for the item and appends its frames to the ready queue. -/
def pushReady (self : IoCore N) (item : QueuedItem) (msg : OutgoingMessage) : IoCore N :=
  { self with
    readyQueue := self.readyQueue ++ [⟨self.history.length, msg.frames⟩]
    history := self.history ++ [⟨item, msg⟩] }

def markActive (self : IoCore N) (channel : ChannelId) (msg : OutgoingMessage) :
    Checked (IoCore N) :=
  if msg.isMultiFrame self.juliet.maxFrameSize then do
    let i ← channelIndex N channel
    return self.setActive i (some msg.header)
  else .ok self

def injectError (self : IoCore N) (errMsg : OutgoingMessage) : Checked (IoCore N) := do
  let self := { self with
    receiver := { self.receiver with closed := true }
    nextParseAt := usizeMax
    buffer := []
    readyQueue := []
    requestMap := .empty
    waitQueue := fun _ => [] }
  let maxFrameSize := self.juliet.maxFrameSize
  let (frame, remainder) :=
    (errMsg.truncateToSingleFrame maxFrameSize).frames.nextOwned maxFrameSize
  debugAssert (remainder = none)
  return { self with pendingError := some frame }

/-- What a failing call has done to the core stays, here and below. -/
def sendToReadyQueue (self : IoCore N) (item : QueuedItem) :
    Checked (Except LocalProtocolViolation Unit × IoCore N) :=
  match item with
  | .request channel ioId payload => do
    match ← self.juliet.createRequest channel payload with
    | (.error violation, juliet) => return (.error violation, { self with juliet })
    | (.ok msg, juliet) =>
      let self :=
        { self with juliet, requestMap := self.requestMap.insert ioId (channel, msg.header.id) }
      let self ← self.markActive channel msg
      return (.ok (), self.pushReady item msg)
  | .requestCancellation ioId =>
    match self.requestMap.getByLeft ioId with
    | some (channel, id) =>
      match self.juliet.cancelRequest channel id with
      | (.error violation, juliet) => .ok (.error violation, { self with juliet })
      | (.ok (some msg), juliet) => .ok (.ok (), { self with juliet }.pushReady item msg)
      | (.ok none, juliet) => .ok (.ok (), { self with juliet })
    | none => .ok (.ok (), self)
  | .response channel id payload =>
    match self.juliet.createResponse channel id payload with
    | (.error violation, juliet) => .ok (.error violation, { self with juliet })
    | (.ok (some msg), juliet) => do
      let self ← { self with juliet }.markActive channel msg
      return (.ok (), self.pushReady item msg)
    | (.ok none, juliet) => .ok (.ok (), { self with juliet })
  | .responseCancellation channel id =>
    match self.juliet.cancelResponse channel id with
    | (.error violation, juliet) => .ok (.error violation, { self with juliet })
    | (.ok (some msg), juliet) => .ok (.ok (), { self with juliet }.pushReady item msg)
    | (.ok none, juliet) => .ok (.ok (), { self with juliet })
  | .error channel id payload =>
    match self.juliet.customError channel id payload with
    | .error violation => .ok (.error violation, self)
    | .ok errMsg => do return (.ok (), ← self.injectError errMsg)

def handleIncomingItem (self : IoCore N) (item : QueuedItem) :
    Checked (Except LocalProtocolViolation Unit × IoCore N) := do
  match ← itemShouldWait item self.juliet self.activeMultiFrame with
  | .error violation => return (.error violation, self)
  | .ok (some channel) =>
    let i ← channelIndex N channel
    return (.ok (), self.setWaitQueue i (self.waitQueue i ++ [item]))
  | .ok none => self.sendToReadyQueue item

def readyNextFrame (self : IoCore N) : Checked (IoCore N) := do
  debugAssert (self.currentFrame = none)
  match self.readyQueue with
  | [] => return self
  | entry :: rest =>
    let (frame, additionalFrames) := entry.frames.nextOwned self.juliet.maxFrameSize
    match additionalFrames with
    | some nextFrameIter =>
      return { self with
        readyQueue := rest ++ [⟨entry.serial, nextFrameIter⟩]
        currentFrame := some ⟨frame, false, entry.serial⟩ }
    | none => return { self with readyQueue := rest, currentFrame := some ⟨frame,
      true, entry.serial⟩ }

/-- The `while` loop of `process_wait_queue` with its counter. -/
def waitLoop (channel : ChannelId) (i : Fin N) :
    Nat → IoCore N → Checked (Except LocalProtocolViolation Unit × IoCore N)
  | 0, self => .ok (.ok (), self)
  | remaining + 1, self =>
    match self.waitQueue i with
    | [] => .ok (.ok (), self)
    | item :: rest => do
      let self := self.setWaitQueue i rest
      match ← itemShouldWait item self.juliet self.activeMultiFrame with
      | .error violation => return (.error violation, self)
      | .ok (some _) =>
        waitLoop channel i remaining (self.setWaitQueue i (self.waitQueue i ++ [item]))
      | .ok none =>
        match ← self.sendToReadyQueue item with
        | (.error violation, self) => return (.error violation, self)
        | (.ok (), self) =>
          match self.juliet.allowedToSendRequest channel with
          | .error violation => return (.error violation, self)
          | .ok false => return (.ok (), self)
          | .ok true => waitLoop channel i remaining self

def processWaitQueue (self : IoCore N) (channel : ChannelId) :
    Checked (Except LocalProtocolViolation Unit × IoCore N) := do
  let i ← channelIndex N channel
  waitLoop channel i (self.waitQueue i).length self

def handleCompletedRead (self : IoCore N) : CompletedRead → Except CoreError IoEvent × IoCore N
  | .errorReceived header data => (.error (.remoteReportedError header data), self)
  | .newRequest channel id payload => (.ok (.newRequest channel id payload), self)
  | .requestCancellation channel id => (.ok (.requestCancelled channel id), self)
  | .receivedResponse channel id payload =>
    let (removed, requestMap) := self.requestMap.removeByRight (channel, id)
    match removed with
    | some (ioId, _) => (.ok (.receivedResponse ioId payload), { self with requestMap })
    | none =>
      (.error (.internalError "juliet protocol should have dropped response after cancellation"),
        { self with requestMap })
  | .responseCancellation channel id =>
    let (removed, requestMap) := self.requestMap.removeByRight (channel, id)
    match removed with
    | some (ioId, _) => (.ok (.receivedCancellationResponse ioId), { self with requestMap })
    | none =>
      (.error (.internalError
          "juliet protocol should not have allowed fictitious response through"),
        { self with requestMap })

end IoCore

end Juliet
