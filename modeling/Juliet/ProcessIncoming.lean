import Juliet.Protocol

namespace Juliet

open Rust

/-- `UNKNOWN_CHANNEL` and `UNKNOWN_ID`, for answers to headers that cannot be read. -/
def unknownChannel : ChannelId := ⟨0⟩

def unknownId : Id := ⟨0⟩

abbrev ReadOutcome := Outcome CompletedRead OutgoingMessage

namespace Channel

/-! The arms of the frame kind `match`. Each returns `some outcome` where the source returns and
`none` where the arm falls through to the next iteration of the loop. -/

def processRequest (self : Channel) (header : Header) (buffer : Bytes) :
    Checked (Option ReadOutcome × Channel × Bytes) :=
  if self.isAtMaxIncomingRequests then
    .ok (some (errMsg header .requestLimitExceeded), self, buffer)
  else if header.id ∈ self.incomingRequests then
    .ok (some (errMsg header .duplicateRequest), self, buffer)
  else do
    let self := { self with incomingRequests := insert header.id self.incomingRequests }
    let self := self.incrementCancellationAllowance
    let buffer ← advance buffer Header.size
    return (some (.success (.newRequest header.channel header.id none)), self, buffer)

def processResponse (self : Channel) (header : Header) (buffer : Bytes) :
    Checked (Option ReadOutcome × Channel × Bytes) :=
  if header.id ∉ self.outgoingRequests then
    .ok (some (errMsg header .fictitiousRequest), self, buffer)
  else do
    let self := { self with outgoingRequests := self.outgoingRequests.erase header.id }
    let buffer ← advance buffer Header.size
    return (some (.success (.receivedResponse header.channel header.id none)), self, buffer)

/-- What remains of the `RequestPl` arm once the frame has been accepted. -/
def recordRequestPl (self : Channel) (header : Header) (completedFrame : CompletedFrame) :
    Option ReadOutcome × Channel :=
  let completed : Option ReadOutcome := completedFrame.intoCompletedPayload.map fun payload =>
    .success (.newRequest header.channel header.id (some payload))
  if completedFrame.wasNew then
    if self.isAtMaxIncomingRequests then (some (errMsg header .requestLimitExceeded), self)
    else if header.id ∈ self.incomingRequests then (some (errMsg header .duplicateRequest), self)
    else
      let self := { self with incomingRequests := insert header.id self.incomingRequests }
      (completed, self.incrementCancellationAllowance)
  else (completed, self)

def processRequestPl (self : Channel) (maxFrameSize : MaxFrameSize) (header : Header)
    (buffer : Bytes) :
    Checked (Option ReadOutcome × Channel × Bytes) := do
  let (outcome, receiver, buffer) ← self.currentMultiframeReceiver.accept header buffer maxFrameSize
    self.config.maxRequestPayloadSize.toNat .requestTooLarge
  let self := { self with currentMultiframeReceiver := receiver }
  match outcome with
  | .incomplete n => return (some (.incomplete n), self, buffer)
  | .fatal err => return (some (.fatal err), self, buffer)
  | .success completedFrame =>
    let (outcome, self) := self.recordRequestPl header completedFrame
    return (outcome, self, buffer)

/-- What remains of the `ResponsePl` arm once the frame has been accepted. -/
def recordResponsePl (self : Channel) (header : Header) (completedFrame : CompletedFrame) :
    Option ReadOutcome × Channel :=
  match completedFrame.intoCompletedPayload with
  | some payload =>
    (some (.success (.receivedResponse header.channel header.id (some payload))),
      { self with outgoingRequests := self.outgoingRequests.erase header.id })
  | none => (none, self)

def processResponsePl (self : Channel) (maxFrameSize : MaxFrameSize) (header : Header)
    (buffer : Bytes) :
    Checked (Option ReadOutcome × Channel × Bytes) :=
  if header.id ∉ self.outgoingRequests then
    .ok (some (errMsg header .fictitiousRequest), self, buffer)
  else do
    let (outcome, receiver, buffer) ← self.currentMultiframeReceiver.accept
        header buffer maxFrameSize
      self.config.maxResponsePayloadSize.toNat .responseTooLarge
    let self := { self with currentMultiframeReceiver := receiver }
    match outcome with
    | .incomplete n => return (some (.incomplete n), self, buffer)
    | .fatal err => return (some (.fatal err), self, buffer)
    | .success completedFrame =>
      let (outcome, self) := self.recordResponsePl header completedFrame
      return (outcome, self, buffer)

/-- The abort of an unfinished transfer: only the ids are compared, as in the source. -/
def cancelInProgress (self : Channel) (header : Header) : Channel :=
  match self.currentMultiframeReceiver.inProgressHeader with
  | some inProgressHeader =>
    if inProgressHeader.id = header.id then
      { self with
        currentMultiframeReceiver := .ready
        incomingRequests := self.incomingRequests.erase header.id }
    else self
  | none => self

def processCancelReq (self : Channel) (header : Header) (buffer : Bytes) :
    Checked (Option ReadOutcome × Channel × Bytes) :=
  if self.cancellationAllowance = 0 then
    .ok (some (errMsg header .cancellationLimitExceeded), self, buffer)
  else do
    let allowance ← checkedSub self.cancellationAllowance 1
    let self := { self with cancellationAllowance := allowance }
    let buffer ← advance buffer Header.size
    let self := self.cancelInProgress header
    if header.id ∉ self.incomingRequests then return (none, self, buffer)
    else return (some (.success (.requestCancellation header.channel header.id)), self, buffer)

def processCancelResp (self : Channel) (header : Header) (buffer : Bytes) :
    Checked (Option ReadOutcome × Channel × Bytes) :=
  if header.id ∈ self.outgoingRequests then do
    let self := { self with outgoingRequests := self.outgoingRequests.erase header.id }
    let buffer ← advance buffer Header.size
    return (some (.success (.responseCancellation header.channel header.id)), self, buffer)
  else .ok (some (errMsg header .fictitiousCancel), self, buffer)

def processKind (self : Channel) (maxFrameSize : MaxFrameSize) (kind : Kind) (header : Header)
    (buffer : Bytes) :
    Checked (Option ReadOutcome × Channel × Bytes) :=
  match kind with
  | .request => self.processRequest header buffer
  | .response => self.processResponse header buffer
  | .requestPl => self.processRequestPl maxFrameSize header buffer
  | .responsePl => self.processResponsePl maxFrameSize header buffer
  | .cancelReq => self.processCancelReq header buffer
  | .cancelResp => self.processCancelResp header buffer

end Channel

namespace JulietProtocol

variable {N : Nat}

/-- The handling of an error header. -/
def processError (maxFrameSize : MaxFrameSize) (header : Header) (buffer : Bytes) :
    Checked (ReadOutcome × Bytes) := do
  match ← header.errorKind with
  | .other =>
    let tail ← slice buffer Header.size buffer.length
    match ← decodeVarint32 tail with
    | .incomplete n => return (.incomplete n, buffer)
    | .fatal _ => return (errMsg header .badVarInt, buffer)
    | .success parsedLength =>
      let preambleEnd := Header.size + parsedLength.offset
      let payloadLength := parsedLength.value
      let frameEnd := preambleEnd + payloadLength
      if frameEnd > maxFrameSize.get then
        return (errMsg header .segmentViolation, buffer)
      if buffer.length < frameEnd then
        return (← Outcome.needs (← checkedSub frameEnd buffer.length), buffer)
      let buffer ← advance buffer preambleEnd
      let (payload, buffer) ← splitTo buffer payloadLength
      return (.success (.errorReceived header (some payload)), buffer)
  | _ =>
    let buffer ← advance buffer Header.size
    return (.success (.errorReceived header none), buffer)

/-- The handling of a header that parsed. -/
def processHeader (self : JulietProtocol N) (header : Header) (buffer : Bytes) :
    Checked (Option ReadOutcome × JulietProtocol N × Bytes) :=
  if header.isError then do
    let (outcome, buffer) ← processError self.maxFrameSize header buffer
    return (some outcome, self, buffer)
  else if h : header.channel.get.toNat < N then do
    let i : Fin N := ⟨header.channel.get.toNat, h⟩
    let kind ← header.kind
    let (outcome, chan, buffer) ← (self.channels i).processKind self.maxFrameSize kind header buffer
    return (outcome, self.setChannel i chan, buffer)
  else .ok (some (errMsg header .invalidChannel), self, buffer)

/-- One iteration of the loop of `process_incoming`; `none` where the source falls through to the
next iteration. -/
def processFrame (self : JulietProtocol N) (buffer : Bytes) :
    Checked (Option ReadOutcome × JulietProtocol N × Bytes) :=
  match buffer with
  | b0 :: b1 :: b2 :: b3 :: _ =>
    match Header.parse (b0, b1, b2, b3) with
    | none =>
      .ok (some (.fatal (OutgoingMessage.new
        (Header.newError .invalidHeader unknownChannel unknownId) none)), self, buffer)
    | some header => self.processHeader header buffer
  | _ => do
    let missing ← checkedSub Header.size buffer.length
    return (some (← Outcome.needs missing), self, buffer)

/-- The loop itself. The budget is only a recursion measure, see `processLoop_budget`. -/
def processLoop : Nat → JulietProtocol N → Bytes → Checked (ReadOutcome × JulietProtocol N × Bytes)
  | 0, _, _ => .error .diverges
  | fuel + 1, self, buffer => do
    match ← self.processFrame buffer with
    | (some outcome, self, buffer) => return (outcome, self, buffer)
    | (none, self, buffer) => processLoop fuel self buffer

def processIncoming (self : JulietProtocol N) (buffer : Bytes) :
    Checked (ReadOutcome × JulietProtocol N × Bytes) :=
  processLoop (buffer.length + 1) self buffer

end JulietProtocol

end Juliet
