import Juliet.OutgoingMessage

namespace Juliet

open Rust

/-- The multi-frame receival state of a single channel. -/
inductive MultiframeReceiver
  | ready
  | inProgress (header : Header) (payload : Bytes) (totalPayloadSize : Nat)
  deriving DecidableEq, Repr

/-- The outcome of a multi-frame acceptance. -/
inductive CompletedFrame
  | newMultiFrame
  | intermediateMultiFrame
  | singleFrame (payload : Bytes)
  | completedMultiFrame (payload : Bytes)
  deriving DecidableEq, Repr

def CompletedFrame.wasNew : CompletedFrame → Bool
  | .newMultiFrame => true
  | .intermediateMultiFrame => false
  | .singleFrame _ => true
  | .completedMultiFrame _ => false

def CompletedFrame.intoCompletedPayload : CompletedFrame → Option Bytes
  | .newMultiFrame => none
  | .intermediateMultiFrame => none
  | .singleFrame payload => some payload
  | .completedMultiFrame payload => some payload

/-- Information about an initial frame in a given buffer. -/
structure InitialFrameData where
  preambleLen : Nat
  segmentLen : Nat
  payloadSize : Nat
  deriving DecidableEq, Repr

def InitialFrameData.isComplete (d : InitialFrameData) : Checked Bool := do
  debugAssert (d.segmentLen ≤ d.payloadSize)
  return d.segmentLen == d.payloadSize

def errMsg {τ : Type} (header : Header) (kind : ErrorKind) : Outcome τ OutgoingMessage :=
  .fatal (OutgoingMessage.new (header.withErr kind) none)

/-- Detects a complete start frame; the buffer still holds the header. -/
def detectStartingSegment (header : Header) (buffer : Bytes) (maxFrameSize : MaxFrameSize)
    (maxPayloadSize : Nat) (payloadExceededErrorKind : ErrorKind) :
    Checked (Outcome InitialFrameData OutgoingMessage) := do
  let segmentBuf ← slice buffer Header.size buffer.length
  match ← decodeVarint32 segmentBuf with
  | .incomplete n => return .incomplete n
  | .fatal _ => return errMsg header .badVarInt
  | .success payloadSize =>
    if payloadSize.value > maxPayloadSize then
      return errMsg header payloadExceededErrorKind
    let preambleLen := Header.size + payloadSize.offset
    let maxDataInFrame ← checkedSub maxFrameSize.get preambleLen
    let segmentLen := min maxDataInFrame payloadSize.value
    let frameEnd := preambleLen + segmentLen
    if buffer.length < frameEnd then
      return ← Outcome.needs (← checkedSub frameEnd buffer.length)
    return .success ⟨preambleLen, segmentLen, payloadSize.value⟩

/-- Moves the segment of an intermediate or end frame to the stored payload. Returns whether the
message is complete, the stored payload and the remaining buffer. -/
def extractSegment (incoming storedPayload : Bytes) (totalPayloadSize : Nat)
    (maxFrameSize : MaxFrameSize) :
    Checked (Outcome Bool OutgoingMessage × Bytes × Bytes) := do
  let bytesRemaining ← checkedSub totalPayloadSize storedPayload.length
  let segmentSize := min bytesRemaining maxFrameSize.withoutHeader
  let frameEnd := segmentSize + Header.size
  if incoming.length < frameEnd then
    return (← Outcome.needs (← checkedSub frameEnd incoming.length), storedPayload, incoming)
  let incoming ← advance incoming Header.size
  let segment ← slice incoming 0 segmentSize
  let storedPayload := storedPayload ++ segment
  let incoming ← advance incoming segmentSize
  return (.success (storedPayload.length == totalPayloadSize), storedPayload, incoming)

namespace MultiframeReceiver

/-- Attempts to process a single frame of a message with a payload. -/
def accept (self : MultiframeReceiver) (header : Header) (buffer : Bytes)
    (maxFrameSize : MaxFrameSize) (maxPayloadSize : Nat) (payloadExceededErrorKind : ErrorKind) :
    Checked (Outcome CompletedFrame OutgoingMessage × MultiframeReceiver × Bytes) :=
  match self with
  | .ready => do
    match ← detectStartingSegment header buffer maxFrameSize maxPayloadSize
      payloadExceededErrorKind with
    | .incomplete n => return (.incomplete n, self, buffer)
    | .fatal err => return (.fatal err, self, buffer)
    | .success frameData =>
      let buffer ← advance buffer frameData.preambleLen
      let (segment, buffer) ← splitTo buffer frameData.segmentLen
      if ← frameData.isComplete then
        return (.success (.singleFrame segment), self, buffer)
      else
        return (.success .newMultiFrame, .inProgress header segment frameData.payloadSize, buffer)
  | .inProgress activeHeader payload totalPayloadSize => do
    if header ≠ activeHeader then
      match ← detectStartingSegment header buffer maxFrameSize maxPayloadSize
        payloadExceededErrorKind with
      | .incomplete n => return (.incomplete n, self, buffer)
      | .fatal err => return (.fatal err, self, buffer)
      | .success frameData =>
        if ← frameData.isComplete then
          let buffer ← advance buffer frameData.preambleLen
          let (segment, buffer) ← splitTo buffer frameData.segmentLen
          return (.success (.singleFrame segment), self, buffer)
        else
          return (errMsg header .inProgress, self, buffer)
    else
      match ← extractSegment buffer payload totalPayloadSize maxFrameSize with
      | (.incomplete n, payload, buffer) =>
        return (.incomplete n, .inProgress activeHeader payload totalPayloadSize, buffer)
      | (.fatal err, payload, buffer) =>
        return (.fatal err, .inProgress activeHeader payload totalPayloadSize, buffer)
      | (.success true, payload, buffer) =>
        return (.success (.completedMultiFrame payload), .ready, buffer)
      | (.success false, payload, buffer) =>
        return (.success .intermediateMultiFrame, .inProgress activeHeader payload totalPayloadSize,
          buffer)

def inProgressHeader : MultiframeReceiver → Option Header
  | .ready => none
  | .inProgress header _ _ => some header

end MultiframeReceiver

end Juliet
