import Mathlib.Data.Finset.Card
import Mathlib.Logic.Function.Basic
import Juliet.Multiframe

namespace Juliet

open Rust

/-- Per-channel data. -/
structure Channel where
  incomingRequests : Finset Id
  outgoingRequests : Finset Id
  currentMultiframeReceiver : MultiframeReceiver
  cancellationAllowance : Nat
  config : ChannelConfiguration
  prevRequestId : UInt16
  deriving DecidableEq

namespace Channel

def new (config : ChannelConfiguration) : Channel :=
  { incomingRequests := ∅
    outgoingRequests := ∅
    currentMultiframeReceiver := .ready
    cancellationAllowance := 0
    config := config
    prevRequestId := 0 }

def isAtMaxIncomingRequests (self : Channel) : Bool :=
  self.incomingRequests.card ≥ self.config.requestLimit.toNat

def incrementCancellationAllowance (self : Channel) : Channel :=
  if self.cancellationAllowance < self.config.requestLimit.toNat then
    { self with cancellationAllowance := self.cancellationAllowance + 1 }
  else self

/-- The `while` loop of `generate_request_id`. A candidate that is still taken after the whole id
space has been tried stays taken, and the loop never ends. -/
def searchId (taken : Finset Id) : Nat → Id → Checked Id
  | 0, _ => .error .diverges
  | fuel + 1, candidate =>
    if candidate ∈ taken then searchId taken fuel ⟨candidate.get + 1⟩ else .ok candidate

def generateRequestId (self : Channel) : Checked (Option Id × Channel) :=
  if self.outgoingRequests.card = 2 ^ 16 - 1 then .ok (none, self)
  else do
    let candidate ← searchId self.outgoingRequests (2 ^ 16) ⟨self.prevRequestId + 1⟩
    return (some candidate, { self with prevRequestId := candidate.get })

def allowedToSendRequest (self : Channel) : Bool :=
  self.outgoingRequests.card < self.config.requestLimit.toNat

def createUncheckedRequest (self : Channel) (channelId : ChannelId) (payload : Option Bytes) :
    Checked (OutgoingMessage × Channel) := do
  let (generated, self) ← self.generateRequestId
  let id := generated.getD ⟨0⟩
  let self := { self with outgoingRequests := insert id self.outgoingRequests }
  match payload with
  | some payload =>
    return (OutgoingMessage.new (Header.new .requestPl channelId id) (some payload), self)
  | none => return (OutgoingMessage.new (Header.new .request channelId id) none, self)

end Channel

def createUncheckedResponse (channel : ChannelId) (id : Id) : Option Bytes → OutgoingMessage
  | some payload => OutgoingMessage.new (Header.new .responsePl channel id) (some payload)
  | none => OutgoingMessage.new (Header.new .response channel id) none

def createUncheckedRequestCancellation (channel : ChannelId) (id : Id) : OutgoingMessage :=
  OutgoingMessage.new (Header.new .cancelReq channel id) none

def createUncheckedResponseCancellation (channel : ChannelId) (id : Id) : OutgoingMessage :=
  OutgoingMessage.new (Header.new .cancelResp channel id) none

/-- A successful read from the peer. -/
inductive CompletedRead
  | errorReceived (header : Header) (data : Option Bytes)
  | newRequest (channel : ChannelId) (id : Id) (payload : Option Bytes)
  | receivedResponse (channel : ChannelId) (id : Id) (payload : Option Bytes)
  | requestCancellation (channel : ChannelId) (id : Id)
  | responseCancellation (channel : ChannelId) (id : Id)
  deriving DecidableEq, Repr

/-- The caller of the crate has violated the protocol. -/
inductive LocalProtocolViolation
  | wouldExceedRequestLimit (limit : Nat)
  | invalidChannel (channel : ChannelId) (channelCount : Nat)
  | payloadExceedsLimit (payloadLength limit : Nat)
  | errorPayloadIsMultiFrame (payloadLength maxFrameSize : Nat)
  deriving DecidableEq, Repr

/-- The protocol state machine with `N` channels. -/
structure JulietProtocol (N : Nat) where
  channels : Fin N → Channel
  maxFrameSize : MaxFrameSize

structure ProtocolBuilder (N : Nat) where
  channelConfig : Fin N → ChannelConfiguration
  maxFrameSize : MaxFrameSize

def ProtocolBuilder.withDefaultChannelConfig (N : Nat) (config : ChannelConfiguration) :
    ProtocolBuilder N :=
  ⟨fun _ => config, .default⟩

def ProtocolBuilder.build {N : Nat} (b : ProtocolBuilder N) : JulietProtocol N :=
  ⟨fun i => Channel.new (b.channelConfig i), b.maxFrameSize⟩

namespace JulietProtocol

variable {N : Nat}

def lookupChannel (_self : JulietProtocol N) (channel : ChannelId) :
    Except LocalProtocolViolation (Fin N) :=
  if h : channel.get.toNat < N then .ok ⟨channel.get.toNat, h⟩
  else .error (.invalidChannel channel N)

def setChannel (self : JulietProtocol N) (i : Fin N) (chan : Channel) : JulietProtocol N :=
  { self with channels := Function.update self.channels i chan }

def allowedToSendRequest (self : JulietProtocol N) (channel : ChannelId) :
    Except LocalProtocolViolation Bool :=
  (self.lookupChannel channel).map fun i => (self.channels i).allowedToSendRequest

def createRequest (self : JulietProtocol N) (channel : ChannelId) (payload : Option Bytes) :
    Checked (Except LocalProtocolViolation OutgoingMessage × JulietProtocol N) :=
  match self.lookupChannel channel with
  | .error violation => .ok (.error violation, self)
  | .ok i =>
    let chan := self.channels i
    let limit := chan.config.maxRequestPayloadSize.toNat
    if payload.any (fun payload => payload.length > limit) then
      .ok (.error (.payloadExceedsLimit (payload.getD []).length limit), self)
    else if !chan.allowedToSendRequest then
      .ok (.error (.wouldExceedRequestLimit chan.config.requestLimit.toNat), self)
    else do
      let (msg, chan) ← chan.createUncheckedRequest channel payload
      return (.ok msg, self.setChannel i chan)

/-- The id is released before the payload is checked, and the limit reported for an oversized
payload is the one for requests, both as in the source. -/
def createResponse (self : JulietProtocol N) (channel : ChannelId) (id : Id)
    (payload : Option Bytes) :
    Except LocalProtocolViolation (Option OutgoingMessage) × JulietProtocol N :=
  match self.lookupChannel channel with
  | .error violation => (.error violation, self)
  | .ok i =>
    let chan := self.channels i
    if id ∉ chan.incomingRequests then (.ok none, self)
    else
      let self := self.setChannel i { chan with incomingRequests := chan.incomingRequests.erase id }
      if payload.any (fun payload => payload.length > chan.config.maxResponsePayloadSize.toNat) then
        (.error (.payloadExceedsLimit (payload.getD []).length
          chan.config.maxRequestPayloadSize.toNat), self)
      else (.ok (some (createUncheckedResponse channel id payload)), self)

def cancelRequest (self : JulietProtocol N) (channel : ChannelId) (id : Id) :
    Except LocalProtocolViolation (Option OutgoingMessage) × JulietProtocol N :=
  match self.lookupChannel channel with
  | .error violation => (.error violation, self)
  | .ok i =>
    if id ∉ (self.channels i).outgoingRequests then (.ok none, self)
    else (.ok (some (createUncheckedRequestCancellation channel id)), self)

def cancelResponse (self : JulietProtocol N) (channel : ChannelId) (id : Id) :
    Except LocalProtocolViolation (Option OutgoingMessage) × JulietProtocol N :=
  match self.lookupChannel channel with
  | .error violation => (.error violation, self)
  | .ok i =>
    let chan := self.channels i
    if id ∉ chan.incomingRequests then (.ok none, self)
    else
      (.ok (some (createUncheckedResponseCancellation channel id)),
        self.setChannel i { chan with incomingRequests := chan.incomingRequests.erase id })

def customError (self : JulietProtocol N) (channel : ChannelId) (id : Id) (payload : Bytes) :
    Except LocalProtocolViolation OutgoingMessage :=
  let msg := OutgoingMessage.new (Header.newError .other channel id) (some payload)
  if msg.isMultiFrame self.maxFrameSize then
    .error (.errorPayloadIsMultiFrame payload.length self.maxFrameSize.get)
  else .ok msg

@[simp]
theorem setChannel_self (self : JulietProtocol N) (i : Fin N) (chan : Channel) :
    (self.setChannel i chan).channels i = chan := by
  simp [setChannel]

@[simp]
theorem setChannel_of_ne (self : JulietProtocol N) {i j : Fin N} (h : j ≠ i) (chan : Channel) :
    (self.setChannel i chan).channels j = self.channels j := by
  simp [setChannel, h]

theorem setChannel_field {α : Type} (f : Channel → α) {self : JulietProtocol N} {i : Fin N}
    {chan : Channel} (h : f chan = f (self.channels i)) (j : Fin N) :
    f ((self.setChannel i chan).channels j) = f (self.channels j) := by
  by_cases hj : j = i
  · subst hj
    rw [setChannel_self, h]
  · rw [setChannel_of_ne _ hj]

@[simp]
theorem setChannel_maxFrameSize (self : JulietProtocol N) (i : Fin N) (chan : Channel) :
    (self.setChannel i chan).maxFrameSize = self.maxFrameSize := rfl

end JulietProtocol

end Juliet
