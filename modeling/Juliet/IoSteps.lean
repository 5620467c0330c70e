import Mathlib.Logic.Relation
import Juliet.IoTask
import Juliet.LocalCalls
import Juliet.FrameBytes

namespace Juliet

open Rust

/-- A frame of which nothing has been taken yet. -/
def OutgoingFrame.Fresh (f : OutgoingFrame) : Prop :=
  f.position = 0 ∧ f.preamble.asRef.length = f.preamble.len

theorem FrameIter.nextOwned_fresh (it : FrameIter) (m : MaxFrameSize) :
    (it.nextOwned m).1.Fresh := by
  refine ⟨it.nextOwned_position m, ?_⟩
  have hp : ∀ v : Varint32, v.asRef.length = v.len → (Preamble.mk it.header v).asRef.length =
      (Preamble.mk it.header v).len := by
    intro v hv
    rw [Preamble.asRef_eq, List.length_append, Header.bytes_length, hv]
    rfl
  unfold nextOwned
  split
  next pl _ =>
    have hlp : (it.lengthPrefix pl).asRef.length = (it.lengthPrefix pl).len := by
      unfold lengthPrefix
      split <;> simp
    dsimp only
    split
    · exact hp _ hlp
    · exact hp _ hlp
  next => exact hp _ rfl

namespace IoCore

variable {N : Nat}

/-- The core after an error has been injected. -/
def erroring (self : IoCore N) (frame : OutgoingFrame) : IoCore N :=
  { self with
    receiver := { self.receiver with closed := true }
    nextParseAt := usizeMax
    buffer := []
    readyQueue := []
    requestMap := .empty
    waitQueue := fun _ => []
    pendingError := some frame }

theorem injectError_cases {self c : IoCore N} {errMsg : OutgoingMessage}
    (h : self.injectError errMsg = .ok c) :
    ∃ frame, c = self.erroring frame ∧ frame.Fresh ∧ frame.header = errMsg.header := by
  obtain ⟨_, _, h⟩ := bind_eq_ok.mp h
  refine ⟨((errMsg.truncateToSingleFrame self.juliet.maxFrameSize).frames.nextOwned
    self.juliet.maxFrameSize).1, (Except.ok.inj h).symm, FrameIter.nextOwned_fresh _ _, ?_⟩
  rw [FrameIter.nextOwned_header]
  simp only [FrameIter.header, OutgoingMessage.frames, OutgoingMessage.truncateToSingleFrame]
  split <;> rfl

/-- The core after the message for an item has been created, with what that did to the protocol. -/
def created (self : IoCore N) (i : Fin N) (item : QueuedItem) (msg : OutgoingMessage)
    (juliet : JulietProtocol N) (requestMap : BiMap IoId (ChannelId × Id)) : IoCore N :=
  let self := { self with juliet, requestMap }
  (if msg.isMultiFrame juliet.maxFrameSize then self.setActive i (some msg.header)
    else self).pushReady item msg

theorem channelIndex_ok {channel : ChannelId} {i : Fin N} (h : channelIndex N channel = .ok i) :
    channel.get.toNat = i := by
  unfold channelIndex at h
  split at h
  next => cases Except.ok.inj h; rfl
  next => simp at h

theorem channelIndex_of {channel : ChannelId} {i : Fin N} (h : channel.get.toNat = i) :
    channelIndex N channel = .ok i := by
  have hlt : channel.get.toNat < N := by
    rw [h]
    exact i.isLt
  simp only [channelIndex, hlt, dif_pos]
  exact congrArg Except.ok (Fin.ext h)

theorem markActive_of {self : IoCore N} {channel : ChannelId} {i : Fin N}
    (hi : channel.get.toNat = i) (msg : OutgoingMessage) :
    self.markActive channel msg =
      .ok (if msg.isMultiFrame self.juliet.maxFrameSize then self.setActive i (some msg.header)
        else self) := by
  unfold markActive
  split
  next => rw [channelIndex_of hi]; rfl
  next => rfl

/-- Everything that sending an item to the ready queue can do. -/
inductive SendStep (self : IoCore N) : QueuedItem → Except LocalProtocolViolation Unit →
    IoCore N → Prop
  | request (channel : ChannelId) (ioId : IoId) (payload : Option Bytes) (i : Fin N) (id : Id) :
      channel.get.toNat = i → (self.juliet.channels i).allowedToSendRequest = true →
      JulietProtocol.PayloadWithin payload (self.juliet.channels i).config.maxRequestPayloadSize →
      (self.juliet.channels i).Generates id →
      SendStep self (.request channel ioId payload) (.ok ())
        (self.created i (.request channel ioId payload) (Channel.requestMessage channel id payload)
          (self.juliet.setChannel i ((self.juliet.channels i).withRequest id))
          (self.requestMap.insert ioId (channel, id)))
  | cancel (ioId : IoId) (channel : ChannelId) (i : Fin N) (id : Id) : channel.get.toNat = i →
      (ioId, (channel, id)) ∈ self.requestMap.pairs →
        id ∈ (self.juliet.channels i).outgoingRequests →
      SendStep self (.requestCancellation ioId) (.ok ())
        (self.created i (.requestCancellation ioId)
          (createUncheckedRequestCancellation channel id) self.juliet
          self.requestMap)
  | response (channel : ChannelId) (id : Id) (payload : Option Bytes)
      (i : Fin N) : channel.get.toNat = i →
      id ∈ (self.juliet.channels i).incomingRequests →
      JulietProtocol.PayloadWithin payload (self.juliet.channels i).config.maxResponsePayloadSize →
      SendStep self (.response channel id payload) (.ok ())
        (self.created i (.response channel id payload) (createUncheckedResponse channel id payload)
          (self.juliet.answered i id) self.requestMap)
  | responseCancellation (channel : ChannelId) (id : Id) (i : Fin N) : channel.get.toNat = i →
      id ∈ (self.juliet.channels i).incomingRequests →
      SendStep self (.responseCancellation channel id) (.ok ())
        (self.created i (.responseCancellation channel id)
          (createUncheckedResponseCancellation channel id)
          (self.juliet.answered i id) self.requestMap)
  | late (item : QueuedItem) : (∀ channel ioId payload, item ≠ .request channel ioId payload) →
      (∀ channel id payload, item = .response channel id payload →
        ∀ i : Fin N, channel.get.toNat = i → id ∉ (self.juliet.channels i).incomingRequests) →
      SendStep self item (.ok ()) self
  | refused (item : QueuedItem) (violation : LocalProtocolViolation) : SendStep self item
      (.error violation) self
  | oversized (channel : ChannelId) (id : Id) (payload : Option Bytes) (i : Fin N)
      (violation : LocalProtocolViolation) :
      channel.get.toNat = i → id ∈ (self.juliet.channels i).incomingRequests →
      ¬ JulietProtocol.PayloadWithin payload
        (self.juliet.channels i).config.maxResponsePayloadSize →
      SendStep self (.response channel id payload) (.error violation)
        { self with juliet := self.juliet.answered i id }
  | error (channel : ChannelId) (id : Id) (payload : Bytes) (frame : OutgoingFrame) : frame.Fresh →
      frame.header = Header.newError .other channel id →
      SendStep self (.error channel id payload) (.ok ()) (self.erroring frame)

theorem sendToReadyQueue_steps {self c : IoCore N} {item : QueuedItem}
    {r : Except LocalProtocolViolation Unit} (h : self.sendToReadyQueue item = .ok (r, c)) :
    SendStep self item r c := by
  unfold sendToReadyQueue at h
  cases item with
  | request channel ioId payload =>
    obtain ⟨⟨created, juliet⟩, hc, h⟩ := bind_eq_ok.mp h
    rcases JulietProtocol.createRequest_cases hc with ⟨violation, rfl, rfl⟩ | ⟨i, id, hl,
      ha, hw, hf, rfl, rfl⟩
    · obtain ⟨rfl, rfl⟩ := ok_pair h
      exact .refused _ _
    · have hi := JulietProtocol.lookupChannel_ok hl
      simp only [markActive_of hi, bind_ok, pure_eq_ok, Channel.requestMessage_id] at h
      obtain ⟨rfl, rfl⟩ := ok_pair h
      exact .request channel ioId payload i id hi ha hw hf
  | requestCancellation ioId =>
    dsimp only at h
    split at h
    next channel id hget =>
      have hmem := BiMap.getByLeft_eq_some.mp hget
      have hstate := self.juliet.cancelRequest_state channel id
      split at h
      next violation juliet hc =>
        rw [hc] at hstate
        subst hstate
        obtain ⟨rfl, rfl⟩ := ok_pair h
        exact .refused _ _
      next msg juliet hc =>
        obtain ⟨i, hl, hout, rfl⟩ := JulietProtocol.cancelRequest_some (congrArg Prod.fst hc)
        rw [hc] at hstate
        subst hstate
        obtain ⟨rfl, rfl⟩ := ok_pair h
        exact .cancel ioId channel i id (JulietProtocol.lookupChannel_ok hl) hmem hout
      next juliet hc =>
        rw [hc] at hstate
        subst hstate
        obtain ⟨rfl, rfl⟩ := ok_pair h
        exact .late _ (by simp) (by simp)
    next =>
      obtain ⟨rfl, rfl⟩ := ok_pair h
      exact .late _ (by simp) (by simp)
  | response channel id payload =>
    dsimp only at h
    rcases self.juliet.createResponse_cases channel id payload with
      ⟨_, he⟩ | ⟨i, hl, hin, he⟩ | ⟨i, hl, hin, ⟨_, he⟩ | ⟨hw, he⟩⟩
    · rw [he] at h
      obtain ⟨rfl, rfl⟩ := ok_pair h
      exact .refused _ _
    · rw [he] at h
      obtain ⟨rfl, rfl⟩ := ok_pair h
      refine .late _ (by simp) ?_
      rintro _ _ _ ⟨rfl, rfl, rfl⟩ j hj
      have hij : j = i := Fin.ext (hj.symm.trans (JulietProtocol.lookupChannel_ok hl))
      rw [hij]
      exact hin
    · rw [he] at h
      obtain ⟨rfl, rfl⟩ := ok_pair h
      refine .oversized channel id payload i _ (JulietProtocol.lookupChannel_ok hl) hin ?_
      intro hw
      have hcreated := JulietProtocol.createResponse_within hl hin hw
      simp [he] at hcreated
    · have hi := JulietProtocol.lookupChannel_ok hl
      simp only [he, markActive_of hi, bind_ok, pure_eq_ok] at h
      obtain ⟨rfl, rfl⟩ := ok_pair h
      exact .response channel id payload i hi hin hw
  | responseCancellation channel id =>
    dsimp only at h
    rcases self.juliet.cancelResponse_cases channel id with ⟨_, he⟩ | he | ⟨i, hl, hin, he⟩
    · rw [he] at h
      obtain ⟨rfl, rfl⟩ := ok_pair h
      exact .refused _ _
    · rw [he] at h
      obtain ⟨rfl, rfl⟩ := ok_pair h
      exact .late _ (by simp) (by simp)
    · rw [he] at h
      obtain ⟨rfl, rfl⟩ := ok_pair h
      exact .responseCancellation channel id i (JulietProtocol.lookupChannel_ok hl) hin
  | error channel id payload =>
    dsimp only at h
    rcases self.juliet.customError_cases channel id payload with ⟨_, hc⟩ | ⟨_, hc⟩
    · rw [hc] at h
      obtain ⟨rfl, rfl⟩ := ok_pair h
      exact .refused _ _
    · rw [hc] at h
      obtain ⟨c', hinj, h⟩ := bind_eq_ok.mp h
      obtain ⟨rfl, rfl⟩ := ok_pair h
      obtain ⟨frame, rfl, hfresh, hhd⟩ := injectError_cases hinj
      exact .error channel id payload frame hfresh hhd

theorem sendToReadyQueue_request (self : IoCore N) {channel : ChannelId} {i : Fin N} {id : Id}
    {payload : Option Bytes} (hi : channel.get.toNat = i)
    (ha : (self.juliet.channels i).allowedToSendRequest = true)
    (hw : JulietProtocol.PayloadWithin payload
      (self.juliet.channels i).config.maxRequestPayloadSize)
    (hid : (self.juliet.channels i).Generates id) (ioId : IoId) :
    self.sendToReadyQueue (.request channel ioId payload) =
      .ok (.ok (), self.created i (.request channel ioId payload)
        (Channel.requestMessage channel id payload)
        (self.juliet.setChannel i ((self.juliet.channels i).withRequest id))
        (self.requestMap.insert ioId (channel, id))) := by
  simp only [sendToReadyQueue, JulietProtocol.createRequest_of hi ha hw hid, bind_ok,
    markActive_of hi, pure_eq_ok, Channel.requestMessage_id]
  rfl

/-- What the wait queue of a channel goes through while it is processed. -/
inductive ScanStep (i : Fin N) (self : IoCore N) : IoCore N → Prop
  | rotate (item : QueuedItem) (rest : List QueuedItem)
      (channel : ChannelId) : self.waitQueue i = item :: rest →
      itemShouldWait item self.juliet self.activeMultiFrame = .ok (.ok (some channel)) →
      ScanStep i self (self.setWaitQueue i (rest ++ [item]))
  | promote (item : QueuedItem) (rest : List QueuedItem) (r : Except LocalProtocolViolation Unit)
      (c : IoCore N) :
      self.waitQueue i = item :: rest →
      itemShouldWait item self.juliet self.activeMultiFrame = .ok (.ok none) →
      SendStep (self.setWaitQueue i rest) item r c → ScanStep i self c
  | lose (item : QueuedItem) (rest : List QueuedItem) : self.waitQueue i = item :: rest →
      ScanStep i self (self.setWaitQueue i rest)

@[simp]
theorem setWaitQueue_juliet (self : IoCore N) (i : Fin N) (queue : List QueuedItem) :
    (self.setWaitQueue i queue).juliet = self.juliet := rfl

@[simp]
theorem setWaitQueue_active (self : IoCore N) (i : Fin N) (queue : List QueuedItem) :
    (self.setWaitQueue i queue).activeMultiFrame = self.activeMultiFrame := rfl

theorem waitLoop_scans {channel : ChannelId} {i : Fin N} (remaining : Nat) {self c : IoCore N}
    {r : Except LocalProtocolViolation Unit} (h : waitLoop channel i remaining self = .ok (r, c)) :
    Relation.ReflTransGen (ScanStep i) self c := by
  induction remaining generalizing self with
  | zero =>
    obtain ⟨_, rfl⟩ := ok_pair h
    exact .refl
  | succ remaining ih =>
    unfold waitLoop at h
    split at h
    next =>
      obtain ⟨_, rfl⟩ := ok_pair h
      exact .refl
    next item rest hq =>
      obtain ⟨waits, hw, h⟩ := bind_eq_ok.mp h
      simp only [setWaitQueue_juliet, setWaitQueue_active] at hw
      split at h
      next =>
        obtain ⟨_, rfl⟩ := ok_pair h
        exact .single (.lose item rest hq)
      next ch =>
        have hrest : (self.setWaitQueue i rest).waitQueue i = rest := by simp [setWaitQueue]
        have hset : (self.setWaitQueue i rest).setWaitQueue i (rest ++ [item]) =
            self.setWaitQueue i (rest ++ [item]) := by
          simp [setWaitQueue]
        rw [hrest, hset] at h
        exact .head (.rotate item rest ch hq hw) (ih h)
      next =>
        obtain ⟨⟨r', c'⟩, hs, h⟩ := bind_eq_ok.mp h
        have hstep := ScanStep.promote item rest r' c' hq hw (sendToReadyQueue_steps hs)
        split at h
        next he =>
          obtain ⟨_, rfl⟩ := Prod.mk.inj he
          obtain ⟨_, rfl⟩ := ok_pair h
          exact .single hstep
        next he =>
          obtain ⟨_, rfl⟩ := Prod.mk.inj he
          split at h
          next =>
            obtain ⟨_, rfl⟩ := ok_pair h
            exact .single hstep
          next =>
            obtain ⟨_, rfl⟩ := ok_pair h
            exact .single hstep
          next => exact .head hstep (ih h)

theorem processWaitQueue_scans {channel : ChannelId} {self c : IoCore N}
    {r : Except LocalProtocolViolation Unit} (h : self.processWaitQueue channel = .ok (r, c)) :
    ∃ i : Fin N, channel.get.toNat = i ∧ Relation.ReflTransGen (ScanStep i) self c := by
  obtain ⟨i, hi, h⟩ := bind_eq_ok.mp h
  exact ⟨i, channelIndex_ok hi, waitLoop_scans _ h⟩

/-- What each step of a scan keeps holds once the wait queue has been processed. -/
theorem processWaitQueue_keeps {channel : ChannelId} {self c : IoCore N}
    {r : Except LocalProtocolViolation Unit} {P : IoCore N → Prop}
    (h : self.processWaitQueue channel = .ok (r, c)) (hP : P self)
    (hkeep : ∀ {i : Fin N} {b c : IoCore N}, P b → ScanStep i b c → P c) : P c := by
  obtain ⟨i, _, hs⟩ := processWaitQueue_scans h
  clear h
  induction hs with
  | refl => exact hP
  | tail _ hstep ih => exact hkeep ih hstep

end IoCore

end Juliet
