import Juliet.CustomErrors
import Juliet.Flight

namespace Juliet

open Rust

/-- The channel an item is meant for. Errors may be sent on any. -/
def QueuedItem.channel? : QueuedItem → Option ChannelId
  | .request channel _ _ => some channel
  | .response channel _ _ => some channel
  | .responseCancellation channel _ => some channel
  | .requestCancellation _ => none
  | .error _ _ _ => none

/-- The assertion in `payload_is_multi_frame`, which only builds with debug assertions evaluate. -/
def assertPayloadLen (debug : Bool) (payloadLen : Nat) : Checked Unit :=
  debugAssert (debug = true → payloadLen < 2 ^ 32)

/-- `waitsForTransfer` with the assertion. -/
def waitsForTransferIn {N : Nat} (debug : Bool) (m : MaxFrameSize) (active : Fin N → Option Header)
    (channel : ChannelId) (payload : Option Bytes) : Checked (Option ChannelId) := do
  let i ← channelIndex N channel
  match active i, payload with
  | some _, some payload =>
    assertPayloadLen debug payload.length
    if payloadIsMultiFrame m payload.length then return some channel else return none
  | _, _ => return none

/-- `itemShouldWait` with the assertion. -/
def itemShouldWaitIn {N : Nat} (debug : Bool) (item : QueuedItem) (juliet : JulietProtocol N)
    (active : Fin N → Option Header) : Checked (Except LocalProtocolViolation (Option ChannelId)) :=
  match item with
  | .request channel _ payload =>
    match juliet.allowedToSendRequest channel with
    | .error violation => .ok (.error violation)
    | .ok false => .ok (.ok (some channel))
    | .ok true => do
      return .ok (← waitsForTransferIn debug juliet.maxFrameSize active channel payload)
  | .response channel _ payload => do
    return .ok (← waitsForTransferIn debug juliet.maxFrameSize active channel payload)
  | .requestCancellation _ => .ok (.ok none)
  | .responseCancellation _ _ => .ok (.ok none)
  | .error _ _ _ => .ok (.ok none)

namespace IoCore

variable {N : Nat} {self c : IoCore N}

/-- `sendToReadyQueue` with the assertion: `custom_error` measures the payload of an error before
anything else, and `is_multi_frame` that of a message that has been created. -/
def sendToReadyQueueIn (debug : Bool) (self : IoCore N) (item : QueuedItem) :
    Checked (Except LocalProtocolViolation Unit × IoCore N) := do
  match item with
  | .error _ _ payload => assertPayloadLen debug payload.length
  | _ => pure ()
  let (r, c) ← self.sendToReadyQueue item
  debugAssert (debug = true → ∀ sent ∈ c.history.drop self.history.length,
    (sent.msg.payload.getD []).length < 2 ^ 32)
  return (r, c)

/-- `handleIncomingItem` with the assertion. -/
def handleIncomingItemIn (debug : Bool) (self : IoCore N) (item : QueuedItem) :
    Checked (Except LocalProtocolViolation Unit × IoCore N) := do
  match ← itemShouldWaitIn debug item self.juliet self.activeMultiFrame with
  | .error violation => return (.error violation, self)
  | .ok (some channel) =>
    let i ← channelIndex N channel
    return (.ok (), self.setWaitQueue i (self.waitQueue i ++ [item]))
  | .ok none => self.sendToReadyQueueIn debug item

/-- Handling the item measures its payload before its length has been compared with any limit. -/
def Measures (self : IoCore N) : QueuedItem → Prop
  | .request channel _ _ =>
    ∃ i : Fin N, channel.get.toNat = i ∧ (self.juliet.channels i).allowedToSendRequest = true ∧
      (self.activeMultiFrame i).isSome = true
  | .response channel _ _ =>
    ∃ i : Fin N, channel.get.toNat = i ∧ (self.activeMultiFrame i).isSome = true
  | .error _ _ _ => True
  | _ => False

/-- The assertion is met where it is evaluated. -/
def AssertionMet (debug : Bool) (self : IoCore N) (item : QueuedItem) : Prop :=
  debug = true → self.Measures item → ∀ p ∈ item.payload, p.length < 2 ^ 32

/-- Messages are created with payloads within the limits of their channels. -/
theorem SendStep.created_short {item : QueuedItem} {r : Except LocalProtocolViolation Unit}
    (h : SendStep self item r c) :
    ∀ sent ∈ c.history.drop self.history.length, (sent.msg.payload.getD []).length < 2 ^ 32 := by
  have hshort : ∀ {payload : Option Bytes} {limit : UInt32},
      JulietProtocol.PayloadWithin payload limit →
      (payload.getD []).length < 2 ^ 32 := by
    intro payload limit hw
    have hlt := limit.toNat_lt
    cases payload with
    | none => simp
    | some p =>
      have hp := hw p rfl
      rw [Option.getD_some]
      omega
  cases h with
  | request channel ioId payload i id _ _ hw _ =>
    simpa [Channel.requestMessage, OutgoingMessage.new] using hshort hw
  | response channel id payload i _ _ hw =>
    cases payload with
    | none => simp [createUncheckedResponse, OutgoingMessage.new]
    | some p => simpa [createUncheckedResponse, OutgoingMessage.new] using hshort hw
  | cancel ioId channel i id _ _ _ => simp [createUncheckedRequestCancellation, OutgoingMessage.new]
  | responseCancellation channel id i _ _ => simp [createUncheckedResponseCancellation,
    OutgoingMessage.new]
  | late _ _ _ => simp
  | refused _ _ => simp
  | oversized channel id payload i _ _ _ _ => simp
  | error channel id payload frame _ _ => simp [erroring]

/-- With payloads that are measured in time the assertion changes nothing. -/
theorem sendToReadyQueueIn_of {debug : Bool} (self : IoCore N) {item : QueuedItem}
    (h : ∀ channel id payload, item = .error channel id payload → debug = true →
      payload.length < 2 ^ 32) :
    self.sendToReadyQueueIn debug item = self.sendToReadyQueue item := by
  have hsend : (self.sendToReadyQueue item >>= fun result => do
      debugAssert (debug = true →
        ∀ sent ∈ result.2.history.drop self.history.length,
        (sent.msg.payload.getD []).length < 2 ^ 32)
      return (result.1, result.2)) = self.sendToReadyQueue item := by
    cases hs : self.sendToReadyQueue item with
    | error p => rfl
    | ok result =>
      have hshort := (sendToReadyQueue_steps (r := result.1) (c := result.2) hs).created_short
      rw [bind_ok, debugAssert_of fun _ => hshort, bind_ok]
      rfl
  unfold sendToReadyQueueIn
  cases item with
  | error channel id payload =>
    simp only [assertPayloadLen, debugAssert_of (h channel id payload rfl), bind_ok]
    exact hsend
  | _ => exact hsend

end IoCore

section Assertion

variable {N : Nat} {debug : Bool} {m : MaxFrameSize} {juliet : JulietProtocol N}
  {active : Fin N → Option Header} {channel : ChannelId} {i : Fin N}

theorem waitsForTransferIn_of (payload : Option Bytes) (hi : channel.get.toNat = i)
    (h : debug = true → (active i).isSome = true → ∀ p ∈ payload, p.length < 2 ^ 32) :
    waitsForTransferIn debug m active channel payload =
      waitsForTransfer m active channel payload := by
  simp only [waitsForTransferIn, waitsForTransfer, IoCore.channelIndex_of hi, bind_ok]
  cases ha : active i with
  | none => simp
  | some header =>
    cases payload with
    | none => simp
    | some p =>
      have hp : debug = true → p.length < 2 ^ 32 := fun hd => h hd (by rw [ha]; rfl) p rfl
      simp only [assertPayloadLen, debugAssert_of hp, bind_ok]
      simp

theorem assertPayloadLen_fails {payloadLen : Nat} (h : 2 ^ 32 ≤ payloadLen) :
    assertPayloadLen true payloadLen = .error .debugAssert := by
  have hlong : ¬ (true = true → payloadLen < 2 ^ 32) := by
    intro hshort
    have := hshort rfl
    omega
  rw [assertPayloadLen, debugAssert, if_neg hlong]

theorem waitsForTransferIn_fails {p : Bytes} (hi : channel.get.toNat = i)
    (ha : (active i).isSome = true) (hp : 2 ^ 32 ≤ p.length) :
    waitsForTransferIn true m active channel (some p) = .error .debugAssert := by
  obtain ⟨header, ha⟩ := Option.isSome_iff_exists.mp ha
  simp only [waitsForTransferIn, IoCore.channelIndex_of hi, bind_ok, ha,
    assertPayloadLen_fails hp, bind_error]

theorem channelIndex_beyond (h : ¬ channel.get.toNat < N) :
    channelIndex N channel = .error .outOfRange := by
  rw [channelIndex, dif_neg h]

theorem JulietProtocol.allowedToSendRequest_of (hi : channel.get.toNat = i) :
    juliet.allowedToSendRequest channel = .ok (juliet.channels i).allowedToSendRequest := by
  rw [JulietProtocol.allowedToSendRequest, JulietProtocol.lookupChannel_of hi]
  rfl

theorem JulietProtocol.lookupChannel_beyond (h : ¬ channel.get.toNat < N) :
    juliet.lookupChannel channel = .error (.invalidChannel channel N) := by
  rw [JulietProtocol.lookupChannel, dif_neg h]

theorem JulietProtocol.allowedToSendRequest_beyond (h : ¬ channel.get.toNat < N) :
    juliet.allowedToSendRequest channel = .error (.invalidChannel channel N) := by
  rw [JulietProtocol.allowedToSendRequest, JulietProtocol.lookupChannel_beyond h]
  rfl

end Assertion

namespace IoCore

variable {N : Nat} {debug : Bool} {self : IoCore N}

theorem itemShouldWaitIn_of {item : QueuedItem} (h : self.AssertionMet debug item) :
    itemShouldWaitIn debug item self.juliet self.activeMultiFrame =
      itemShouldWait item self.juliet self.activeMultiFrame := by
  cases item with
  | request channel ioId payload =>
    by_cases hlt : channel.get.toNat < N
    · have hi : channel.get.toNat = (⟨_, hlt⟩ : Fin N) := rfl
      simp only [itemShouldWaitIn, itemShouldWait, JulietProtocol.allowedToSendRequest_of hi]
      cases ha : (self.juliet.channels ⟨_, hlt⟩).allowedToSendRequest with
      | false => rfl
      | true =>
        have hp := waitsForTransferIn_of (m := self.juliet.maxFrameSize) payload hi
          fun hd hactive => h hd ⟨_, hi, ha, hactive⟩
        simp only [hp]
    · simp only [itemShouldWaitIn, itemShouldWait, JulietProtocol.allowedToSendRequest_beyond hlt]
  | response channel id payload =>
    by_cases hlt : channel.get.toNat < N
    · have hi : channel.get.toNat = (⟨_, hlt⟩ : Fin N) := rfl
      have hp := waitsForTransferIn_of (m := self.juliet.maxFrameSize) payload hi
        fun hd hactive => h hd ⟨_, hi, hactive⟩
      simp only [itemShouldWaitIn, itemShouldWait, hp]
    · simp only [itemShouldWaitIn, itemShouldWait, waitsForTransferIn, waitsForTransfer,
        channelIndex_beyond hlt, bind_error]
  | _ => rfl

/-- Where the assertion is met, handling an item is what it is without it. -/
theorem handleIncomingItemIn_of {item : QueuedItem} (h : self.AssertionMet debug item) :
    self.handleIncomingItemIn debug item = self.handleIncomingItem item := by
  have hsend : self.sendToReadyQueueIn debug item = self.sendToReadyQueue item := by
    apply sendToReadyQueueIn_of
    rintro channel id payload rfl hd
    exact h hd trivial payload rfl
  simp only [handleIncomingItemIn, handleIncomingItem, itemShouldWaitIn_of h]
  cases itemShouldWait item self.juliet self.activeMultiFrame with
  | error p => rfl
  | ok waits =>
    cases waits with
    | error violation => rfl
    | ok channel =>
      cases channel with
      | some channel => rfl
      | none => exact hsend

theorem handleIncomingItemIn_fails {item : QueuedItem} (h : ¬ self.AssertionMet debug item) :
    self.handleIncomingItemIn debug item = .error .debugAssert := by
  simp only [AssertionMet, Classical.not_imp, not_forall, Nat.not_lt] at h
  obtain ⟨rfl, hm, p, hp, hlong⟩ := h
  cases item with
  | request channel ioId payload =>
    obtain ⟨i, hi, ha, hactive⟩ := hm
    obtain rfl : payload = some p := hp
    simp only [handleIncomingItemIn, itemShouldWaitIn,
      JulietProtocol.allowedToSendRequest_of hi, ha,
      waitsForTransferIn_fails hi hactive hlong, bind_error]
  | response channel id payload =>
    obtain ⟨i, hi, hactive⟩ := hm
    obtain rfl : payload = some p := hp
    simp only [handleIncomingItemIn, itemShouldWaitIn,
      waitsForTransferIn_fails hi hactive hlong, bind_error]
  | error channel id payload =>
    obtain rfl : payload = p := Option.some.inj hp
    simp only [handleIncomingItemIn, itemShouldWaitIn, bind_ok, sendToReadyQueueIn,
      assertPayloadLen_fails hlong, bind_error]
  | _ => exact hm.elim

/-- Handling an item that may have to wait on a channel returns. -/
theorem handleIncomingItem_waitsOn (self : IoCore N) {item : QueuedItem} {i : Fin N}
    (hw : item.waitsOn i) :
    ∃ r c, self.handleIncomingItem item = .ok (r, c) ∧
      ∀ channel ∈ item.channel?, N ≤ channel.get.toNat →
        r = .error (.invalidChannel channel N) := by
  have hinside : ∀ channel ∈ item.channel?, ¬ N ≤ channel.get.toNat := by
    intro channel hc
    have := i.isLt
    rcases QueuedItem.waitsOn_cases hw with ⟨channel', _, _, rfl, hi⟩ | ⟨channel', _, _, rfl, hi⟩
    · obtain rfl : channel' = channel := Option.some.inj hc
      omega
    · obtain rfl : channel' = channel := Option.some.inj hc
      omega
  suffices h : ∃ r c, self.handleIncomingItem item = .ok (r, c) by
    obtain ⟨r, c, h⟩ := h
    exact ⟨r, c, h, fun channel hc hge => absurd hge (hinside channel hc)⟩
  obtain ⟨waits, hwaits⟩ := itemShouldWait_of_waitsOn self.juliet self.activeMultiFrame hw
  simp only [handleIncomingItem, hwaits, bind_ok]
  cases waits with
  | none => exact sendToReadyQueue_total self hw
  | some channel =>
    have hsame : channel.get.toNat = i := by
      have hchannel := itemShouldWait_some hwaits
      cases item with
      | request channel' ioId payload => exact Eq.trans (Eq.symm hchannel) hw
      | response channel' id payload => exact Eq.trans (Eq.symm hchannel) hw
      | _ => exact hw.elim
    simp only [channelIndex_of hsame, bind_ok]
    exact ⟨_, _, rfl⟩

theorem sendToReadyQueue_error_total (self : IoCore N) (channel : ChannelId) (id : Id)
    (payload : Bytes) :
    ∃ r c, self.sendToReadyQueue (.error channel id payload) = .ok (r, c) := by
  simp only [sendToReadyQueue]
  rcases self.juliet.customError_cases channel id payload with ⟨_, hc⟩ | ⟨hsingle, hc⟩
  · rw [hc]
    exact ⟨_, _, rfl⟩
  · have hmsg : (OutgoingMessage.new (Header.newError .other channel id)
        (some payload)).isMultiFrame
        self.juliet.maxFrameSize = false := hsingle
    simp only [hc, injectError_of_single hmsg, bind_ok]
    exact ⟨_, _, rfl⟩

theorem sendToReadyQueue_cancellation_total (self : IoCore N) (ioId : IoId) :
    ∃ r c, self.sendToReadyQueue (.requestCancellation ioId) = .ok (r, c) := by
  simp only [sendToReadyQueue]
  split
  next =>
    split
    next => exact ⟨_, _, rfl⟩
    next => exact ⟨_, _, rfl⟩
    next => exact ⟨_, _, rfl⟩
  next => exact ⟨_, _, rfl⟩

theorem sendToReadyQueue_cancelResponse (self : IoCore N) (channel : ChannelId) (id : Id) :
    ∃ r c, self.sendToReadyQueue (.responseCancellation channel id) = .ok (r, c) ∧
      (¬ channel.get.toNat < N → r = .error (.invalidChannel channel N)) := by
  simp only [sendToReadyQueue]
  by_cases hlt : channel.get.toNat < N
  · split
    next => exact ⟨_, _, rfl, fun h => absurd hlt h⟩
    next => exact ⟨_, _, rfl, fun h => absurd hlt h⟩
    next => exact ⟨_, _, rfl, fun h => absurd hlt h⟩
  · simp only [JulietProtocol.cancelResponse, JulietProtocol.lookupChannel_beyond hlt]
    exact ⟨_, _, rfl, fun _ => rfl⟩

/-- Handling an item returns, and an item for a channel that does not exist is refused for this
reason. -/
def Answers (debug : Bool) (self : IoCore N) (item : QueuedItem) : Prop :=
  ∃ r c, self.handleIncomingItemIn debug item = .ok (r, c) ∧
    ∀ channel ∈ item.channel?, N ≤ channel.get.toNat → r = .error (.invalidChannel channel N)

/-- Every item is handled, except responses for channels that do not exist, and payloads beyond a
`u32` in a build that asserts that there are none. -/
theorem answers_iff (debug : Bool) (self : IoCore N) (item : QueuedItem) :
    self.Answers debug item ↔
      (∀ channel id payload, item = .response channel id payload → channel.get.toNat < N) ∧
      self.AssertionMet debug item := by
  by_cases hm : self.AssertionMet debug item
  case neg =>
    simp only [Answers, handleIncomingItemIn_fails hm, hm, and_false, iff_false]
    rintro ⟨r, c, h, _⟩
    simp at h
  simp only [Answers, handleIncomingItemIn_of hm, hm, and_true]
  cases item with
  | request channel ioId payload =>
    simp only [reduceCtorEq, false_implies, implies_true, iff_true]
    by_cases hlt : channel.get.toNat < N
    · have hw : (QueuedItem.request channel ioId payload).waitsOn (⟨_, hlt⟩ : Fin N) := rfl
      exact handleIncomingItem_waitsOn self hw
    · simp only [handleIncomingItem, itemShouldWait,
        JulietProtocol.allowedToSendRequest_beyond hlt, bind_ok]
      refine ⟨_, _, rfl, ?_⟩
      rintro _ ⟨⟩ _
      rfl
  | requestCancellation ioId =>
    simp only [reduceCtorEq, false_implies, implies_true, iff_true, handleIncomingItem,
      itemShouldWait, bind_ok]
    obtain ⟨r, c, h⟩ := sendToReadyQueue_cancellation_total self ioId
    exact ⟨r, c, h, by simp [QueuedItem.channel?]⟩
  | response channel id payload =>
    constructor
    · rintro ⟨r, c, h, _⟩ _ _ _ ⟨⟩
      by_contra hlt
      simp [handleIncomingItem, itemShouldWait, waitsForTransfer, channelIndex_beyond hlt] at h
    · intro hall
      have hlt := hall channel id payload rfl
      have hw : (QueuedItem.response channel id payload).waitsOn (⟨_, hlt⟩ : Fin N) := rfl
      exact handleIncomingItem_waitsOn self hw
  | responseCancellation channel id =>
    simp only [reduceCtorEq, false_implies, implies_true, iff_true, handleIncomingItem,
      itemShouldWait, bind_ok]
    obtain ⟨r, c, h, hbeyond⟩ := sendToReadyQueue_cancelResponse self channel id
    refine ⟨r, c, h, ?_⟩
    rintro _ ⟨⟩ hge
    exact hbeyond (by omega)
  | error channel id payload =>
    simp only [reduceCtorEq, false_implies, implies_true, iff_true, handleIncomingItem_error]
    obtain ⟨r, c, h⟩ := sendToReadyQueue_error_total self channel id payload
    exact ⟨r, c, h, by simp [QueuedItem.channel?]⟩

/-- A response for channel 1 of one channel: the array of transfers is indexed before anything is
checked. -/
theorem response_out_of_range :
    IoTask.Reach JulietProtocol.smallBuilder IoTask.anyStep
      (IoTask.new JulietProtocol.smallBuilder) ∧
      (IoTask.new JulietProtocol.smallBuilder).core.handleIncomingItem (.response ⟨1⟩ ⟨0⟩ none) =
        .error .outOfRange ∧
      ∀ debug, ¬ (IoTask.new JulietProtocol.smallBuilder).core.Answers debug
        (.response ⟨1⟩ ⟨0⟩ none) := by
  refine ⟨.start, rfl, ?_⟩
  rintro debug ⟨r, c, h, _⟩
  have hfails : (IoTask.new JulietProtocol.smallBuilder).core.handleIncomingItemIn debug
      (.response ⟨1⟩ ⟨0⟩ none) =
      .error .outOfRange := rfl
  simp [hfails] at h

end IoCore

end Juliet
