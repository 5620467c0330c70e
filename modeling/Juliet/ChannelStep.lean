import Juliet.MultiframeAccept
import Juliet.ProcessIncoming

namespace Juliet

open Rust

namespace Channel

/-- The bounds a channel keeps whatever its peer sends. -/
structure Valid (i : Nat) (chan : Channel) : Prop where
  incoming_le : chan.incomingRequests.card ≤ chan.config.requestLimit.toNat
  outgoing_le : chan.outgoingRequests.card ≤ chan.config.requestLimit.toNat
  allowance_le : chan.cancellationAllowance ≤ chan.config.requestLimit.toNat
  transfer : ∀ {h p t}, chan.currentMultiframeReceiver = .inProgress h p t →
    h.channel.get.toNat = i ∧ 0 < p.length ∧ p.length < t ∧
      (h = Header.new .requestPl h.channel h.id ∧ t ≤ chan.config.maxRequestPayloadSize.toNat ∨
        h = Header.new .responsePl h.channel h.id ∧ t ≤ chan.config.maxResponsePayloadSize.toNat)

theorem Valid.receiver_open {i : Nat} {self : Channel} (h : self.Valid i) :
    self.currentMultiframeReceiver.Open (2 ^ 32) := by
  cases hr : self.currentMultiframeReceiver with
  | ready => trivial
  | inProgress hd p t =>
    obtain ⟨_, hpos, hlt, hk⟩ := h.transfer hr
    have hreq := self.config.maxRequestPayloadSize.toNat_lt
    have hresp := self.config.maxResponsePayloadSize.toNat_lt
    refine ⟨hpos, hlt, ?_⟩
    rcases hk with ⟨_, hle⟩ | ⟨_, hle⟩ <;> omega

theorem new_valid (i : Nat) (config : ChannelConfiguration) : (Channel.new config).Valid i where
  incoming_le := by simp [Channel.new]
  outgoing_le := by simp [Channel.new]
  allowance_le := by simp [Channel.new]
  transfer := by simp [Channel.new]

/-- The bookkeeping for a request that is accepted. -/
def register (self : Channel) (id : Id) : Channel :=
  { self with incomingRequests := insert id self.incomingRequests }.incrementCancellationAllowance

@[simp]
theorem incrementCancellationAllowance_incoming (self : Channel) :
    self.incrementCancellationAllowance.incomingRequests = self.incomingRequests := by
  unfold incrementCancellationAllowance
  split <;> rfl

@[simp]
theorem incrementCancellationAllowance_outgoing (self : Channel) :
    self.incrementCancellationAllowance.outgoingRequests = self.outgoingRequests := by
  unfold incrementCancellationAllowance
  split <;> rfl

@[simp]
theorem incrementCancellationAllowance_receiver (self : Channel) :
    self.incrementCancellationAllowance.currentMultiframeReceiver =
      self.currentMultiframeReceiver := by
  unfold incrementCancellationAllowance
  split <;> rfl

@[simp]
theorem incrementCancellationAllowance_config (self : Channel) :
    self.incrementCancellationAllowance.config = self.config := by
  unfold incrementCancellationAllowance
  split <;> rfl

@[simp]
theorem incrementCancellationAllowance_prevRequestId (self : Channel) :
    self.incrementCancellationAllowance.prevRequestId = self.prevRequestId := by
  unfold incrementCancellationAllowance
  split <;> rfl

theorem incrementCancellationAllowance_allowance (self : Channel)
    (h : self.cancellationAllowance ≤ self.config.requestLimit.toNat) :
    self.incrementCancellationAllowance.cancellationAllowance =
      min (self.cancellationAllowance + 1) self.config.requestLimit.toNat := by
  unfold incrementCancellationAllowance
  split
  next hlt => show self.cancellationAllowance + 1 = _; omega
  next hlt => omega

@[simp]
theorem register_incoming (self : Channel) (id : Id) :
    (self.register id).incomingRequests = insert id self.incomingRequests := by
  simp [register]

@[simp]
theorem register_outgoing (self : Channel) (id : Id) :
    (self.register id).outgoingRequests = self.outgoingRequests := by
  simp [register]

@[simp]
theorem register_receiver (self : Channel) (id : Id) :
    (self.register id).currentMultiframeReceiver = self.currentMultiframeReceiver := by
  simp [register]

@[simp]
theorem register_config (self : Channel) (id : Id) : (self.register id).config = self.config := by
  simp [register]

@[simp]
theorem register_prevRequestId (self : Channel) (id : Id) :
    (self.register id).prevRequestId = self.prevRequestId := by
  simp [register]

theorem register_allowance (self : Channel) (id : Id)
    (h : self.cancellationAllowance ≤ self.config.requestLimit.toNat) :
    (self.register id).cancellationAllowance =
      min (self.cancellationAllowance + 1) self.config.requestLimit.toNat :=
  incrementCancellationAllowance_allowance _ h

def withReceiver (self : Channel) (receiver : MultiframeReceiver) : Channel :=
  { self with currentMultiframeReceiver := receiver }

end Channel

/-- The read that a finished message of a kind with a payload gives rise to. -/
def completedAs (read : Option Bytes → CompletedRead) (frame : CompletedFrame) :
    Option ReadOutcome :=
  frame.intoCompletedPayload.map fun payload => .success (read (some payload))

/-- Everything a frame with a valid header can do to its channel. -/
inductive ChannelStep (header : Header) (buffer : Bytes) (self : Channel) :
    Kind → Option ReadOutcome → Channel → Bytes → Prop
  | wait (kind : Kind) (n : NonZeroU32) :
      ChannelStep header buffer self kind (some (.incomplete n)) self buffer
  | refuse (kind : Kind) (err : ErrorKind) :
      ChannelStep header buffer self kind (some (errMsg header err)) self buffer
  | request : self.incomingRequests.card < self.config.requestLimit.toNat →
    header.id ∉ self.incomingRequests →
      ChannelStep header buffer self .request
        (some (.success (.newRequest header.channel header.id none)))
        (self.register header.id) (buffer.drop 4)
  | response : header.id ∈ self.outgoingRequests →
      ChannelStep header buffer self .response
        (some (.success (.receivedResponse header.channel header.id none)))
        { self with outgoingRequests := self.outgoingRequests.erase header.id } (buffer.drop 4)
  | requestPlRefused (frame : CompletedFrame) (receiver : MultiframeReceiver)
      (rest : Bytes) (err : ErrorKind) :
      Accepted self.config.maxRequestPayloadSize.toNat header buffer self.currentMultiframeReceiver
        (.success frame) receiver rest → frame.wasNew = true →
      ChannelStep header buffer self .requestPl (some (errMsg header err))
        (self.withReceiver receiver) rest
  | requestPlNew (frame : CompletedFrame) (receiver : MultiframeReceiver) (rest : Bytes) :
      Accepted self.config.maxRequestPayloadSize.toNat header buffer self.currentMultiframeReceiver
        (.success frame) receiver rest → frame.wasNew = true →
      self.incomingRequests.card < self.config.requestLimit.toNat →
        header.id ∉ self.incomingRequests →
      ChannelStep header buffer self .requestPl
        (completedAs (.newRequest header.channel header.id) frame)
        ((self.withReceiver receiver).register header.id) rest
  | requestPlMore (frame : CompletedFrame) (receiver : MultiframeReceiver) (rest : Bytes) :
      Accepted self.config.maxRequestPayloadSize.toNat header buffer self.currentMultiframeReceiver
        (.success frame) receiver rest → frame.wasNew = false →
      ChannelStep header buffer self .requestPl
        (completedAs (.newRequest header.channel header.id) frame)
        (self.withReceiver receiver) rest
  | responsePl (frame : CompletedFrame) (receiver : MultiframeReceiver) (rest : Bytes) :
      header.id ∈ self.outgoingRequests →
      Accepted self.config.maxResponsePayloadSize.toNat header buffer self.currentMultiframeReceiver
        (.success frame) receiver rest →
      ChannelStep header buffer self .responsePl
        (completedAs (.receivedResponse header.channel header.id) frame)
        (if frame.intoCompletedPayload.isSome then
          { self.withReceiver receiver with
            outgoingRequests := self.outgoingRequests.erase header.id }
         else self.withReceiver receiver) rest
  | cancelReqLate : 0 < self.cancellationAllowance →
      header.id ∉
        ({ self with cancellationAllowance := self.cancellationAllowance - 1 }.cancelInProgress
        header).incomingRequests →
      ChannelStep header buffer self .cancelReq none
        ({ self with cancellationAllowance := self.cancellationAllowance - 1 }.cancelInProgress
          header) (buffer.drop 4)
  | cancelReq : 0 < self.cancellationAllowance →
      header.id ∈
        ({ self with cancellationAllowance := self.cancellationAllowance - 1 }.cancelInProgress
        header).incomingRequests →
      ChannelStep header buffer self .cancelReq
        (some (.success (.requestCancellation header.channel header.id)))
        ({ self with cancellationAllowance := self.cancellationAllowance - 1 }.cancelInProgress
          header) (buffer.drop 4)
  | cancelResp : header.id ∈ self.outgoingRequests →
      ChannelStep header buffer self .cancelResp
        (some (.success (.responseCancellation header.channel header.id)))
        { self with outgoingRequests := self.outgoingRequests.erase header.id } (buffer.drop 4)

/-- `f` returns on `buffer` one of the steps of the channel and, unless it waits for data, returns
the same on every longer buffer. -/
def StepsOn (header : Header) (self : Channel) (kind : Kind)
    (f : Bytes → Checked (Option ReadOutcome × Channel × Bytes)) (buffer : Bytes) : Prop :=
  ∃ o c b, f buffer = .ok (o, c, b) ∧ ChannelStep header buffer self kind o c b ∧
    ((∃ n, o = some (.incomplete n)) ∨ ∀ rest, f (buffer ++ rest) = .ok (o, c, b ++ rest))

namespace Channel

variable {self : Channel} {header : Header} {buffer : Bytes} {m : MaxFrameSize} {i : Nat}

theorem advance_header_append (hb : 4 ≤ buffer.length) (rest : Bytes) :
    advance (buffer ++ rest) Header.size = .ok (buffer.drop 4 ++ rest) := by
  have hl : Header.size ≤ (buffer ++ rest).length := by
    simp only [List.length_append, Header.size]
    omega
  rw [advance_of_le hl, List.drop_append_of_le_length hb]

theorem advance_header (hb : 4 ≤ buffer.length) :
    advance buffer Header.size = .ok (buffer.drop 4) := by
  simpa using advance_header_append hb []

theorem processRequest_steps (hb : 4 ≤ buffer.length) :
    StepsOn header self .request (self.processRequest header) buffer := by
  unfold processRequest StepsOn
  by_cases hmax : self.isAtMaxIncomingRequests = true
  · simp only [hmax, if_true]
    exact ⟨_, _, _, rfl, .refuse _ _, .inr fun _ => rfl⟩
  · by_cases hdup : header.id ∈ self.incomingRequests
    · simp only [hmax, hdup, if_true, Bool.false_eq_true, if_false]
      exact ⟨_, _, _, rfl, .refuse _ _, .inr fun _ => rfl⟩
    · simp only [hmax, hdup, if_false, advance_header hb, advance_header_append hb,
        bind_ok, pure_eq_ok, Bool.false_eq_true]
      refine ⟨_, _, _, rfl, .request ?_ hdup, .inr fun _ => rfl⟩
      simpa [isAtMaxIncomingRequests] using hmax

theorem processResponse_steps (hb : 4 ≤ buffer.length) :
    StepsOn header self .response (self.processResponse header) buffer := by
  unfold processResponse StepsOn
  by_cases hid : header.id ∈ self.outgoingRequests
  · simp only [hid, not_true_eq_false, if_false, advance_header hb, advance_header_append hb,
      bind_ok, pure_eq_ok]
    exact ⟨_, _, _, rfl, .response hid, .inr fun _ => rfl⟩
  · simp only [hid, not_false_eq_true, if_true]
    exact ⟨_, _, _, rfl, .refuse _ _, .inr fun _ => rfl⟩

theorem processCancelReq_steps (hb : 4 ≤ buffer.length) :
    StepsOn header self .cancelReq (self.processCancelReq header) buffer := by
  unfold processCancelReq StepsOn
  by_cases hz : self.cancellationAllowance = 0
  · simp only [hz, if_true]
    exact ⟨_, _, _, rfl, .refuse _ _, .inr fun _ => rfl⟩
  · have hpos : 0 < self.cancellationAllowance := Nat.pos_of_ne_zero hz
    simp only [hz, if_false, checkedSub_of_le hpos, advance_header hb, advance_header_append hb,
      bind_ok, pure_eq_ok]
    by_cases hid : header.id ∈
        ({ self with cancellationAllowance := self.cancellationAllowance - 1 }.cancelInProgress
          header).incomingRequests
    · simp only [hid, not_true_eq_false, if_false]
      exact ⟨_, _, _, rfl, .cancelReq hpos hid, .inr fun _ => rfl⟩
    · simp only [hid, not_false_eq_true, if_true]
      exact ⟨_, _, _, rfl, .cancelReqLate hpos hid, .inr fun _ => rfl⟩

theorem processCancelResp_steps (hb : 4 ≤ buffer.length) :
    StepsOn header self .cancelResp (self.processCancelResp header) buffer := by
  unfold processCancelResp StepsOn
  by_cases hid : header.id ∈ self.outgoingRequests
  · simp only [hid, if_true, advance_header hb, advance_header_append hb, bind_ok, pure_eq_ok]
    exact ⟨_, _, _, rfl, .cancelResp hid, .inr fun _ => rfl⟩
  · simp only [hid, if_false]
    exact ⟨_, _, _, rfl, .refuse _ _, .inr fun _ => rfl⟩

/-- What the arms for frames with a payload have in common: the receiver takes the frame, and what
that completes is recorded. -/
def acceptWith (self : Channel) (maxFrameSize : MaxFrameSize) (maxPayloadSize : Nat)
    (exceeded : ErrorKind) (record : Channel → CompletedFrame → Option ReadOutcome × Channel)
    (header : Header) (buffer : Bytes) :
    Checked (Option ReadOutcome × Channel × Bytes) := do
  let (outcome, receiver, buffer) ← self.currentMultiframeReceiver.accept header buffer maxFrameSize
      maxPayloadSize exceeded
  match outcome with
  | .incomplete n => return (some (.incomplete n), self.withReceiver receiver, buffer)
  | .fatal err => return (some (.fatal err), self.withReceiver receiver, buffer)
  | .success completedFrame =>
    let (outcome, self) := record (self.withReceiver receiver) completedFrame
    return (outcome, self, buffer)

theorem processRequestPl_eq (self : Channel) (m : MaxFrameSize) (header : Header) :
    self.processRequestPl m header =
      self.acceptWith m self.config.maxRequestPayloadSize.toNat .requestTooLarge
        (·.recordRequestPl header ·) header := rfl

theorem processResponsePl_eq (m : MaxFrameSize) (hid : header.id ∈ self.outgoingRequests) :
    self.processResponsePl m header =
      self.acceptWith m self.config.maxResponsePayloadSize.toNat .responseTooLarge
        (·.recordResponsePl header ·) header := by
  funext buffer
  unfold processResponsePl
  rw [if_neg (not_not.mpr hid)]
  rfl

theorem processResponsePl_unasked (m : MaxFrameSize) (hid : header.id ∉ self.outgoingRequests)
    (buffer : Bytes) :
    self.processResponsePl m header buffer =
      .ok (some (errMsg header .fictitiousRequest), self, buffer) := if_pos hid

theorem acceptWith_steps {kind : Kind} {max : Nat} {exceeded : ErrorKind}
    {record : Channel → CompletedFrame → Option ReadOutcome × Channel} (hv : self.Valid i)
    (hb : 4 ≤ buffer.length) (hrecord : ∀ frame receiver rest,
      Accepted max header buffer self.currentMultiframeReceiver (.success frame) receiver rest →
      ChannelStep header buffer self kind (record (self.withReceiver receiver) frame).1
        (record (self.withReceiver receiver) frame).2 rest) :
    StepsOn header self kind (self.acceptWith m max exceeded record header) buffer := by
  obtain ⟨o, s', b', ho, ha, hx⟩ :=
    MultiframeReceiver.accept_spec hv.receiver_open hb header m max exceeded
  unfold acceptWith StepsOn
  cases o with
  | incomplete n =>
    obtain ⟨rfl, rfl⟩ := ha.incomplete_inv
    simp only [ho, bind_ok, pure_eq_ok]
    exact ⟨_, _, _, rfl, .wait _ _, .inl ⟨_, rfl⟩⟩
  | fatal err =>
    obtain ⟨kind, rfl, rfl, rfl⟩ := ha.fatal_inv
    have hx' := hx.resolve_left (by simp)
    simp only [ho, hx' _, bind_ok, pure_eq_ok]
    exact ⟨_, _, _, rfl, .refuse _ kind, .inr fun _ => rfl⟩
  | success frame =>
    have hx' := hx.resolve_left (by simp)
    simp only [ho, hx' _, bind_ok, pure_eq_ok]
    exact ⟨_, _, _, rfl, hrecord frame s' b' ha, .inr fun _ => rfl⟩

theorem recordRequestPl_step {frame : CompletedFrame} {receiver : MultiframeReceiver} {rest : Bytes}
    (ha : Accepted self.config.maxRequestPayloadSize.toNat header buffer
      self.currentMultiframeReceiver (.success frame)
      receiver rest) :
    ChannelStep header buffer self .requestPl
    ((self.withReceiver receiver).recordRequestPl header frame).1
      ((self.withReceiver receiver).recordRequestPl header frame).2 rest := by
  unfold recordRequestPl
  cases hnew : frame.wasNew with
  | false =>
    simp only [Bool.false_eq_true, if_false]
    exact .requestPlMore frame receiver rest ha hnew
  | true =>
    simp only [if_true]
    by_cases hmax : (self.withReceiver receiver).isAtMaxIncomingRequests = true
    · simp only [hmax, if_true]
      exact .requestPlRefused frame receiver rest _ ha hnew
    · by_cases hdup : header.id ∈ self.incomingRequests
      · have hdup' : header.id ∈ (self.withReceiver receiver).incomingRequests := hdup
        simp only [hmax, hdup', if_true, Bool.false_eq_true, if_false]
        exact .requestPlRefused frame receiver rest _ ha hnew
      · have hdup' : header.id ∉ (self.withReceiver receiver).incomingRequests := hdup
        simp only [hmax, hdup', if_false, Bool.false_eq_true]
        refine .requestPlNew frame receiver rest ha hnew ?_ hdup
        simpa [isAtMaxIncomingRequests, withReceiver] using hmax

theorem recordResponsePl_step {frame : CompletedFrame} {receiver : MultiframeReceiver}
    {rest : Bytes} (hid : header.id ∈ self.outgoingRequests)
    (ha : Accepted self.config.maxResponsePayloadSize.toNat header buffer
      self.currentMultiframeReceiver (.success frame)
      receiver rest) :
    ChannelStep header buffer self .responsePl
    ((self.withReceiver receiver).recordResponsePl header frame).1
      ((self.withReceiver receiver).recordResponsePl header frame).2 rest := by
  have hstep := ChannelStep.responsePl frame receiver rest hid ha
  unfold recordResponsePl
  cases hp : frame.intoCompletedPayload with
  | none => simpa [completedAs, hp, withReceiver] using hstep
  | some payload => simpa [completedAs, hp, withReceiver] using hstep

theorem processRequestPl_steps (hv : self.Valid i) (hb : 4 ≤ buffer.length) :
    StepsOn header self .requestPl (self.processRequestPl m header) buffer := by
  rw [processRequestPl_eq]
  exact acceptWith_steps hv hb fun _ _ _ ha => recordRequestPl_step ha

theorem processResponsePl_steps (hv : self.Valid i) (hb : 4 ≤ buffer.length) :
    StepsOn header self .responsePl (self.processResponsePl m header) buffer := by
  by_cases hid : header.id ∈ self.outgoingRequests
  · rw [processResponsePl_eq m hid]
    exact acceptWith_steps hv hb fun _ _ _ ha => recordResponsePl_step hid ha
  · exact ⟨_, _, _, processResponsePl_unasked m hid buffer, .refuse _ _,
      .inr fun _ => processResponsePl_unasked m hid _⟩

/-- No arm panics on a valid channel, and each takes one of the listed steps. -/
theorem processKind_steps (hv : self.Valid i) (hb : 4 ≤ buffer.length) (header : Header)
    (m : MaxFrameSize) (kind : Kind) :
    StepsOn header self kind (self.processKind m kind header) buffer := by
  cases kind with
  | request => exact processRequest_steps hb
  | response => exact processResponse_steps hb
  | requestPl => exact processRequestPl_steps hv hb
  | responsePl => exact processResponsePl_steps hv hb
  | cancelReq => exact processCancelReq_steps hb
  | cancelResp => exact processCancelResp_steps hb

end Channel

end Juliet
