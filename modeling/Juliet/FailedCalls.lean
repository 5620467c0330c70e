import Juliet.ProtocolRuns

namespace Juliet

open Rust

/-- The calls that report a `LocalProtocolViolation`. -/
inductive CheckedCall
  | createRequest (channel : ChannelId) (payload : Option Bytes)
  | createResponse (channel : ChannelId) (id : Id) (payload : Option Bytes)
  | cancelRequest (channel : ChannelId) (id : Id)
  | cancelResponse (channel : ChannelId) (id : Id)
  | customError (channel : ChannelId) (id : Id) (payload : Bytes)

def CheckedCall.channel : CheckedCall → ChannelId
  | .createRequest channel _ => channel
  | .createResponse channel _ _ => channel
  | .cancelRequest channel _ => channel
  | .cancelResponse channel _ => channel
  | .customError channel _ _ => channel

namespace JulietProtocol

variable {N : Nat}

/-- What a call returns, with the state it leaves. -/
def checkedCall (self : JulietProtocol N) :
    CheckedCall →
    Checked (Except LocalProtocolViolation (Option OutgoingMessage) × JulietProtocol N)
  | .createRequest channel payload =>
    (self.createRequest channel payload).map fun (r, p) => (r.map some, p)
  | .createResponse channel id payload => .ok (self.createResponse channel id payload)
  | .cancelRequest channel id => .ok (self.cancelRequest channel id)
  | .cancelResponse channel id => .ok (self.cancelResponse channel id)
  | .customError channel id payload => .ok ((self.customError channel id payload).map some, self)

/-- The numbers of a violation fit the state it was reported in. -/
def Describes (self : JulietProtocol N) (channel : ChannelId) : LocalProtocolViolation → Prop
  | .wouldExceedRequestLimit limit =>
    ∃ i : Fin N, channel.get.toNat = i ∧ limit = (self.channels i).outgoingRequests.card
  | .invalidChannel channel channelCount => channelCount ≤ channel.get.toNat
  | .payloadExceedsLimit payloadLength limit => limit < payloadLength
  | .errorPayloadIsMultiFrame payloadLength maxFrameSize =>
    maxFrameSize = self.maxFrameSize.get ∧
      payloadIsMultiFrame self.maxFrameSize payloadLength = true

theorem lookupChannel_error {self : JulietProtocol N} {channel c : ChannelId}
    {violation : LocalProtocolViolation} (h : self.lookupChannel channel = .error violation) :
    self.Describes c violation := by
  unfold lookupChannel at h
  split at h
  next => simp at h
  next hge =>
    cases Except.error.inj h
    exact Nat.le_of_not_lt hge

theorem payload_exceeds {payload : Option Bytes} {limit : Nat}
    (h : (payload.any fun payload => payload.length > limit) = true) :
    limit < (payload.getD []).length := by
  cases payload with
  | none => simp at h
  | some pl => simpa using h

theorem createRequest_error {self p' : JulietProtocol N} {channel : ChannelId}
    {payload : Option Bytes} {violation : LocalProtocolViolation} (hv : self.Valid)
    (h : self.createRequest channel payload = .ok (.error violation, p')) :
    p' = self ∧ self.Describes channel violation := by
  unfold createRequest at h
  cases hl : self.lookupChannel channel with
  | error v =>
    simp only [hl] at h
    obtain ⟨hviolation, rfl⟩ := ok_pair h
    cases Except.error.inj hviolation
    exact ⟨rfl, lookupChannel_error hl⟩
  | ok i =>
    simp only [hl] at h
    split at h
    next hany =>
      obtain ⟨hviolation, rfl⟩ := ok_pair h
      cases Except.error.inj hviolation
      exact ⟨rfl, payload_exceeds hany⟩
    next =>
      split at h
      next hnot =>
        obtain ⟨hviolation, rfl⟩ := ok_pair h
        cases Except.error.inj hviolation
        have hfull : (self.channels i).config.requestLimit.toNat ≤
            (self.channels i).outgoingRequests.card := by
          simpa [Channel.allowedToSendRequest] using hnot
        have hle := (hv i).outgoing_le
        exact ⟨rfl, i, lookupChannel_ok hl, by omega⟩
      next =>
        obtain ⟨⟨msg, c⟩, _, h⟩ := bind_eq_ok.mp h
        simp at h

theorem cancelRequest_error {self : JulietProtocol N} {channel : ChannelId} {id : Id}
    {violation : LocalProtocolViolation}
    (h : (self.cancelRequest channel id).1 = .error violation) :
    self.Describes channel violation := by
  unfold cancelRequest at h
  cases hl : self.lookupChannel channel with
  | error v =>
    simp only [hl, Except.error.injEq] at h
    subst h
    exact lookupChannel_error hl
  | ok i =>
    simp only [hl] at h
    split at h <;> simp at h

theorem cancelResponse_error {self p' : JulietProtocol N} {channel : ChannelId} {id : Id}
    {violation : LocalProtocolViolation}
    (h : self.cancelResponse channel id = (.error violation, p')) :
    p' = self ∧ self.Describes channel violation := by
  unfold cancelResponse at h
  cases hl : self.lookupChannel channel with
  | error v =>
    simp only [hl, Prod.mk.injEq, Except.error.injEq] at h
    obtain ⟨rfl, rfl⟩ := h
    exact ⟨rfl, lookupChannel_error hl⟩
  | ok i =>
    simp only [hl] at h
    split at h <;> simp at h

theorem customError_error {self : JulietProtocol N} {channel c : ChannelId} {id : Id}
    {payload : Bytes} {violation : LocalProtocolViolation}
    (h : self.customError channel id payload = .error violation) :
    self.Describes c violation := by
  rcases self.customError_cases channel id payload with ⟨hmulti, hc⟩ | ⟨_, hc⟩
  · cases Except.error.inj (hc.symm.trans h)
    exact ⟨rfl, hmulti⟩
  · rw [hc] at h
    simp at h

/-- A response that is too long, to a request that is still open. -/
def Oversized (self : JulietProtocol N) : CheckedCall → Prop
  | .createResponse channel id payload => ∃ i : Fin N, channel.get.toNat = i ∧
      id ∈ (self.channels i).incomingRequests ∧
        ¬ PayloadWithin payload (self.channels i).config.maxResponsePayloadSize
  | _ => False

theorem createResponse_error {self p' : JulietProtocol N} {channel : ChannelId} {id : Id}
    {payload : Option Bytes} {violation : LocalProtocolViolation}
    (hok : ¬ self.Oversized (.createResponse channel id payload))
    (h : self.createResponse channel id payload = (.error violation, p')) :
    p' = self ∧ self.Describes channel violation := by
  cases hl : self.lookupChannel channel with
  | error v =>
    simp only [createResponse, hl, Prod.mk.injEq, Except.error.injEq] at h
    obtain ⟨rfl, rfl⟩ := h
    exact ⟨rfl, lookupChannel_error hl⟩
  | ok i =>
    by_cases hin : id ∈ (self.channels i).incomingRequests
    · have hw : PayloadWithin payload (self.channels i).config.maxResponsePayloadSize := by
        by_contra hw
        exact hok ⟨i, lookupChannel_ok hl, hin, hw⟩
      have hmsg := createResponse_within hl hin hw
      simp [h] at hmsg
    · simp [createResponse, hl, hin] at h

/-- The id of the request is gone although the response was refused. -/
theorem createResponse_oversized {self : JulietProtocol N} {channel : ChannelId} {id : Id}
    {payload : Option Bytes} (h : self.Oversized (.createResponse channel id payload)) :
    ∃ violation p', self.createResponse channel id payload = (.error violation, p') ∧
      p' ≠ self := by
  obtain ⟨i, hi, hin, hw⟩ := h
  have hl : self.lookupChannel channel = .ok i := lookupChannel_of hi
  have hany : (payload.any fun p =>
      p.length > (self.channels i).config.maxResponsePayloadSize.toNat) = true := by
    by_contra hnot
    exact hw (payloadWithin_of_not_any hnot)
  refine ⟨_, self.answered i id, by simp [createResponse, hl, hin, hany, answered]; rfl, ?_⟩
  intro he
  have hgone : id ∉ ((self.answered i id).channels i).incomingRequests := by simp [answered]
  rw [he] at hgone
  exact hgone hin

/-- A failed call leaves the state as it was and says why it failed, unless it is a response too
long for a request that is still open. -/
theorem failedCall_iff {p : JulietProtocol N} (hr : Reachable p) (call : CheckedCall) :
    (∀ violation p', p.checkedCall call = .ok (.error violation, p') → p' = p ∧
      p.Describes call.channel violation) ↔
      ¬ p.Oversized call := by
  constructor
  · intro hall hover
    cases call with
    | createResponse channel id payload =>
      obtain ⟨violation, p', hfail, hne⟩ := createResponse_oversized hover
      exact hne (hall violation p' (congrArg Except.ok hfail)).1
    | _ => exact hover
  · intro hok violation p' h
    cases call with
    | createRequest channel payload =>
      obtain ⟨r, p₁, hc⟩ := p.createRequest_total channel payload
      simp only [checkedCall, hc, Except.map] at h
      obtain ⟨hviolation, rfl⟩ := ok_pair h
      cases r with
      | ok msg => simp at hviolation
      | error v =>
        cases Except.error.inj hviolation
        exact createRequest_error hr.valid hc
    | createResponse channel id payload => exact createResponse_error hok (Except.ok.inj h)
    | cancelRequest channel id =>
      have hc : p.cancelRequest channel id = (.error violation, p') := Except.ok.inj h
      have hstate := p.cancelRequest_state channel id
      rw [hc] at hstate
      exact ⟨hstate, cancelRequest_error (congrArg Prod.fst hc)⟩
    | cancelResponse channel id => exact cancelResponse_error (Except.ok.inj h)
    | customError channel id payload =>
      obtain ⟨hviolation, rfl⟩ := ok_pair h
      cases hc : p.customError channel id payload with
      | ok msg => simp [hc, Except.map] at hviolation
      | error v =>
        rw [hc] at hviolation
        cases Except.error.inj hviolation
        exact ⟨rfl, customError_error hc⟩

/-- A request of nine bytes where eight are allowed. -/
theorem failedCall_iff_request :
    smallBuilder.build.checkedCall (.createRequest ⟨0⟩ (some (List.replicate 9 0))) =
        .ok (.error (.payloadExceedsLimit 9 8), smallBuilder.build) ∧
      smallBuilder.build.Describes ⟨0⟩ (.payloadExceedsLimit 9 8) := by
  have h : smallBuilder.build.checkedCall (.createRequest ⟨0⟩ (some (List.replicate 9 0))) =
      .ok (.error (.payloadExceedsLimit 9 8), smallBuilder.build) := rfl
  have hok : ¬ smallBuilder.build.Oversized (.createRequest ⟨0⟩ (some (List.replicate 9 0))) :=
    fun hover => hover
  exact ⟨h, ((failedCall_iff (.build smallBuilder) _).mpr hok _ _ h).2⟩

/-- One channel whose responses may be shorter than its requests. -/
def shortResponses : ProtocolBuilder 1 := ⟨fun _ => ⟨1, 8, 2⟩, .smallest⟩

/-- The response to the peer's request is refused as five bytes long where eight are allowed, and
the request is forgotten: a shorter response is not sent any more. -/
theorem refused_response_forgets : ∃ p p' : JulietProtocol 1, Reachable p ∧
    (p.channels 0).incomingRequests = {⟨1⟩} ∧
    p.checkedCall (.createResponse ⟨0⟩ ⟨1⟩ (some [1, 2, 3, 4, 5])) =
      .ok (.error (.payloadExceedsLimit 5 8), p') ∧
    ¬ p.Describes ⟨0⟩ (.payloadExceedsLimit 5 8) ∧ p' ≠ p ∧
    p'.checkedCall (.createResponse ⟨0⟩ ⟨1⟩ (some [1, 2])) = .ok (.ok none, p') := by
  have hr := @Reachable.processIncoming 1 _ _ (Header.new .request ⟨0⟩ ⟨1⟩).bytes _ _
    (.build shortResponses) rfl
  refine ⟨_, _, hr, rfl, rfl, by simp [Describes], ?_, rfl⟩
  intro he
  have hids := congrArg (fun p : JulietProtocol 1 => (p.channels 0).incomingRequests) he
  exact absurd hids (by decide)

end JulietProtocol

end Juliet
