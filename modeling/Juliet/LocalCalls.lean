import Juliet.FrameStep

namespace Juliet

open Rust

namespace Channel

theorem searchId_free {taken : Finset Id} {fuel : Nat} {candidate id : Id}
    (h : searchId taken fuel candidate = .ok id) : id ∉ taken := by
  induction fuel generalizing candidate with
  | zero => simp [searchId] at h
  | succ fuel ih =>
    simp only [searchId] at h
    split at h
    next => exact ih h
    next hn =>
      cases Except.ok.inj h
      exact hn

theorem card_lt_limit {self : Channel} (ha : self.allowedToSendRequest = true) :
    self.outgoingRequests.card < self.config.requestLimit.toNat := by
  simpa [allowedToSendRequest] using ha

/-- A channel that may send a request is below the exhaustion test. -/
theorem card_lt_of_allowed {self : Channel} (ha : self.allowedToSendRequest = true) :
    self.outgoingRequests.card < 2 ^ 16 - 1 := by
  have hl := self.config.requestLimit.toNat_lt
  have hc := card_lt_limit ha
  omega

/-- The id that the next request gets. -/
def Generates (self : Channel) (id : Id) : Prop :=
  searchId self.outgoingRequests (2 ^ 16) ⟨self.prevRequestId + 1⟩ = .ok id

theorem Generates.free {self : Channel} {id : Id} (h : self.Generates id) :
    id ∉ self.outgoingRequests :=
  searchId_free h

/-- The id `n + 1` places behind `get`, wrapping around. -/
theorem succ_add_ofNat (get : UInt16) (n : Nat) :
    get + 1 + UInt16.ofNat n = get + UInt16.ofNat (n + 1) := by
  rw [UInt16.add_assoc, UInt16.add_comm 1, UInt16.ofNat_add]
  rfl

theorem searchId_taken {taken : Finset Id} {fuel : Nat} {candidate : Id}
    (h : ∀ id, searchId taken fuel candidate ≠ .ok id) :
    ∀ n < fuel, ⟨candidate.get + UInt16.ofNat n⟩ ∈ taken := by
  induction fuel generalizing candidate with
  | zero => simp
  | succ fuel ih =>
    simp only [searchId] at h
    split at h
    next hm =>
      intro n hn
      cases n with
      | zero => simpa using hm
      | succ n =>
        have := ih h n (by omega)
        rwa [succ_add_ofNat] at this
    next => simp at h

/-- Ids that follow each other are different until all have been named. -/
theorem le_card_of_taken {taken : Finset Id} {get : UInt16} {k : Nat} (hk : k ≤ 2 ^ 16)
    (h : ∀ n < k, ⟨get + UInt16.ofNat n⟩ ∈ taken) : k ≤ taken.card := by
  have hsub : (Finset.range k).image (fun n => (⟨get + UInt16.ofNat n⟩ : Id)) ⊆ taken := by
    intro id hid
    obtain ⟨n, hn, rfl⟩ := Finset.mem_image.mp hid
    exact h n (Finset.mem_range.mp hn)
  have hcard := Finset.card_le_card hsub
  rwa [Finset.card_image_of_injOn, Finset.card_range] at hcard
  intro a ha b hb hab
  have ha := Finset.mem_range.mp (Finset.mem_coe.mp ha)
  have hb := Finset.mem_range.mp (Finset.mem_coe.mp hb)
  have he : UInt16.ofNat a = UInt16.ofNat b := by
    have := congrArg Id.get hab
    exact (UInt16.add_right_inj _).mp this
  have := congrArg UInt16.toNat he
  rwa [UInt16.toNat_ofNat_of_lt' (by omega : a < 2 ^ 16),
    UInt16.toNat_ofNat_of_lt' (by omega : b < 2 ^ 16)] at this

/-- While ids are left the search for one ends. -/
theorem exists_generates {self : Channel} (ha : self.allowedToSendRequest = true) :
    ∃ id, self.Generates id := by
  by_contra hnone
  have hcard := le_card_of_taken (le_refl _) (searchId_taken (not_exists.mp hnone))
  have hc := card_lt_of_allowed ha
  omega

/-- Below the request limit the id space is not exhausted. -/
theorem generateRequestId_spec {self c : Channel} {generated : Option Id}
    (ha : self.allowedToSendRequest = true) (h : self.generateRequestId = .ok (generated, c)) :
    ∃ id, generated = some id ∧ self.Generates id ∧ c = { self with prevRequestId := id.get } := by
  have hc := card_lt_of_allowed ha
  unfold generateRequestId at h
  rw [if_neg (by omega)] at h
  obtain ⟨id, hs, h⟩ := bind_eq_ok.mp h
  have he := Except.ok.inj h
  simp only [Prod.mk.injEq] at he
  exact ⟨id, he.1.symm, hs, he.2.symm⟩

/-- The channel after a request with the given id has been created on it. -/
def withRequest (self : Channel) (id : Id) : Channel :=
  { self with prevRequestId := id.get, outgoingRequests := insert id self.outgoingRequests }

/-- The message that carries a request. -/
def requestMessage (channel : ChannelId) (id : Id) (payload : Option Bytes) : OutgoingMessage :=
  OutgoingMessage.new (Header.new (if payload.isSome then .requestPl else .request) channel id)
    payload

@[simp]
theorem requestMessage_id (channel : ChannelId) (id : Id) (payload : Option Bytes) :
    (requestMessage channel id payload).header.id = id := by
  simp [requestMessage, OutgoingMessage.new]

@[simp]
theorem requestMessage_channel (channel : ChannelId) (id : Id) (payload : Option Bytes) :
    (requestMessage channel id payload).header.channel = channel := by
  simp [requestMessage, OutgoingMessage.new]

theorem createUncheckedRequest_spec {self c : Channel} {channel : ChannelId}
    {payload : Option Bytes} {msg : OutgoingMessage} (ha : self.allowedToSendRequest = true)
    (h : self.createUncheckedRequest channel payload = .ok (msg, c)) :
    ∃ id, self.Generates id ∧ msg = requestMessage channel id payload ∧
      c = self.withRequest id := by
  obtain ⟨⟨generated, c'⟩, hg, h⟩ := bind_eq_ok.mp h
  obtain ⟨id, rfl, hid, rfl⟩ := generateRequestId_spec ha hg
  cases payload with
  | none =>
    have he := Except.ok.inj h
    simp only [Prod.mk.injEq] at he
    exact ⟨id, hid, he.1.symm, he.2.symm⟩
  | some payload =>
    have he := Except.ok.inj h
    simp only [Prod.mk.injEq] at he
    exact ⟨id, hid, he.1.symm, he.2.symm⟩

theorem createUncheckedRequest_of {self : Channel} {id : Id} (ha : self.allowedToSendRequest = true)
    (hid : self.Generates id) (channel : ChannelId) (payload : Option Bytes) :
    self.createUncheckedRequest channel payload =
      .ok (requestMessage channel id payload, self.withRequest id) := by
  have hc := card_lt_of_allowed ha
  unfold Generates at hid
  unfold createUncheckedRequest generateRequestId
  rw [if_neg (by omega), hid]
  cases payload <;> rfl

theorem Valid.withRequest {self : Channel} {i : Nat} (hv : self.Valid i)
    (ha : self.allowedToSendRequest = true) (id : Id) : (self.withRequest id).Valid i where
  incoming_le := hv.incoming_le
  outgoing_le := (Finset.card_insert_le _ _).trans (card_lt_limit ha)
  allowance_le := hv.allowance_le
  transfer := hv.transfer

end Channel

namespace JulietProtocol

variable {N : Nat}

theorem lookupChannel_of {self : JulietProtocol N} {channel : ChannelId} {i : Fin N}
    (hi : channel.get.toNat = i) :
    self.lookupChannel channel = .ok i := by
  have hlt : channel.get.toNat < N := by
    rw [hi]
    exact i.isLt
  simp only [lookupChannel, hlt, dif_pos]
  exact congrArg Except.ok (Fin.ext hi)

theorem lookupChannel_ok {self : JulietProtocol N} {channel : ChannelId} {i : Fin N}
    (h : self.lookupChannel channel = .ok i) : channel.get.toNat = i := by
  unfold lookupChannel at h
  split at h
  next => cases Except.ok.inj h; rfl
  next => simp at h

/-- A payload within a limit; no payload at all is within every limit. -/
def PayloadWithin (payload : Option Bytes) (limit : UInt32) : Prop :=
  ∀ p ∈ payload, p.length ≤ limit.toNat

theorem payloadWithin_of_not_any {payload : Option Bytes} {limit : UInt32}
    (h : ¬ (payload.any fun p => p.length > limit.toNat) = true) : PayloadWithin payload limit := by
  intro p hp
  cases payload with
  | none => simp at hp
  | some q =>
    cases Option.mem_some_iff.mp hp
    simpa using h

/-- What a call of `create_request` that returns can do. -/
theorem createRequest_cases {self p' : JulietProtocol N} {channel : ChannelId}
    {payload : Option Bytes} {r : Except LocalProtocolViolation OutgoingMessage}
    (h : self.createRequest channel payload = .ok (r, p')) :
    (∃ violation, r = .error violation ∧ p' = self) ∨
      ∃ i id, self.lookupChannel channel = .ok i ∧ (self.channels i).allowedToSendRequest = true ∧
        PayloadWithin payload (self.channels i).config.maxRequestPayloadSize ∧
        (self.channels i).Generates id ∧ r = .ok (Channel.requestMessage channel id payload) ∧
        p' = self.setChannel i ((self.channels i).withRequest id) := by
  unfold createRequest at h
  cases hl : self.lookupChannel channel with
  | error violation =>
    simp only [hl, Except.ok.injEq, Prod.mk.injEq] at h
    exact .inl ⟨violation, h.1.symm, h.2.symm⟩
  | ok i =>
    simp only [hl] at h
    split at h
    next =>
      simp only [Except.ok.injEq, Prod.mk.injEq] at h
      exact .inl ⟨_, h.1.symm, h.2.symm⟩
    next hp =>
      split at h
      next =>
        simp only [Except.ok.injEq, Prod.mk.injEq] at h
        exact .inl ⟨_, h.1.symm, h.2.symm⟩
      next ha =>
        have ha' : (self.channels i).allowedToSendRequest = true := by simpa using ha
        obtain ⟨⟨msg, c⟩, hm, h⟩ := bind_eq_ok.mp h
        obtain ⟨id, hid, rfl, rfl⟩ := Channel.createUncheckedRequest_spec ha' hm
        have he := Except.ok.inj h
        simp only [Prod.mk.injEq] at he
        exact .inr ⟨i, id, rfl, ha', payloadWithin_of_not_any hp, hid, he.1.symm, he.2.symm⟩

/-- A call of `create_request` returns. -/
theorem createRequest_total (self : JulietProtocol N) (channel : ChannelId)
    (payload : Option Bytes) :
    ∃ r p', self.createRequest channel payload = .ok (r, p') := by
  unfold createRequest
  split
  next violation _ => exact ⟨_, _, rfl⟩
  next i _ =>
    dsimp only
    split
    next => exact ⟨_, _, rfl⟩
    next =>
      split
      next => exact ⟨_, _, rfl⟩
      next ha =>
        have ha' : (self.channels i).allowedToSendRequest = true := by simpa using ha
        obtain ⟨id, hid⟩ := Channel.exists_generates ha'
        rw [Channel.createUncheckedRequest_of ha' hid]
        exact ⟨_, _, rfl⟩

theorem createRequest_of {self : JulietProtocol N} {channel : ChannelId} {i : Fin N} {id : Id}
    {payload : Option Bytes} (hi : channel.get.toNat = i)
    (ha : (self.channels i).allowedToSendRequest = true)
    (hw : PayloadWithin payload (self.channels i).config.maxRequestPayloadSize)
    (hid : (self.channels i).Generates id) :
    self.createRequest channel payload =
      .ok (.ok (Channel.requestMessage channel id payload),
        self.setChannel i ((self.channels i).withRequest id)) := by
  have hany : (payload.any fun p =>
      p.length > (self.channels i).config.maxRequestPayloadSize.toNat) = false := by
    cases payload with
    | none => rfl
    | some pl =>
      have := hw pl rfl
      simpa using this
  simp only [createRequest, lookupChannel_of hi, hany, ha, Channel.createUncheckedRequest_of ha hid,
    Bool.not_true, Bool.false_eq_true, if_false]
  rfl

/-- The channel after the answer to a request has been created. -/
def answered (self : JulietProtocol N) (i : Fin N) (id : Id) : JulietProtocol N :=
  self.setChannel i
    { self.channels i with incomingRequests := (self.channels i).incomingRequests.erase id }

@[simp]
theorem answered_outgoing (self : JulietProtocol N) (i j : Fin N) (id : Id) :
    ((self.answered i id).channels j).outgoingRequests = (self.channels j).outgoingRequests :=
  setChannel_field Channel.outgoingRequests (by rfl) j

/-- What a call of `create_response` can do. -/
theorem createResponse_cases (self : JulietProtocol N) (channel : ChannelId) (id : Id)
    (payload : Option Bytes) :
    (∃ violation, self.createResponse channel id payload = (.error violation, self)) ∨
    (∃ i, self.lookupChannel channel = .ok i ∧ id ∉ (self.channels i).incomingRequests ∧
      self.createResponse channel id payload = (.ok none, self)) ∨
    ∃ i, self.lookupChannel channel = .ok i ∧ id ∈ (self.channels i).incomingRequests ∧
      ((∃ violation, self.createResponse channel id payload =
        (.error violation, self.answered i id)) ∨
        PayloadWithin payload (self.channels i).config.maxResponsePayloadSize ∧
        self.createResponse channel id payload =
          (.ok (some (createUncheckedResponse channel id payload)), self.answered i id)) := by
  unfold createResponse
  cases hl : self.lookupChannel channel with
  | error violation => exact .inl ⟨violation, rfl⟩
  | ok i =>
    dsimp only
    split
    next hid => exact .inr (.inl ⟨i, rfl, hid, rfl⟩)
    next hid =>
      refine .inr (.inr ⟨i, rfl, by simpa using hid, ?_⟩)
      split
      next => exact .inl ⟨_, rfl⟩
      next hp => exact .inr ⟨payloadWithin_of_not_any hp, rfl⟩

/-- A response to a registered request is created if its payload is within the limit. -/
theorem createResponse_within {self : JulietProtocol N} {channel : ChannelId} {id : Id}
    {payload : Option Bytes} {i : Fin N} (hl : self.lookupChannel channel = .ok i)
    (hin : id ∈ (self.channels i).incomingRequests)
    (hw : PayloadWithin payload (self.channels i).config.maxResponsePayloadSize) :
    (self.createResponse channel id payload).1 =
      .ok (some (createUncheckedResponse channel id payload)) := by
  have hnone : (payload.any
      fun p => p.length > (self.channels i).config.maxResponsePayloadSize.toNat) = false := by
    cases payload with
    | none => rfl
    | some p => simpa using hw p rfl
  simp [createResponse, hl, hin, hnone]

theorem cancelRequest_state (self : JulietProtocol N) (channel : ChannelId) (id : Id) :
    (self.cancelRequest channel id).2 = self := by
  unfold cancelRequest
  cases self.lookupChannel channel with
  | error violation => rfl
  | ok i =>
    dsimp only
    split <;> rfl

/-- What a call of `cancel_request` that returns a message has found. -/
theorem cancelRequest_some {self : JulietProtocol N} {channel : ChannelId} {id : Id}
    {msg : OutgoingMessage} (h : (self.cancelRequest channel id).1 = .ok (some msg)) :
    ∃ i, self.lookupChannel channel = .ok i ∧ id ∈ (self.channels i).outgoingRequests ∧
      msg = createUncheckedRequestCancellation channel id := by
  unfold cancelRequest at h
  cases hl : self.lookupChannel channel with
  | error violation => simp [hl] at h
  | ok i =>
    simp only [hl] at h
    split at h
    next => simp at h
    next hid =>
      simp only [Except.ok.injEq, Option.some.injEq] at h
      exact ⟨i, rfl, by simpa using hid, h.symm⟩

/-- What a call of `cancel_response` can do. -/
theorem cancelResponse_cases (self : JulietProtocol N) (channel : ChannelId) (id : Id) :
    (∃ violation, self.cancelResponse channel id = (.error violation, self)) ∨
    (self.cancelResponse channel id = (.ok none, self)) ∨
    ∃ i, self.lookupChannel channel = .ok i ∧ id ∈ (self.channels i).incomingRequests ∧
      self.cancelResponse channel id =
        (.ok (some (createUncheckedResponseCancellation channel id)), self.answered i id) := by
  unfold cancelResponse
  cases hl : self.lookupChannel channel with
  | error violation => exact .inl ⟨violation, rfl⟩
  | ok i =>
    dsimp only
    split
    next => exact .inr (.inl rfl)
    next hid => exact .inr (.inr ⟨i, rfl, by simpa using hid, rfl⟩)

/-- Errors that do not fit into one frame are refused. -/
theorem customError_cases (self : JulietProtocol N) (channel : ChannelId) (id : Id)
    (payload : Bytes) :
    payloadIsMultiFrame self.maxFrameSize payload.length = true ∧
        self.customError channel id payload =
          .error (.errorPayloadIsMultiFrame payload.length self.maxFrameSize.get) ∨
      payloadIsMultiFrame self.maxFrameSize payload.length = false ∧
        self.customError channel id payload =
          .ok (OutgoingMessage.new (Header.newError .other channel id) (some payload)) := by
  cases hm : payloadIsMultiFrame self.maxFrameSize payload.length with
  | true => exact .inl ⟨rfl, if_pos hm⟩
  | false => exact .inr ⟨rfl,
    if_neg (by simp [OutgoingMessage.new, OutgoingMessage.isMultiFrame, hm])⟩

theorem Valid.createRequest {self p' : JulietProtocol N} {channel : ChannelId}
    {payload : Option Bytes} {r : Except LocalProtocolViolation OutgoingMessage} (hv : self.Valid)
    (h : self.createRequest channel payload = .ok (r, p')) : p'.Valid := by
  rcases createRequest_cases h with ⟨_, _, rfl⟩ | ⟨i, id, _, ha, _, _, _, rfl⟩
  · exact hv
  · exact hv.setChannel ((hv i).withRequest ha id)

theorem Valid.answered {self : JulietProtocol N} (hv : self.Valid) (i : Fin N) (id : Id) :
    (self.answered i id).Valid := hv.setChannel ((hv i).releaseIncoming id)

theorem Valid.createResponse {self : JulietProtocol N} (hv : self.Valid) (channel : ChannelId)
    (id : Id) (payload : Option Bytes) : (self.createResponse channel id payload).2.Valid := by
  rcases self.createResponse_cases channel id payload with
    ⟨_, h⟩ | ⟨_, _, _, h⟩ | ⟨i, _, _, ⟨_, h⟩ | ⟨_, h⟩⟩ <;> rw [h]
  · exact hv
  · exact hv
  · exact hv.answered i id
  · exact hv.answered i id

theorem Valid.cancelResponse {self : JulietProtocol N} (hv : self.Valid) (channel : ChannelId)
    (id : Id) :
    (self.cancelResponse channel id).2.Valid := by
  rcases self.cancelResponse_cases channel id with ⟨_, h⟩ | h | ⟨i, _, _, h⟩ <;> rw [h]
  · exact hv
  · exact hv
  · exact hv.answered i id

end JulietProtocol

end Juliet
