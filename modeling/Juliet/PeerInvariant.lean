import Juliet.PeerNet

namespace Juliet

open Rust Incremental

/-- The transfer that is open on a channel when the given message has been received in part. -/
def openOn (begun : Option FrameIter) (i : Nat) : MultiframeReceiver :=
  match begun with
  | some it => if it.header.channel.get.toNat = i then it.transfer else .ready
  | none => .ready

/-- Taking the first frame off what is in flight. -/
inductive Front (m : MaxFrameSize) :
    Option FrameIter → List OutgoingMessage → FrameIter → Option FrameIter →
    List OutgoingMessage → Prop
  | begun (it : FrameIter) (msgs : List OutgoingMessage) : 0 < it.bytesProcessed →
      it.bytesProcessed < it.msg.payloadLen → Front m (some it) msgs it (it.nextOwned m).2 msgs
  | fresh (msg : OutgoingMessage) (msgs : List OutgoingMessage) :
      Front m none (msg :: msgs) msg.frames (msg.frames.nextOwned m).2 msgs

namespace Front

variable {m : MaxFrameSize} {begun begun' : Option FrameIter} {msgs msgs' : List OutgoingMessage}
  {it : FrameIter}

theorem inFlight (h : Front m begun msgs it begun' msgs') :
    inFlight m begun msgs = it :: Juliet.inFlight m begun' msgs' := by
  cases h with
  | begun _ _ _ => exact inFlight_some _
  | fresh _ _ => exact inFlight_none _

theorem rest (h : Front m begun msgs it begun' msgs') : begun' = (it.nextOwned m).2 := by
  cases h <;> rfl

theorem more (h : Front m begun msgs it begun' msgs') :
    0 < it.bytesProcessed → it.bytesProcessed < it.msg.payloadLen := by
  cases h with
  | begun _ _ _ hlt => exact fun _ => hlt
  | fresh _ _ => exact fun h => absurd h (by simp [OutgoingMessage.frames])

/-- The receiver expects the first frame, and the rest afterwards. -/
theorem passOver (h : Front m begun msgs it begun' msgs') {i : Nat}
    (hi : it.header.channel.get.toNat = i) :
    it.passOver m (openOn begun i) = some (openOn begun' i) := by
  have hopen : ∀ it', (it.nextOwned m).2 = some it' → openOn (some it') i = it'.transfer := by
    intro it' hn
    rw [openOn, (FrameIter.nextOwned_some hn).2.1, if_pos hi]
  cases h with
  | begun _ _ hpos _ =>
    rw [FrameIter.passOver, if_neg (by omega), openOn, if_pos hi, if_pos rfl]
    cases hn : (it.nextOwned m).2 with
    | none => rfl
    | some it' => simp only [hopen it' hn]
  | fresh msg msgs =>
    rw [FrameIter.passOver, if_pos (show msg.frames.bytesProcessed = 0 from rfl)]
    cases hn : (msg.frames.nextOwned m).2 with
    | none => rfl
    | some it' =>
      simp only [hopen it' hn]
      rfl

theorem other (h : Front m begun msgs it begun' msgs') {j : Nat}
    (hj : it.header.channel.get.toNat ≠ j) :
    openOn begun' j = openOn begun j := by
  have hopen : openOn (it.nextOwned m).2 j = .ready := by
    cases hn : (it.nextOwned m).2 with
    | none => rfl
    | some it' => rw [openOn, (FrameIter.nextOwned_some hn).2.1, if_neg hj]
  cases h with
  | begun _ _ _ _ => rw [hopen, openOn, if_neg hj]
  | fresh _ _ => rw [hopen, openOn]

theorem messages (h : Front m begun msgs it begun' msgs') :
    begun.toList.map (·.msg) ++ msgs = it.msg :: msgs' := by
  cases h <;> rfl

theorem start (h : Front m begun msgs it begun' msgs') (h0 : it.bytesProcessed = 0) :
    begun = none ∧ msgs = it.msg :: msgs' := by
  cases h with
  | begun _ _ hpos _ => omega
  | fresh _ _ => exact ⟨rfl, rfl⟩

theorem later (h : Front m begun msgs it begun' msgs') (hpos : 0 < it.bytesProcessed) :
    begun = some it ∧ msgs' = msgs := by
  cases h with
  | begun _ _ _ _ => exact ⟨rfl, rfl⟩
  | fresh _ _ => exact absurd hpos (by simp [OutgoingMessage.frames])

theorem openOn_later (h : Front m begun msgs it begun' msgs') (hpos : 0 < it.bytesProcessed)
    {i : Nat} (hi : it.header.channel.get.toNat = i) :
    (openOn begun i).inProgressHeader = some it.header := by
  rw [(h.later hpos).1]
  simp [openOn, hi, FrameIter.transfer, Nat.pos_iff_ne_zero.mp hpos,
    MultiframeReceiver.inProgressHeader]

end Front

def Peer.uncancelled {N : Nat} (peer : Peer N) (i : Fin N) : Finset Id :=
  (peer.protocol.channels i).outgoingRequests.filter fun id => ((i : Nat), id) ∉ peer.cancelled

/-- What is in flight in one direction, as the receiving end is going to see it. -/
structure Link {N : Nat} (builder : ProtocolBuilder N) (sender receiver : Peer N)
    (begun : Option FrameIter) (msgs : List OutgoingMessage) : Prop where
  bytes : receiver.buffer ++ sender.stream =
    ((inFlight builder.maxFrameSize begun msgs).map (·.emit builder.maxFrameSize)).flatten
  sent : ∃ done, sender.sent = done ++ (begun.toList.map (·.msg) ++ msgs)
  started : ∀ it ∈ begun, 0 < it.bytesProcessed ∧ it.bytesProcessed < it.msg.payloadLen ∧
    ∃ before, before ≠ [] ∧ it.msg.frames.remaining builder.maxFrameSize =
      before ++ it.remaining builder.maxFrameSize
  sendable : ∀ msg ∈ begun.toList.map (·.msg) ++ msgs,
    ∃ (i : Fin N) (channel : ChannelId) (id : Id) (kind : Kind),
    channel.get.toNat = i ∧ Sendable (builder.channelConfig i) channel id kind msg
  receiving : ∀ i : Fin N, (receiver.protocol.channels i).currentMultiframeReceiver = openOn begun i
  allowance : ∀ i : Fin N, ∃ v, spend (builder.channelConfig i).requestLimit.toNat i
    (receiver.protocol.channels i).cancellationAllowance msgs = some v ∧
      (sender.uncancelled i).card ≤ v

/-- The state of two sides that follow the protocol. -/
structure NetInv {N : Nat} (builder : ProtocolBuilder N) (s : Net N)
    (begun : Bool → Option FrameIter) (msgs : Bool → List OutgoingMessage) : Prop where
  ok : ∀ x, (s x).failed = false
  valid : ∀ x, (s x).protocol.Valid
  config : ∀ x i, ((s x).protocol.channels i).config = builder.channelConfig i
  frameSize : ∀ x, (s x).protocol.maxFrameSize = builder.maxFrameSize
  link : ∀ x, Link builder (s x) (s !x) (begun x) (msgs x)
  balanced : ∀ x (i : Fin N), Balanced i ((s x).protocol.channels i) ((s !x).protocol.channels i)
    (inFlight builder.maxFrameSize (begun x) (msgs x))
      (inFlight builder.maxFrameSize (begun !x) (msgs !x))

section

variable {N : Nat} {builder : ProtocolBuilder N} {s : Net N} {begun : Bool → Option FrameIter}
  {msgs : Bool → List OutgoingMessage}

theorem Link.front {sender receiver : Peer N} {begun : Option FrameIter}
    {msgs : List OutgoingMessage} (h : Link builder sender receiver begun msgs) :
    inFlight builder.maxFrameSize begun msgs = [] ∨
      ∃ it begun' msgs', Front builder.maxFrameSize begun msgs it begun' msgs' := by
  cases begun with
  | some it =>
    obtain ⟨hpos, hlt, _⟩ := h.started it rfl
    exact .inr ⟨_, _, _, .begun it msgs hpos hlt⟩
  | none =>
    cases msgs with
    | nil => exact .inl rfl
    | cons msg msgs => exact .inr ⟨_, _, _, .fresh msg msgs⟩

theorem netInv_start :
    NetInv builder (fun _ => Peer.new builder) (fun _ => none) (fun _ => []) where
  ok _ := rfl
  valid _ := JulietProtocol.build_valid builder
  config _ _ := rfl
  frameSize _ := rfl
  link _ :=
    { bytes := rfl
      sent := ⟨[], rfl⟩
      started := by simp
      sendable := by simp
      receiving := fun _ => rfl
      allowance := fun _ => ⟨_,
        rfl, by simp [Peer.uncancelled, Peer.new, ProtocolBuilder.build, Channel.new]⟩ }
  balanced _ i := by
    simp [Balanced, Peer.new, ProtocolBuilder.build, Channel.new, inFlight,
      MultiframeReceiver.answer]

theorem NetInv.toward (h : NetInv builder s begun msgs) (x : Bool) :
    Link builder (s !x) (s x) (begun !x) (msgs !x) := by
  simpa using h.link (!x)

theorem NetInv.balanced_toward (h : NetInv builder s begun msgs) (x : Bool) (i : Fin N) :
    Balanced i ((s !x).protocol.channels i) ((s x).protocol.channels i)
      (inFlight builder.maxFrameSize (begun !x) (msgs !x))
        (inFlight builder.maxFrameSize (begun x) (msgs x)) := by
  simpa using h.balanced (!x) i

/-- The next frame that reaches a side is one that its channel admits. -/
theorem NetInv.admits (h : NetInv builder s begun msgs) (x : Bool) {it : FrameIter}
    {begun' : Option FrameIter} {msgs' : List OutgoingMessage}
    (hf : Front builder.maxFrameSize (begun !x) (msgs !x) it begun' msgs') :
    ∃ (i : Fin N) (channel : ChannelId) (id : Id) (kind : Kind), channel.get.toNat = i ∧
      Sendable (builder.channelConfig i) channel id kind it.msg ∧
      ((s x).protocol.channels i).Admits kind id it := by
  have hl := h.toward x
  obtain ⟨i, channel, id, kind, hi, hs⟩ := hl.sendable it.msg (by simp [hf.messages])
  refine ⟨i, channel, id, kind, hi, hs, ?_⟩
  have hhd : it.header = Header.new kind channel id := hs.header
  have hch : it.header.channel.get.toNat = i := by rw [hhd, Header.new_channel, hi]
  have hab := h.balanced_toward x i
  have hba := h.balanced x i
  rw [hf.inFlight] at hab hba
  have hrec := hl.receiving i
  have hready : it.bytesProcessed = 0 → ((s x).protocol.channels i).currentMultiframeReceiver =
      .ready := by
    intro h0
    rw [hrec, (hf.start h0).1]
    rfl
  have hstart : it.bytesProcessed = 0 → it.startsOn i = true :=
    fun h0 => by simp [FrameIter.startsOn, h0, hch]
  constructor
  · intro hk h0
    have hout := (h.valid (!x) i).outgoing_le
    rw [h.config] at hout
    have hfresh := hab.fresh (hstart h0) (by simp [hhd, Kind.isRequest_iff.mpr hk]) hout
    rw [h.config]
    simpa [hhd] using hfresh
  · intro hk
    have hans : it.header.isAnswer = true := by simp [hhd, Kind.isAnswer_iff.mpr hk]
    have hid : it.header.id = id := by simp [hhd]
    rw [← hid]
    rcases Nat.eq_zero_or_pos it.bytesProcessed with h0 | hpos
    · exact hba.asked_start (hstart h0) hans
    · refine hba.asked_later ?_ hans
      rw [hrec]
      exact hf.openOn_later hpos hch
  · rintro rfl
    obtain ⟨h0, _⟩ := Channel.Sendable.payload_none hs (by simp) (by simp)
    refine ⟨?_, by simp [hready h0, MultiframeReceiver.inProgressHeader]⟩
    obtain ⟨v, hv, _⟩ := hl.allowance i
    have hm : it.msg.header = Header.new .cancelReq channel id := hhd
    rw [(hf.start h0).2, spend, hm, Header.new_channel, if_pos hi,
      if_neg (by simp [Kind.isRequest]), if_pos (by simp)] at hv
    split at hv
    next => simp at hv
    next hne => exact Nat.pos_of_ne_zero hne
  · intro h0
    simp [hready h0, MultiframeReceiver.inProgressHeader]

theorem spend_other {limit j v : Nat} {msg : OutgoingMessage} {msgs : List OutgoingMessage}
    (hj : msg.header.channel.get.toNat ≠ j) :
    spend limit j v (msg :: msgs) = spend limit j v msgs := by
  rw [spend, if_neg hj]

/-- Receiving the first frame in flight leaves the rest in flight. -/
theorem Link.deliver {sender receiver : Peer N} {begun begun' : Option FrameIter}
    {msgs msgs' : List OutgoingMessage} {it : FrameIter}
    (hl : Link builder sender receiver begun msgs)
    (hf : Front builder.maxFrameSize begun msgs it begun' msgs') {i : Fin N} {channel : ChannelId}
    {id : Id} {kind : Kind} (hi : channel.get.toNat = i)
    (hs : Sendable (receiver.protocol.channels i).config channel id kind it.msg)
    (hc : (receiver.protocol.channels i).config = builder.channelConfig i)
    (hv : (receiver.protocol.channels i).Valid i) {b : Bytes}
    (hb : receiver.buffer = it.emit builder.maxFrameSize ++ b) :
    Link builder sender
      { receiver with
        protocol := receiver.protocol.setChannel i
          ((receiver.protocol.channels i).deliver builder.maxFrameSize kind channel id it
            (openOn begun' i)).2
        buffer := b } begun' msgs' := by
  have hhd : it.header = Header.new kind channel id := hs.header
  have hch : it.header.channel.get.toNat = i := by rw [hhd, Header.new_channel, hi]
  have hpass := hf.passOver hch
  rw [← hl.receiving i] at hpass
  constructor
  · have hbytes := hl.bytes
    rw [hb, hf.inFlight, List.map_cons, List.flatten_cons, List.append_assoc] at hbytes
    exact List.append_cancel_left hbytes
  · obtain ⟨done, hdone⟩ := hl.sent
    rw [hf.messages] at hdone
    rw [hf.rest]
    cases hn : (it.nextOwned builder.maxFrameSize).2 with
    | none => exact ⟨done ++ [it.msg], by simpa using hdone⟩
    | some it' => exact ⟨done, by simpa [(FrameIter.nextOwned_some hn).1] using hdone⟩
  · rw [hf.rest]
    intro it' hn
    obtain ⟨hmsg, _, hlt, hle⟩ := FrameIter.nextOwned_some hn
    refine ⟨by omega, hle, ?_⟩
    rw [hmsg]
    rcases Nat.eq_zero_or_pos it.bytesProcessed with h0 | hpos
    · have hit : it.msg.frames = it := FrameIter.ext rfl h0.symm
      exact ⟨[it], by simp, by rw [hit, FrameIter.remaining_of_some hn]; rfl⟩
    · obtain ⟨_, _, before, _, hbefore⟩ := hl.started it (hf.later hpos).1
      exact ⟨before ++ [it], by simp, by rw [hbefore, FrameIter.remaining_of_some hn]; simp⟩
  · intro msg hmsg
    apply hl.sendable msg
    rw [hf.messages]
    rw [hf.rest] at hmsg
    cases hn : (it.nextOwned builder.maxFrameSize).2 with
    | none =>
      simp only [hn, Option.toList_none, List.map_nil, List.nil_append] at hmsg
      exact List.mem_cons_of_mem _ hmsg
    | some it' => simpa [hn, (FrameIter.nextOwned_some hn).1] using hmsg
  · intro j
    by_cases hj : j = i
    · subst hj
      simpa using Channel.deliver_receiver hs hpass
    · have hne : it.header.channel.get.toNat ≠ j := fun he => hj (Fin.ext (he.symm.trans hch))
      simp only [ne_eq, hj, not_false_eq_true, JulietProtocol.setChannel_of_ne]
      rw [hl.receiving j, hf.other hne]
  · intro j
    obtain ⟨v, hspend, hcard⟩ := hl.allowance j
    refine ⟨v, ?_, hcard⟩
    by_cases hj : j = i
    · subst hj
      simp only [JulietProtocol.setChannel_self]
      rw [Channel.deliver_allowance hs hv.allowance_le]
      rcases Nat.eq_zero_or_pos it.bytesProcessed with h0 | hpos
      · have hm : it.msg.header = Header.new kind channel id := hhd
        rw [(hf.start h0).2, spend, hm, Header.new_channel, if_pos hi, Header.new_isRequest,
          Header.new_kind] at hspend
        simp only [h0, and_true, Except.ok.injEq, hc] at hspend ⊢
        by_cases hk : kind.isRequest = true
        · rw [if_pos hk] at hspend ⊢
          exact hspend
        · rw [if_neg hk] at hspend ⊢
          by_cases hcancel : kind = .cancelReq
          · rw [if_pos hcancel] at hspend ⊢
            split at hspend
            next => simp at hspend
            next => exact hspend
          · rw [if_neg hcancel] at hspend ⊢
            exact hspend
      · have hcancel : kind ≠ .cancelReq := by
          rintro rfl
          have := (Channel.Sendable.payload_none hs (by simp) (by simp)).1
          omega
        rw [if_neg (fun hk => by omega), if_neg hcancel, (hf.later hpos).2]
        exact hspend
    · have hne : it.msg.header.channel.get.toNat ≠ j := fun he => hj (Fin.ext (he.symm.trans hch))
      simp only [ne_eq, hj, not_false_eq_true, JulietProtocol.setChannel_of_ne]
      rcases Nat.eq_zero_or_pos it.bytesProcessed with h0 | hpos
      · rw [(hf.start h0).2, spend_other hne] at hspend
        exact hspend
      · rw [(hf.later hpos).2]
        exact hspend

end

end Juliet
