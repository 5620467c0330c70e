import Juliet.Balance
import Juliet.Isolation
import Juliet.Refusals
import Juliet.ToBytes

namespace Juliet

open Rust OutgoingMessage

/-- The read that a message of a kind turns into at its receiver. -/
def Kind.readOf (channel : ChannelId) (id : Id) (payload : Option Bytes) : Kind → CompletedRead
  | .request | .requestPl => .newRequest channel id payload
  | .response | .responsePl => .receivedResponse channel id payload
  | .cancelReq => .requestCancellation channel id
  | .cancelResp => .responseCancellation channel id

/-- The read that a message is meant to turn into. -/
def OutgoingMessage.asRead (msg : OutgoingMessage) : Option CompletedRead :=
  if msg.header.isError then some (.errorReceived msg.header msg.payload)
  else msg.header.kind.toOption.map (Kind.readOf msg.header.channel msg.header.id msg.payload)

/-- What a receiver has to be like for a message of the kind to arrive. -/
structure Channel.Welcomes (chan : Channel) (kind : Kind) (id : Id) : Prop where
  ready : chan.currentMultiframeReceiver = .ready
  fresh : kind.isRequest = true → id ∉ chan.incomingRequests ∧
    chan.incomingRequests.card < chan.config.requestLimit.toNat
  asked : kind.isAnswer = true → id ∈ chan.outgoingRequests
  pending : kind = .cancelReq → id ∈ chan.incomingRequests ∧ 0 < chan.cancellationAllowance

theorem Channel.Welcomes.admits {chan : Channel} {kind : Kind} {id : Id} (h : chan.Welcomes kind id)
    (msg : OutgoingMessage) :
    chan.Admits kind id msg.frames where
  fresh := fun hk _ => h.fresh (Kind.isRequest_iff.mpr hk)
  asked := fun hk => h.asked (Kind.isAnswer_iff.mpr hk)
  allowed := by
    intro hk
    refine ⟨(h.pending hk).2, ?_⟩
    simp [h.ready, MultiframeReceiver.inProgressHeader]
  apart := by
    intro _
    simp [h.ready, MultiframeReceiver.inProgressHeader]

namespace JulietProtocol

variable {N : Nat}

section transfer

variable {i : Fin N} {kind : Kind} {channel : ChannelId} {id : Id}

/-- The last frame of a message is read as the message. -/
theorem deliver_read {self : Channel} {m : MaxFrameSize} {it : FrameIter}
    {receiver : MultiframeReceiver} (hs : Sendable self.config channel id kind it.msg)
    (hin : kind = .cancelReq → id ∈ self.incomingRequests) (hlast : (it.nextOwned m).2 = none) :
    (self.deliver m kind channel id it receiver).1 =
      some (kind.readOf channel id it.msg.payload) := by
  generalize hmsg : it.msg = msg at hs
  cases hs with
  | request | response | cancelResp => rfl
  | cancelReq => simp [Channel.deliver, hin rfl, Kind.readOf]
  | requestPl | responsePl => simp [Channel.deliver, hlast, hmsg, Kind.readOf]

theorem deliver_pending {self : Channel} {m : MaxFrameSize} {it it' : FrameIter}
    {receiver : MultiframeReceiver} (hs : Sendable self.config channel id kind it.msg)
    (hnext : (it.nextOwned m).2 = some it') :
    (self.deliver m kind channel id it receiver).1 = none := by
  obtain ⟨pl, hpl, _⟩ := FrameIter.nextOwned_some_iff.mp hnext
  generalize it.msg = msg at hs hpl
  cases hs with
  | request | response | cancelResp | cancelReq => simp at hpl
  | requestPl | responsePl => simp [Channel.deliver, hnext]

/-- The frames of a message, from the one that the receiver expects on. -/
theorem processIncoming_frames {p : JulietProtocol N} {it : FrameIter} (hv : p.Valid)
    (hi : channel.get.toNat = i) (hs : Sendable (p.channels i).config channel id kind it.msg)
    (ha : (p.channels i).Admits kind id it)
    (hin : kind = .cancelReq → id ∈ (p.channels i).incomingRequests)
    (hmore : 0 < it.bytesProcessed → it.bytesProcessed < it.msg.payloadLen)
    (hr : (p.channels i).currentMultiframeReceiver = it.transfer) (t : Bytes) :
    ∃ s, p.processIncoming
        (((it.remaining p.maxFrameSize).map (·.emit p.maxFrameSize)).flatten ++ t) =
      .ok (.success (kind.readOf channel id it.msg.payload), s, t) := by
  induction hn : it.msg.payloadLen - it.bytesProcessed using Nat.strongRecOn generalizing it p with
  | ind n ih =>
    cases hnext : (it.nextOwned p.maxFrameSize).2 with
    | none =>
      obtain ⟨r', hpass⟩ : ∃ r',
          it.passOver p.maxFrameSize (p.channels i).currentMultiframeReceiver = some r' := by
        unfold FrameIter.passOver
        by_cases h0 : it.bytesProcessed = 0
        · exact ⟨_, by rw [if_pos h0, hnext]⟩
        · exact ⟨_, by rw [if_neg h0, if_pos hr, hnext]⟩
      have hp := processFrame_honest hi hs ha hpass hmore t
      rw [deliver_read hs hin hnext] at hp
      rw [FrameIter.remaining_of_none hnext, List.map_singleton, List.flatten_singleton]
      exact ⟨_, processIncoming_of_some hp⟩
    | some it' =>
      obtain ⟨hmsg, _, hlt, hlen⟩ := FrameIter.nextOwned_some hnext
      have hpass : it.passOver p.maxFrameSize (p.channels i).currentMultiframeReceiver =
          some it'.transfer := by
        unfold FrameIter.passOver
        by_cases h0 : it.bytesProcessed = 0
        · have hready : (p.channels i).currentMultiframeReceiver = .ready := by
            rw [hr, FrameIter.transfer, if_pos h0]
          rw [if_pos h0, hnext]
          exact if_pos hready
        · rw [if_neg h0, if_pos hr, hnext]
      rw [FrameIter.remaining_of_some hnext, List.map_cons, List.flatten_cons, List.append_assoc]
      have hp := processFrame_honest hi hs ha hpass hmore
        (((it'.remaining p.maxFrameSize).map (·.emit p.maxFrameSize)).flatten ++ t)
      rw [deliver_pending hs hnext] at hp
      rw [processIncoming_of_none hv hp, ← hmsg]
      have hkind : kind ≠ .cancelReq := by
        rintro rfl
        have := (Channel.Sendable.payload_none hs (by simp) (by simp)).2 p.maxFrameSize
        simp [hnext] at this
      have hout : ((p.channels i).deliver p.maxFrameSize kind channel id it
          it'.transfer).2.outgoingRequests =
          (p.channels i).outgoingRequests := by
        rw [Channel.deliver_outgoing hs, if_neg (by simp [hnext])]
      refine ih (it'.msg.payloadLen - it'.bytesProcessed) (by rw [hmsg] at hlen ⊢; omega)
        (processFrame_keeps hv hp)
        ?_ ?_ (fun hk => absurd hk hkind) (fun _ => hlen) ?_ rfl
      · rw [setChannel_self, Channel.deliver_config, hmsg]
        exact hs
      · rw [setChannel_self]
        refine ⟨fun _ h0 => absurd h0 (by omega), ?_, fun hk => absurd hk hkind,
          fun h0 => absurd h0 (by omega)⟩
        intro hk
        rw [hout]
        exact ha.asked hk
      · rw [setChannel_self, Channel.deliver_receiver hs hpass]

/-- A message for which the receiver is ready. -/
theorem processIncoming_message {p : JulietProtocol N} {msg : OutgoingMessage} (hv : p.Valid)
    (hi : channel.get.toNat = i) (hs : Sendable (p.channels i).config channel id kind msg)
    (hw : (p.channels i).Welcomes kind id) (t : Bytes) :
    ∃ s, p.processIncoming (msg.toBytes p.maxFrameSize ++ t) =
      .ok (.success (kind.readOf channel id msg.payload), s, t) := by
  rw [toBytes_eq]
  refine processIncoming_frames hv hi hs (hw.admits msg) (fun hk => (hw.pending hk).1)
    (fun h => ?_) ?_ t
  · exact absurd h (Nat.lt_irrefl 0)
  · exact hw.ready

end transfer

theorem processFrame_newError (p : JulietProtocol N) (kind : ErrorKind) (channel : ChannelId)
    (id : Id) (rest : Bytes) :
    p.processFrame ((Header.newError kind channel id).bytes ++ rest) =
      processError p.maxFrameSize (Header.newError kind channel id)
        ((Header.newError kind channel id).bytes ++ rest) >>=
        fun (outcome, buffer) => .ok (some outcome, p, buffer) := by
  have hfront : frontHeader ((Header.newError kind channel id).bytes ++ rest) =
      some (Header.newError kind channel id) :=
    Header.parse_newError kind channel id
  rw [processFrame_of_frontHeader hfront, processHeader, if_pos (Header.newError_isError _ _ _)]
  rfl

theorem toBytes_of_single {msg : OutgoingMessage} {m : MaxFrameSize}
    (h : (msg.frames.nextOwned m).2 = none) :
    msg.toBytes m = msg.frames.emit m := by
  rw [toBytes_eq, FrameIter.remaining_of_none h, List.map_singleton, List.flatten_singleton]

theorem processIncoming_plainError (p : JulietProtocol N) {msg : OutgoingMessage} (h : msg.Plain)
    (t : Bytes) :
    p.processIncoming (msg.toBytes p.maxFrameSize ++ t) =
      .ok (.success (.errorReceived msg.header none), p, t) := by
  obtain ⟨kind, channel, id, hk, rfl⟩ := h
  have hsingle := FrameIter.nextOwned_none (m := p.maxFrameSize)
    (show (OutgoingMessage.new (Header.newError kind channel id) none).frames.msg.payload =
      none from rfl)
  rw [toBytes_of_single (by rw [hsingle]), FrameIter.emit_none rfl]
  apply processIncoming_of_some
  show p.processFrame ((Header.newError kind channel id).bytes ++ t) = _
  have hadv : advance ((Header.newError kind channel id).bytes ++ t) Header.size = .ok t := by
    rw [advance_of_le (by simp), List.drop_left' (by simp)]
  rw [processFrame_newError]
  cases kind with
  | other => exact absurd rfl hk
  | _ => simp only [processError, Header.newError_errorKind, bind_ok, hadv, pure_eq_ok,
    OutgoingMessage.new]

/-- The payload of an error that fits into a frame. -/
theorem processError_other {m : MaxFrameSize} {header : Header} {payload : Bytes}
    (hk : header.errorKind = .ok .other)
    (h : min (m.get - 4 - (prefixDigits payload).length) payload.length = payload.length)
    (t : Bytes) :
    processError m header (header.bytes ++ (prefixDigits payload ++ (payload ++ t))) =
      .ok (.success (.errorReceived header (some payload)), t) := by
  have hm : 10 ≤ m.get := m.min_le
  have hmax := m.lt
  have hd := prefixDigits_le payload
  have hval : (UInt32.ofNat payload.length).toNat = payload.length := by
    simp
    omega
  have hlen : (header.bytes ++ (prefixDigits payload ++ (payload ++ t))).length =
      4 + (prefixDigits payload).length + payload.length + t.length := by
    simp only [List.length_append, Header.bytes_length]
    omega
  have hdec : decodeVarint32 (prefixDigits payload ++ (payload ++ t)) =
      .ok (.success ⟨(prefixDigits payload).length, payload.length⟩) := by
    rw [prefixDigits, Varint32.decode_digits, hval]
  have hslice : slice (header.bytes ++ (prefixDigits payload ++ (payload ++ t))) Header.size
      (header.bytes ++ (prefixDigits payload ++ (payload ++ t))).length =
        .ok (prefixDigits payload ++ (payload ++ t)) := by
    rw [slice_header (by omega), List.drop_left' (by simp)]
  have hadv : advance (header.bytes ++ (prefixDigits payload ++ (payload ++ t)))
      (4 + (prefixDigits payload).length) =
      .ok (payload ++ t) := by
    rw [advance_of_le (by omega), ← List.append_assoc, List.drop_left' (by simp)]
  have hsplit : splitTo (payload ++ t) payload.length = .ok (payload, t) := by
    rw [splitTo_of_le (by simp), List.take_left' rfl, List.drop_left' rfl]
  simp only [processError, hk, bind_ok, hslice, hdec]
  simp only [Header.size]
  rw [if_neg (by omega), if_neg (by omega)]
  simp only [hadv, bind_ok, hsplit, pure_eq_ok]

theorem processIncoming_customError (p : JulietProtocol N) {channel : ChannelId} {id : Id}
    {payload : Bytes} {msg : OutgoingMessage} (hmsg : p.customError channel id payload = .ok msg)
    (t : Bytes) :
    msg = OutgoingMessage.new (Header.newError .other channel id) (some payload) ∧
      p.processIncoming (msg.toBytes p.maxFrameSize ++ t) =
        .ok (.success (.errorReceived (Header.newError .other channel id) (some payload)), p,
          t) := by
  rcases p.customError_cases channel id payload with ⟨_, hc⟩ | ⟨hmulti, hc⟩
  · rw [hc] at hmsg
    simp at hmsg
  · cases Except.ok.inj (hc.symm.trans hmsg)
    refine ⟨rfl, ?_⟩
    have hsingle : ((OutgoingMessage.new (Header.newError .other channel id)
        (some payload)).frames.nextOwned
        p.maxFrameSize).2 = none := by
      by_contra hne
      have hlong : payloadIsMultiFrame p.maxFrameSize payload.length = true :=
        (isMultiFrame_iff _ _).mpr hne
      simp [hmulti] at hlong
    have hall := FrameIter.nextOwned_none_iff.mp hsingle payload rfl
    rw [toBytes_of_single hsingle, FrameIter.emit_first rfl rfl, hall, List.take_length]
    apply processIncoming_of_some
    have hbytes : (OutgoingMessage.new (Header.newError .other channel id)
        (some payload)).frames.header.bytes ++
        prefixDigits payload ++ payload ++ t =
        (Header.newError .other channel id).bytes ++ (prefixDigits payload ++ (payload ++ t)) := by
      simp [OutgoingMessage.new, OutgoingMessage.frames, FrameIter.header]
    rw [hbytes, processFrame_newError, processError_other (Header.newError_errorKind _ _ _) hall]
    rfl

/-- The messages that a protocol can produce. -/
inductive Produced (sender : JulietProtocol N) : OutgoingMessage → Prop
  | request {channel : ChannelId} {payload : Option Bytes} {msg : OutgoingMessage}
      {s : JulietProtocol N} :
      sender.createRequest channel payload = .ok (.ok msg, s) → Produced sender msg
  | response {channel : ChannelId} {id : Id} {payload : Option Bytes} {msg : OutgoingMessage} :
      (sender.createResponse channel id payload).1 = .ok (some msg) → Produced sender msg
  | requestCancellation {channel : ChannelId} {id : Id} {msg : OutgoingMessage} :
      (sender.cancelRequest channel id).1 = .ok (some msg) → Produced sender msg
  | responseCancellation {channel : ChannelId} {id : Id} {msg : OutgoingMessage} :
      (sender.cancelResponse channel id).1 = .ok (some msg) → Produced sender msg
  | customError {channel : ChannelId} {id : Id} {payload : Bytes} {msg : OutgoingMessage} :
      sender.customError channel id payload = .ok msg → Produced sender msg
  | fatal {buffer b : Bytes} {msg : OutgoingMessage} {s : JulietProtocol N} :
      sender.processIncoming buffer = .ok (.fatal msg, s, b) → Produced sender msg

theorem Produced.cases {sender : JulietProtocol N} {msg : OutgoingMessage} (hv : sender.Valid)
    (h : Produced sender msg) :
    msg.Plain ∨ (∃ channel id payload, sender.customError channel id payload = .ok msg) ∨
      ∃ (i : Fin N) (kind : Kind) (channel : ChannelId) (id : Id), channel.get.toNat = i ∧
        Sendable (sender.channels i).config channel id kind msg := by
  cases h with
  | fatal hp => exact .inl (processIncoming_plain hv hp)
  | customError hc => exact .inr (.inl ⟨_, _, _, hc⟩)
  | @request channel payload msg s hc =>
    rcases createRequest_cases hc with ⟨_, hr, _⟩ | ⟨i, id, hl, _, hw, _, hr, _⟩
    · simp at hr
    · cases Except.ok.inj hr
      cases payload with
      | none => exact .inr (.inr ⟨i, .request, channel, id, lookupChannel_ok hl, .request⟩)
      | some pl => exact .inr (.inr ⟨i, .requestPl, channel, id, lookupChannel_ok hl,
        .requestPl pl (hw pl rfl)⟩)
  | @response channel id payload msg hc =>
    rcases sender.createResponse_cases channel id payload with
      ⟨_, he⟩ | ⟨i, _, _, he⟩ | ⟨i, hl, _, ⟨_, he⟩ | ⟨hw, he⟩⟩
    · simp [he] at hc
    · simp [he] at hc
    · simp [he] at hc
    · simp only [he, Except.ok.injEq, Option.some.injEq] at hc
      subst hc
      cases payload with
      | none => exact .inr (.inr ⟨i, .response, channel, id, lookupChannel_ok hl, .response⟩)
      | some pl => exact .inr (.inr ⟨i, .responsePl, channel, id, lookupChannel_ok hl,
        .responsePl pl (hw pl rfl)⟩)
  | requestCancellation hc =>
    obtain ⟨i, hl, _, rfl⟩ := cancelRequest_some hc
    exact .inr (.inr ⟨i, _, _, _, lookupChannel_ok hl, .cancelReq⟩)
  | @responseCancellation channel id msg hc =>
    rcases sender.cancelResponse_cases channel id with ⟨_, he⟩ | he | ⟨i, hl, _, he⟩
    · simp [he] at hc
    · simp [he] at hc
    · simp only [he, Except.ok.injEq, Option.some.injEq] at hc
      subst hc
      exact .inr (.inr ⟨i, _, _, _, lookupChannel_ok hl, .cancelResp⟩)

/-- Two protocols that have been built alike. -/
def SameConfig (p q : JulietProtocol N) : Prop :=
  p.maxFrameSize = q.maxFrameSize ∧ ∀ i, (p.channels i).config = (q.channels i).config

/-- Whether the protocol is in a state for the message to arrive. Errors always do. -/
def Admits (p : JulietProtocol N) (msg : OutgoingMessage) : Prop :=
  msg.header.isError = false → ∃ (i : Fin N) (kind : Kind), msg.header.channel.get.toNat = i ∧
    msg.header.kind = .ok kind ∧ (p.channels i).Welcomes kind msg.header.id

/-- Every message that a protocol can produce is read back as it is by a peer that admits it,
whatever follows it, and nothing else is taken off the buffer. -/
theorem message_round_trip {sender p : JulietProtocol N} {msg : OutgoingMessage}
    (hsender : Reachable sender) (hp : Reachable p) (hc : SameConfig p sender)
    (hmsg : Produced sender msg) (ha : p.Admits msg) (t : Bytes) :
    ∃ read s, msg.asRead = some read ∧
      p.processIncoming (msg.toBytes p.maxFrameSize ++ t) = .ok (.success read, s, t) := by
  rcases hmsg.cases hsender.valid with hplain | ⟨channel, id, payload, hcustom⟩ | ⟨i, kind,
    channel, id, hi, hs⟩
  · have hread := p.processIncoming_plainError hplain t
    obtain ⟨kind, channel, id, _, rfl⟩ := hplain
    exact ⟨_, p, by simp [OutgoingMessage.asRead, OutgoingMessage.new], hread⟩
  · have hcustom' : p.customError channel id payload = .ok msg := by
      rw [← hcustom, customError, customError, hc.1]
    obtain ⟨rfl, hread⟩ := p.processIncoming_customError hcustom' t
    exact ⟨_, p, by simp [OutgoingMessage.asRead, OutgoingMessage.new], hread⟩
  · have hhd := hs.header
    obtain ⟨j, kind', hj, hk', hw⟩ := ha (by rw [hhd, Header.new_isError])
    rw [hhd, Header.new_kind] at hk'
    cases Except.ok.inj hk'
    rw [hhd, Header.new_channel] at hj
    cases Fin.ext (hi.symm.trans hj)
    rw [hhd, Header.new_id] at hw
    rw [← hc.2 i] at hs
    obtain ⟨s, hread⟩ := processIncoming_message hp.valid hi hs hw t
    refine ⟨_, s, ?_, hread⟩
    simp [OutgoingMessage.asRead, hhd, Except.toOption]

/-- A request of two frames. -/
theorem message_round_trip_two_frames : ∃ msg read s,
    smallBuilder.build.Produced msg ∧ msg.payload = some [1, 2, 3, 4, 5, 6] ∧
    msg.asRead = some read ∧
      smallBuilder.build.processIncoming (msg.toBytes smallBuilder.build.maxFrameSize ++ [9]) =
        .ok (.success read, s, [9]) := by
  have hmsg : smallBuilder.build.Produced _ := .request
    (show smallBuilder.build.createRequest ⟨0⟩ (some [1, 2, 3, 4, 5, 6]) = .ok (.ok _, _) from rfl)
  have ha : smallBuilder.build.Admits ⟨Header.new .requestPl ⟨0⟩ ⟨1⟩, some [1, 2, 3, 4, 5, 6]⟩ := by
    intro _
    refine ⟨0, .requestPl, rfl, Header.new_kind _ _ _, rfl,
      fun _ => ?_, by simp [Kind.isAnswer], by simp⟩
    decide
  obtain ⟨read, s, hread, hp⟩ :=
    message_round_trip (.build smallBuilder) (.build smallBuilder) ⟨rfl, fun _ => rfl⟩ hmsg ha [9]
  exact ⟨_, read, s, hmsg, rfl, hread, hp⟩

end JulietProtocol

end Juliet
