import Juliet.FrameBytes
import Juliet.FrameStep

namespace Juliet

open Rust OutgoingMessage

namespace FrameIter

/-- The state of the peer's receiver when it has everything of the message before this frame. -/
def transfer (it : FrameIter) : MultiframeReceiver :=
  if it.bytesProcessed = 0 then .ready
  else .inProgress it.header ((it.msg.payload.getD []).take it.bytesProcessed) it.msg.payloadLen

/-- What the receiver reports about a frame of a message with this payload. -/
def completed (it : FrameIter) (m : MaxFrameSize) (pl : Bytes) : CompletedFrame :=
  match it.bytesProcessed, (it.nextOwned m).2 with
  | 0, none => .singleFrame pl
  | 0, some _ => .newMultiFrame
  | _ + 1, none => .completedMultiFrame pl
  | _ + 1, some _ => .intermediateMultiFrame

theorem completed_wasNew (it : FrameIter) (m : MaxFrameSize) (pl : Bytes) :
    (it.completed m pl).wasNew = decide (it.bytesProcessed = 0) := by
  unfold completed
  cases it.bytesProcessed with
  | zero => cases (it.nextOwned m).2 <;> rfl
  | succ n => cases (it.nextOwned m).2 <;> rfl

theorem completed_payload (it : FrameIter) (m : MaxFrameSize) (pl : Bytes) :
    (it.completed m pl).intoCompletedPayload = if (it.nextOwned m).2 = none then some pl
      else none := by
  unfold completed
  cases it.bytesProcessed with
  | zero => cases (it.nextOwned m).2 <;> rfl
  | succ n => cases (it.nextOwned m).2 <;> rfl

/-- The receiver's state after a frame, if it expects the frame: frames of a message in parts may
only begin when no other transfer is open, and go on where the last one ended. -/
def passOver (it : FrameIter) (m : MaxFrameSize) (r : MultiframeReceiver) :
    Option MultiframeReceiver :=
  if it.bytesProcessed = 0 then
    match (it.nextOwned m).2 with
    | none => some r
    | some it' => if r = .ready then some it'.transfer else none
  else if r = it.transfer then
    match (it.nextOwned m).2 with
    | none => some .ready
    | some it' => some it'.transfer
  else none

theorem transfer_of_some {it it' : FrameIter} {m : MaxFrameSize} {pl : Bytes}
    (hpl : it.msg.payload = some pl) (h : (it.nextOwned m).2 = some it') :
    it'.transfer = .inProgress it.header (pl.take (it.handedOut m pl)) pl.length := by
  obtain ⟨pl', hpl', hmsg, hbp, hlt⟩ := nextOwned_some_iff.mp h
  rw [hpl] at hpl'
  cases Option.some.inj hpl'
  have hpos := it.handedOut_pos m (by omega : 0 < pl.length)
  simp [transfer, hbp, Nat.pos_iff_ne_zero.mp hpos, header, hmsg, hpl, OutgoingMessage.payloadLen]

theorem handedOut_first_le (it : FrameIter) (m : MaxFrameSize) (pl : Bytes)
    (h0 : it.bytesProcessed = 0) :
    it.handedOut m pl = min (m.get - (4 + (prefixDigits pl).length)) pl.length := by
  simp [handedOut, h0, Nat.sub_sub]

/-- The first frame of a message is recognised as such. -/
theorem detect_first {it : FrameIter} {pl : Bytes} {max : Nat} (hpl : it.msg.payload = some pl)
    (h0 : it.bytesProcessed = 0) (hmax : pl.length ≤ max) (hlt : max < 2 ^ 32) (m : MaxFrameSize)
    (rest : Bytes) (kind : ErrorKind) :
    detectStartingSegment it.header (it.emit m ++ rest) m max kind =
      .ok (.success ⟨4 + (prefixDigits pl).length, it.handedOut m pl, pl.length⟩) := by
  have hval : (UInt32.ofNat pl.length).toNat = pl.length := by
    simp
    omega
  have hhand := it.handedOut_first_le m pl h0
  have hemit := emit_first (m := m) hpl h0
  have hlen : (it.emit m ++ rest).length =
      4 + (prefixDigits pl).length + it.handedOut m pl + rest.length := by
    rw [hemit]
    simp only [List.length_append, Header.bytes_length, List.length_take]
    omega
  have hdrop : (it.emit m ++ rest).drop 4 =
      prefixDigits pl ++ (pl.take (it.handedOut m pl) ++ rest) := by
    rw [hemit]
    simp [List.drop_append]
  have hdec : decodeVarint32 ((it.emit m ++ rest).drop 4) =
      .ok (.success ⟨(prefixDigits pl).length, pl.length⟩) := by
    rw [hdrop, prefixDigits, Varint32.decode_digits, hval]
  rw [detectStartingSegment_of_length (by omega) hdec (prefixDigits_le pl)]
  simp only [← hhand]
  rw [if_neg (by omega), if_neg (by omega)]

theorem split_first {it : FrameIter} {m : MaxFrameSize} {pl : Bytes} (rest : Bytes)
    (hpl : it.msg.payload = some pl) (h0 : it.bytesProcessed = 0) :
    advance (it.emit m ++ rest) (4 + (prefixDigits pl).length) =
      .ok (pl.take (it.handedOut m pl) ++ rest) ∧
      splitTo (pl.take (it.handedOut m pl) ++ rest) (it.handedOut m pl) =
        .ok (pl.take (it.handedOut m pl), rest) := by
  have hhand := it.handedOut_first_le m pl h0
  have hpre : (it.header.bytes ++ prefixDigits pl).length = 4 + (prefixDigits pl).length := by simp
  have htake : (pl.take (it.handedOut m pl)).length = it.handedOut m pl := by
    rw [List.length_take]
    omega
  constructor
  · rw [emit_first hpl h0, List.append_assoc _ _ rest,
      advance_of_le (by rw [List.length_append]; omega), List.drop_left' hpre]
  · rw [splitTo_of_le (by rw [List.length_append]; omega), List.take_left' htake,
      List.drop_left' htake]

theorem handedOut_lt_of_some {it it' : FrameIter} {m : MaxFrameSize} {pl : Bytes}
    (hpl : it.msg.payload = some pl) (hnext : (it.nextOwned m).2 = some it') :
    it.handedOut m pl < pl.length := by
  obtain ⟨pl', hpl', _, _, h⟩ := nextOwned_some_iff.mp hnext
  rw [hpl] at hpl'
  cases Option.some.inj hpl'
  exact h

section

variable {it : FrameIter} {m : MaxFrameSize} {pl : Bytes} {max : Nat} {r r' : MultiframeReceiver}

/-- The first frame of a message, on a receiver that has not been given a frame of it. -/
theorem accept_first (hpl : it.msg.payload = some pl) (hmax : pl.length ≤ max) (hlt : max < 2 ^ 32)
    (hpass : it.passOver m r = some r') (h0 : it.bytesProcessed = 0)
    (hapart : r.inProgressHeader ≠ some it.header) (rest : Bytes) (kind : ErrorKind) :
    r.accept it.header (it.emit m ++ rest) m max kind =
      .ok (.success (it.completed m pl), r', rest) := by
  unfold passOver at hpass
  rw [if_pos h0] at hpass
  have hdet := detect_first hpl h0 hmax hlt m rest kind
  obtain ⟨hadv, hsplit⟩ := split_first (m := m) rest hpl h0
  have hle : it.handedOut m pl ≤ pl.length := by
    rw [it.handedOut_first_le m pl h0]
    omega
  have hcomplete := InitialFrameData.isComplete_of_le
    (d := ⟨4 + (prefixDigits pl).length, it.handedOut m pl, pl.length⟩) hle
  cases hnext : (it.nextOwned m).2 with
  | none =>
    have hall := nextOwned_none_iff.mp hnext pl hpl
    simp only [hnext, Option.some.injEq] at hpass
    subst hpass
    simp only [hall, beq_self_eq_true, List.take_length] at hcomplete hadv hsplit hdet
    have hdone : it.completed m pl = .singleFrame pl := by simp [completed, h0, hnext]
    cases r with
    | ready => simp [MultiframeReceiver.accept, hdet, hadv, hsplit, hcomplete, hdone]
    | inProgress h p t =>
      have hne : it.header ≠ h := by
        intro he
        exact hapart (by simp [MultiframeReceiver.inProgressHeader, he])
      simp [MultiframeReceiver.accept, hdet, hne, hadv, hsplit, hcomplete, hdone]
  | some it' =>
    have hmore := handedOut_lt_of_some hpl hnext
    have hbeq : (it.handedOut m pl == pl.length) = false := by
      rw [beq_eq_false_iff_ne]
      omega
    simp only [hnext] at hpass
    split at hpass
    next hr =>
      subst hr
      cases Option.some.inj hpass
      rw [transfer_of_some hpl hnext]
      simp [MultiframeReceiver.accept, hdet, hadv, hsplit, hcomplete, hbeq, completed, h0, hnext]
    next => simp at hpass

/-- What a later frame adds to the payload. -/
theorem extract_later (hpl : it.msg.payload = some pl) (hpos : 0 < it.bytesProcessed)
    (hmore : it.bytesProcessed < pl.length) (rest : Bytes) :
    extractSegment (it.emit m ++ rest) (pl.take it.bytesProcessed) pl.length m =
      .ok (.success ((pl.take (it.handedOut m pl)).length == pl.length),
        pl.take (it.handedOut m pl), rest) := by
  have hm : 10 ≤ m.get := m.min_le
  have hstored : (pl.take it.bytesProcessed).length = it.bytesProcessed := by
    rw [List.length_take]
    omega
  have hext := extractSegment_of_lt (show (pl.take it.bytesProcessed).length < pl.length by omega)
    (it.emit m ++ rest) m
  generalize hsize : min (pl.length - (pl.take it.bytesProcessed).length) (m.get - 4) = size at hext
  have hsize' : min (m.get - 4) (pl.length - it.bytesProcessed) = size := by
    rw [← hsize, hstored, Nat.min_comm]
  have hemit : it.emit m = it.header.bytes ++ (pl.drop it.bytesProcessed).take size := by
    rw [emit_later hpl hpos, hsize']
  have hseg : ((pl.drop it.bytesProcessed).take size).length = size := by
    rw [List.length_take, List.length_drop]
    omega
  have hhand : it.handedOut m pl = it.bytesProcessed + size := by
    rw [handedOut, if_neg (by omega), hsize']
  have hd4 : (it.emit m ++ rest).drop 4 = (pl.drop it.bytesProcessed).take size ++ rest := by
    rw [hemit]
    simp [List.drop_append]
  have hd : (it.emit m ++ rest).drop (4 + size) = rest := by
    rw [← List.drop_drop, hd4, List.drop_left' hseg]
  have hstore : pl.take it.bytesProcessed ++ (pl.drop it.bytesProcessed).take size =
      pl.take (it.bytesProcessed + size) := List.take_add.symm
  simp only [hd4, List.take_left' hseg, hd, hstore] at hext
  rw [if_neg (by rw [hemit]; simp only [List.length_append, Header.bytes_length]; omega)] at hext
  rw [hext, hhand]

/-- A later frame of a message, on the receiver that has been given the frames before it. -/
theorem accept_later (hpl : it.msg.payload = some pl) (hpass : it.passOver m r = some r')
    (hpos : 0 < it.bytesProcessed) (hmore : it.bytesProcessed < pl.length) (rest : Bytes)
    (kind : ErrorKind) :
    r.accept it.header (it.emit m ++ rest) m max kind =
      .ok (.success (it.completed m pl), r', rest) := by
  have h0 : it.bytesProcessed ≠ 0 := by omega
  have hext := extract_later (m := m) hpl hpos hmore rest
  obtain ⟨n, hn⟩ : ∃ n, it.bytesProcessed = n + 1 := ⟨it.bytesProcessed - 1, by omega⟩
  unfold passOver at hpass
  rw [if_neg h0] at hpass
  split at hpass
  next hr =>
    have hin : r = .inProgress it.header (pl.take it.bytesProcessed) pl.length := by
      simp [hr, transfer, h0, hpl, OutgoingMessage.payloadLen]
    subst hin
    cases hnext : (it.nextOwned m).2 with
    | none =>
      have hall := nextOwned_none_iff.mp hnext pl hpl
      have hdone : it.completed m pl = .completedMultiFrame pl := by simp [completed, hn, hnext]
      simp only [hnext, Option.some.injEq] at hpass
      subst hpass
      simp only [hall, List.take_length, beq_self_eq_true] at hext
      simp [MultiframeReceiver.accept, hext, hdone]
    | some it' =>
      have hpart := handedOut_lt_of_some hpl hnext
      have hdone : it.completed m pl = .intermediateMultiFrame := by simp [completed, hn, hnext]
      have hbeq : ((pl.take (it.handedOut m pl)).length == pl.length) = false := by
        rw [beq_eq_false_iff_ne, List.length_take]
        omega
      simp only [hnext, Option.some.injEq] at hpass
      subst hpass
      rw [transfer_of_some hpl hnext]
      simp only [hbeq] at hext
      simp [MultiframeReceiver.accept, hext, hdone]
  next => simp at hpass

/-- A receiver that expects the frame accepts it and is left in the expected state. -/
theorem accept_honest (hpl : it.msg.payload = some pl) (hmax : pl.length ≤ max) (hlt : max < 2 ^ 32)
    (hpass : it.passOver m r = some r')
    (hapart : it.bytesProcessed = 0 → r.inProgressHeader ≠ some it.header)
    (hmore : 0 < it.bytesProcessed → it.bytesProcessed < pl.length) (rest : Bytes)
    (kind : ErrorKind) :
    r.accept it.header (it.emit m ++ rest) m max kind =
      .ok (.success (it.completed m pl), r', rest) := by
  rcases Nat.eq_zero_or_pos it.bytesProcessed with h0 | hpos
  · exact accept_first hpl hmax hlt hpass h0 (hapart h0) rest kind
  · exact accept_later hpl hpass hpos (hmore hpos) rest kind

end

end FrameIter

/-- The messages that the functions of the protocol create: payloads go with the kinds that announce
one, and are within the limit for the kind. -/
inductive Sendable (config : ChannelConfiguration) (channel : ChannelId) (id : Id) :
    Kind → OutgoingMessage → Prop
  | request : Sendable config channel id .request ⟨Header.new .request channel id, none⟩
  | response : Sendable config channel id .response ⟨Header.new .response channel id, none⟩
  | requestPl (pl : Bytes) : pl.length ≤ config.maxRequestPayloadSize.toNat →
      Sendable config channel id .requestPl ⟨Header.new .requestPl channel id, some pl⟩
  | responsePl (pl : Bytes) : pl.length ≤ config.maxResponsePayloadSize.toNat →
      Sendable config channel id .responsePl ⟨Header.new .responsePl channel id, some pl⟩
  | cancelReq : Sendable config channel id .cancelReq ⟨Header.new .cancelReq channel id, none⟩
  | cancelResp : Sendable config channel id .cancelResp ⟨Header.new .cancelResp channel id, none⟩

theorem Sendable.header {config : ChannelConfiguration} {channel : ChannelId} {id : Id}
    {kind : Kind} {msg : OutgoingMessage} (h : Sendable config channel id kind msg) :
    msg.header = Header.new kind channel id := by
  cases h <;> rfl

namespace Channel

def release (self : Channel) (id : Id) : Channel :=
  { self with outgoingRequests := self.outgoingRequests.erase id }

/-- What a channel requires of a frame: no surprise about the ids, and no second message under the
header of the open transfer. -/
structure Admits (chan : Channel) (kind : Kind) (id : Id) (it : FrameIter) : Prop where
  fresh : kind = .request ∨ kind = .requestPl → it.bytesProcessed = 0 →
    id ∉ chan.incomingRequests ∧ chan.incomingRequests.card < chan.config.requestLimit.toNat
  asked : kind = .response ∨ kind = .responsePl ∨ kind = .cancelResp → id ∈ chan.outgoingRequests
  allowed : kind = .cancelReq → 0 < chan.cancellationAllowance ∧
    ∀ h ∈ chan.currentMultiframeReceiver.inProgressHeader, h.id ≠ id
  apart : it.bytesProcessed = 0 → chan.currentMultiframeReceiver.inProgressHeader ≠ some it.header

/-- The channel after an admitted frame has been received, and the read it yields. -/
def deliver (self : Channel) (m : MaxFrameSize) (kind : Kind) (channel : ChannelId) (id : Id)
    (it : FrameIter) (receiver : MultiframeReceiver) : Option CompletedRead × Channel :=
  match kind with
  | .request => (some (.newRequest channel id none), self.register id)
  | .response => (some (.receivedResponse channel id none), self.release id)
  | .requestPl =>
    (if (it.nextOwned m).2 = none then some (.newRequest channel id it.msg.payload) else none,
      if it.bytesProcessed = 0 then (self.withReceiver receiver).register id
      else self.withReceiver receiver)
  | .responsePl =>
    if (it.nextOwned m).2 = none then
      (some (.receivedResponse channel id it.msg.payload), (self.withReceiver receiver).release id)
    else (none, self.withReceiver receiver)
  | .cancelReq =>
    (if id ∈ self.incomingRequests then some (.requestCancellation channel id) else none,
      { self with cancellationAllowance := self.cancellationAllowance - 1 })
  | .cancelResp => (some (.responseCancellation channel id), self.release id)

variable {self : Channel} {m : MaxFrameSize} {kind : Kind} {channel : ChannelId} {id : Id}
  {it : FrameIter} {receiver : MultiframeReceiver}

theorem not_isAtMax (self : Channel)
    (h : self.incomingRequests.card < self.config.requestLimit.toNat) :
    self.isAtMaxIncomingRequests = false := by
  simpa [isAtMaxIncomingRequests] using h

theorem advance_header_emit {it : FrameIter} {m : MaxFrameSize} (h : it.msg.payload = none)
    (rest : Bytes) :
    advance (it.emit m ++ rest) Header.size = .ok rest := by
  rw [FrameIter.emit_none h, advance_of_le (by simp [Header.size]),
    List.drop_left' (by simp [Header.size])]

/-- An admitted frame that the receiver expects is processed as described, without complaint. -/
theorem processKind_honest (hs : Sendable self.config channel id kind it.msg)
    (ha : self.Admits kind id it)
    (hpass : it.passOver m self.currentMultiframeReceiver = some receiver)
    (hmore : 0 < it.bytesProcessed → it.bytesProcessed < it.msg.payloadLen) (rest : Bytes) :
    self.processKind m kind (Header.new kind channel id) (it.emit m ++ rest) =
      .ok ((self.deliver m kind channel id it receiver).1.map .success,
        (self.deliver m kind channel id it receiver).2, rest) := by
  generalize hmsg : it.msg = msg at hs
  have hstart : it.msg.payload = none → it.bytesProcessed = 0 := by
    intro hn
    have hle := it.le
    simp only [OutgoingMessage.payloadLen, hn, Option.getD_none, List.length_nil] at hle
    omega
  cases hs with
  | request =>
    have hn : it.msg.payload = none := by rw [hmsg]
    obtain ⟨hfresh, hcard⟩ := ha.fresh (.inl rfl) (hstart hn)
    simp [processKind, processRequest, not_isAtMax self hcard, hfresh,
      advance_header_emit hn, deliver, register]
  | response =>
    have hn : it.msg.payload = none := by rw [hmsg]
    simp [processKind, processResponse, ha.asked (.inl rfl),
      advance_header_emit hn, deliver, release]
  | cancelResp =>
    have hn : it.msg.payload = none := by rw [hmsg]
    simp [processKind, processCancelResp, ha.asked (.inr (.inr rfl)),
      advance_header_emit hn, deliver, release]
  | cancelReq =>
    have hn : it.msg.payload = none := by rw [hmsg]
    obtain ⟨hpos, hno⟩ := ha.allowed rfl
    have hkeep :
        ({ self with
            cancellationAllowance := self.cancellationAllowance - 1 } : Channel).cancelInProgress
        (Header.new .cancelReq channel id) =
          { self with cancellationAllowance := self.cancellationAllowance - 1 } := by
      unfold cancelInProgress
      split
      next h hin => rw [if_neg (by simpa using hno h hin)]
      next => rfl
    simp only [processKind, processCancelReq, if_neg (Nat.pos_iff_ne_zero.mp hpos),
      checkedSub_of_le hpos, advance_header_emit hn, bind_ok, hkeep, Header.new_id, deliver]
    by_cases hid : id ∈ self.incomingRequests
    · simp [hid]
    · simp [hid]
  | requestPl pl hlen =>
    have hpl : it.msg.payload = some pl := by rw [hmsg]
    have hhd : it.header = Header.new .requestPl channel id := by rw [FrameIter.header, hmsg]
    have hacc := FrameIter.accept_honest hpl hlen
      self.config.maxRequestPayloadSize.toNat_lt hpass ha.apart
      (fun h => by simpa [OutgoingMessage.payloadLen, hpl] using hmore h)
    rw [hhd] at hacc
    simp only [processKind, processRequestPl, hacc, bind_ok, recordRequestPl,
      FrameIter.completed_wasNew, FrameIter.completed_payload, Header.new_channel, Header.new_id,
      pure_eq_ok, deliver, hpl]
    by_cases h0 : it.bytesProcessed = 0
    · obtain ⟨hfresh, hcard⟩ := ha.fresh (.inr rfl) h0
      have hcard' := not_isAtMax { self with currentMultiframeReceiver := receiver } hcard
      simp only [h0, decide_true, if_true, hcard', Bool.false_eq_true, if_false, hfresh,
        register, withReceiver]
      split <;> rfl
    · simp only [h0, decide_false, Bool.false_eq_true, if_false, withReceiver]
      split <;> rfl
  | responsePl pl hlen =>
    have hpl : it.msg.payload = some pl := by rw [hmsg]
    have hhd : it.header = Header.new .responsePl channel id := by rw [FrameIter.header, hmsg]
    have hacc := FrameIter.accept_honest hpl hlen
      self.config.maxResponsePayloadSize.toNat_lt hpass ha.apart
      (fun h => by simpa [OutgoingMessage.payloadLen, hpl] using hmore h)
    rw [hhd] at hacc
    have hasked := ha.asked (.inr (.inl rfl))
    simp only [processKind, processResponsePl, Header.new_id, hasked, not_true_eq_false,
      if_false, hacc, bind_ok, recordResponsePl, FrameIter.completed_payload, Header.new_channel,
      pure_eq_ok, deliver, hpl]
    by_cases hnext : (it.nextOwned m).2 = none
    · simp only [hnext, if_true, withReceiver, release, Option.map_some]
    · simp only [hnext, if_false, withReceiver, Option.map_none]

end Channel

namespace JulietProtocol

variable {N : Nat}

theorem processFrame_honest {self : JulietProtocol N} {i : Fin N} {kind : Kind}
    {channel : ChannelId} {id : Id} {it : FrameIter} {receiver : MultiframeReceiver}
    (hi : channel.get.toNat = i) (hs : Sendable (self.channels i).config channel id kind it.msg)
    (ha : (self.channels i).Admits kind id it)
    (hpass : it.passOver self.maxFrameSize (self.channels i).currentMultiframeReceiver =
      some receiver)
    (hmore : 0 < it.bytesProcessed → it.bytesProcessed < it.msg.payloadLen) (rest : Bytes) :
    self.processFrame (it.emit self.maxFrameSize ++ rest) =
      .ok (((self.channels i).deliver self.maxFrameSize kind channel id it receiver).1.map .success,
        self.setChannel i
          ((self.channels i).deliver self.maxFrameSize kind channel id it receiver).2, rest) := by
  have hhd : it.header = Header.new kind channel id := hs.header
  have hfront : ∃ tail, it.emit self.maxFrameSize ++ rest =
      (Header.new kind channel id).bytes ++ tail := by
    rw [FrameIter.emit_eq_body, hhd, List.append_assoc]
    exact ⟨_, rfl⟩
  obtain ⟨tail, htail⟩ := hfront
  have hkind := Channel.processKind_honest hs ha hpass hmore rest
  have hstep : self.processFrame (it.emit self.maxFrameSize ++ rest) =
      self.processHeader (Header.new kind channel id) (it.emit self.maxFrameSize ++ rest) := by
    rw [htail]
    show self.processFrame (_ :: _ :: _ :: _ :: tail) = _
    simp only [processFrame]
    rw [show Header.parse ((Header.new kind channel id).kindByte,
      (Header.new kind channel id).channelByte,
      (Header.new kind channel id).idLow, (Header.new kind channel id).idHigh) =
      some (Header.new kind channel id)
      from Header.parse_new _ _ _]
    rfl
  have hlt : channel.get.toNat < N := by
    rw [hi]
    exact i.isLt
  have hidx : (⟨channel.get.toNat, hlt⟩ : Fin N) = i := Fin.ext hi
  rw [hstep]
  simp only [processHeader, Header.new_isError, Bool.false_eq_true, if_false,
    Header.new_channel, hlt, dif_pos, Header.new_kind, bind_ok, hidx, hkind, pure_eq_ok]

end JulietProtocol

end Juliet
