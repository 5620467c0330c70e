import Juliet.PeerRuns
import Juliet.RoundTrip

namespace Juliet

open Rust Incremental

namespace MultiframeReceiver

/-- The request of which a part has been received. -/
def request : MultiframeReceiver → Multiset Id
  | .ready => 0
  | .inProgress header _ _ => if header.isRequest then {header.id} else 0

/-- The transfers that are open: none or one. -/
def opened : MultiframeReceiver → Multiset MultiframeReceiver
  | .ready => 0
  | .inProgress header payload total => {.inProgress header payload total}

theorem opened_eq_zero {r : MultiframeReceiver} : r.opened = 0 ↔ r = .ready := by
  cases r <;> simp [opened]

theorem opened_of_header {r : MultiframeReceiver} {h : Header} (hr : r.inProgressHeader = some h) :
    r.opened = {r} := by
  cases r with
  | ready => simp [inProgressHeader] at hr
  | inProgress h' p t => rfl

theorem request_of_header {r : MultiframeReceiver} {h : Header} (hr : r.inProgressHeader = some h) :
    r.request = if h.isRequest then {h.id} else 0 := by
  cases r with
  | ready => simp [inProgressHeader] at hr
  | inProgress h' p t =>
    cases Option.some.inj hr
    rfl

end MultiframeReceiver

namespace FrameIter

/-- Whether a message of the channel has been begun and not finished. -/
def startedOn (i : Nat) (it : FrameIter) : Bool :=
  decide (0 < it.bytesProcessed) && it.header.channel.get.toNat == i

/-- The state of the receiver of a channel after a frame, if the frame is one that it expects. The
cancellation of a message that is being transferred is not. -/
def follow (m : MaxFrameSize) (i : Nat) (r : MultiframeReceiver) (it : FrameIter) :
    Option MultiframeReceiver :=
  if it.header.channel.get.toNat = i then
    if it.header.kind = .ok .cancelReq ∧
      r.inProgressHeader.any (fun h => h.id == it.header.id) = true then none
    else it.passOver m r
  else some r

theorem header_of_transfer {it : FrameIter} (h : 0 < it.bytesProcessed) :
    it.transfer.inProgressHeader = some it.header := by
  simp [transfer, Nat.pos_iff_ne_zero.mp h, MultiframeReceiver.inProgressHeader]

theorem opened_transfer {it : FrameIter} (h : 0 < it.bytesProcessed) :
    it.transfer.opened = {it.transfer} :=
  MultiframeReceiver.opened_of_header (header_of_transfer h)

end FrameIter

/-- The transfers that the sender of the frames has begun on a channel and not finished. -/
def openedBy (i : Nat) (its : List FrameIter) : Multiset MultiframeReceiver :=
  ((its.filter fun it => it.startedOn i).map fun it => it.transfer : List MultiframeReceiver)

theorem openedBy_cons (i : Nat) (it : FrameIter) (its : List FrameIter) :
    openedBy i (it :: its) = if it.startedOn i then it.transfer ::ₘ openedBy i its
      else openedBy i its := by
  unfold openedBy
  rw [List.filter_cons]
  split <;> simp

theorem openedBy_append (i : Nat) (xs ys : List FrameIter) :
    openedBy i (xs ++ ys) = openedBy i xs + openedBy i ys := by
  simp [openedBy]

theorem openedBy_perm {i : Nat} {xs ys : List FrameIter} (h : xs.Perm ys) :
    openedBy i xs = openedBy i ys :=
  Multiset.coe_eq_coe.mpr ((h.filter _).map _)

theorem requestIds_perm {i : Nat} {xs ys : List FrameIter} (h : xs.Perm ys) :
    requestIds i xs = requestIds i ys :=
  Multiset.coe_eq_coe.mpr ((h.filter _).map _)

theorem answerIds_perm {i : Nat} {xs ys : List FrameIter} (h : xs.Perm ys) :
    answerIds i xs = answerIds i ys :=
  Multiset.coe_eq_coe.mpr ((h.filter _).map _)

/-- The id of a request that a read reports on a channel. -/
def CompletedRead.requestOn (i : Nat) : CompletedRead → Option Id
  | .newRequest channel id _ => if channel.get.toNat = i then some id else none
  | _ => none

/-- The requests that reads report on a channel. -/
def reportedBy (i : Nat) (reads : List CompletedRead) : Finset Id :=
  (reads.filterMap (CompletedRead.requestOn i)).toFinset

theorem reportedBy_append (i : Nat) (reads more : List CompletedRead) :
    reportedBy i (reads ++ more) = reportedBy i reads ∪ reportedBy i more := by
  simp [reportedBy]

/-- One end of a connection on which the frames of several messages are interleaved: the protocol
with its read buffer, the bytes on their way to the peer, the messages that have not been sent to
their end, and the requests that have been reported and not answered. -/
structure Side (N : Nat) where
  protocol : JulietProtocol N
  buffer : Bytes
  stream : Bytes
  sending : List FrameIter
  reported : Fin N → Finset Id

namespace Side

variable {N : Nat}

def new (builder : ProtocolBuilder N) : Side N :=
  { protocol := builder.build
    buffer := []
    stream := []
    sending := []
    reported := fun _ => ∅ }

def chan (self : Side N) (i : Fin N) : Channel := self.protocol.channels i

/-- A side after `process_incoming` has returned reads. -/
def took (self : Side N) (protocol : JulietProtocol N) (buffer : Bytes)
    (reads : List CompletedRead) : Side N :=
  { self with
    protocol := protocol
    buffer := buffer
    reported := fun i => self.reported i ∪ reportedBy i reads }

/-- What holds of each end: the requests it has registered are those it has reported, and the one
that it is receiving. -/
structure Sound (builder : ProtocolBuilder N) (side : Side N) : Prop where
  valid : side.protocol.Valid
  config : ∀ i, (side.chan i).config = builder.channelConfig i
  frameSize : side.protocol.maxFrameSize = builder.maxFrameSize
  tracked : ∀ i, (side.chan i).incomingRequests.val =
    (side.reported i).val + (side.chan i).currentMultiframeReceiver.request

end Side

/-- What lies between a side `a` and its peer `b` in this direction: the frames `ab` that `a` has
sent and `b` has not processed, and those that `a` has still to send. -/
structure Lane {N : Nat} (builder : ProtocolBuilder N) (a b : Side N) (ab ba : List FrameIter) :
    Prop where
  bytes : b.buffer ++ a.stream = (ab.map (·.emit builder.maxFrameSize)).flatten
  sendable : ∀ it ∈ ab ++ a.sending, ∃ (i : Fin N) (channel : ChannelId) (id : Id) (kind : Kind),
    channel.get.toNat = i ∧ Sendable (builder.channelConfig i) channel id kind it.msg
  begun : ∀ it ∈ ab ++ a.sending, 0 < it.bytesProcessed → it.bytesProcessed < it.msg.payloadLen
  chain : ∀ i : Fin N, ∃ r, ab.foldlM (FrameIter.follow builder.maxFrameSize i)
    (b.chan i).currentMultiframeReceiver =
    some r ∧ r.opened = openedBy i a.sending
  balanced : ∀ i : Fin N, Balanced i (a.chan i) (b.chan i) (ab ++ a.sending) (ba ++ b.sending)

/-- Two sides that follow the protocol. -/
structure Joined {N : Nat} (builder : ProtocolBuilder N) (a b : Side N) (ab ba : List FrameIter) :
    Prop where
  left : a.Sound builder
  right : b.Sound builder
  toward : Lane builder a b ab ba
  back : Lane builder b a ba ab

section

variable {N : Nat} {builder : ProtocolBuilder N} {a b : Side N} {ab ba : List FrameIter}

theorem Joined.symm (h : Joined builder a b ab ba) : Joined builder b a ba ab :=
  ⟨h.right, h.left, h.back, h.toward⟩

theorem Side.new_sound (builder : ProtocolBuilder N) : (Side.new builder).Sound builder where
  valid := JulietProtocol.build_valid builder
  config _ := rfl
  frameSize := rfl
  tracked _ := rfl

theorem joined_new (builder : ProtocolBuilder N) :
    Joined builder (Side.new builder) (Side.new builder) [] [] := by
  have hlane : Lane builder (Side.new builder) (Side.new builder) [] [] :=
    { bytes := rfl
      sendable := by simp [Side.new]
      begun := by simp [Side.new]
      chain := fun i => ⟨.ready, rfl, rfl⟩
      balanced := fun i => rfl }
  exact ⟨Side.new_sound builder, Side.new_sound builder, hlane, hlane⟩

theorem Balanced.congr {i : Nat} {c d : Channel} {cd cd' dc dc' : List FrameIter}
    (h : Balanced i c d cd dc) (hr : requestIds i cd' = requestIds i cd)
    (ha : answerIds i dc' = answerIds i dc) : Balanced i c d cd' dc' := by
  unfold Balanced at h ⊢
  rw [hr, ha]
  exact h

/-- The ids that the frames begin do not change when the first frame of a message is sent ahead of
the rest of it. -/
theorem sent_ids {m : MaxFrameSize} {it : FrameIter} {sending sending' rest : List FrameIter}
    (hp : sending.Perm (it :: rest)) (hp' : sending'.Perm ((it.nextOwned m).2.toList ++ rest))
    (i : Nat) :
    requestIds i (it :: sending') = requestIds i sending ∧ answerIds i (it :: sending') =
      answerIds i sending := by
  have hlater : ∀ it' ∈ (it.nextOwned m).2.toList, 0 < it'.bytesProcessed := by
    intro it' hin
    obtain ⟨_, _, hlt, _⟩ := FrameIter.nextOwned_some (Option.mem_toList.mp hin)
    omega
  constructor
  · rw [requestIds_perm hp, requestIds_cons, requestIds_cons,
      requestIds_perm hp', requestIds_append, requestIds_later hlater, zero_add]
  · rw [answerIds_perm hp, answerIds_cons, answerIds_cons, answerIds_perm hp', answerIds_append,
      answerIds_later hlater, zero_add]

/-- A frame that begins a message is expected, provided that no other message in parts is under way
if it has several frames, and that it does not cancel one that is. -/
theorem FrameIter.follow_first {m : MaxFrameSize} {i : Nat} {r : MultiframeReceiver}
    {it : FrameIter} {rest : List FrameIter} (hi : it.header.channel.get.toNat = i)
    (h0 : it.bytesProcessed = 0) (ho : r.opened = openedBy i rest)
    (hmulti : (it.nextOwned m).2 ≠ none → openedBy i rest = 0)
    (hcancel : it.header.kind = .ok .cancelReq → ∀ it' ∈ rest, it'.startedOn i = true →
      it'.header.id ≠ it.header.id) :
    ∃ r', it.follow m i r = some r' ∧
      r'.opened = openedBy i ((it.nextOwned m).2.toList ++ rest) := by
  have hapart : ¬ (it.header.kind = .ok .cancelReq ∧
      r.inProgressHeader.any (fun h => h.id == it.header.id) = true) := by
    rintro ⟨hk, hany⟩
    obtain ⟨h, hh, hid⟩ := (Option.any_eq_true _ _).mp hany
    rw [MultiframeReceiver.opened_of_header hh] at ho
    have hmem : r ∈ openedBy i rest := by simp [← ho]
    obtain ⟨it', hin, rfl⟩ := List.mem_map.mp (Multiset.mem_coe.mp hmem)
    obtain ⟨hin, hs⟩ := List.mem_filter.mp hin
    have hpos : 0 < it'.bytesProcessed := by
      simp only [startedOn, Bool.and_eq_true, decide_eq_true_eq] at hs
      exact hs.1
    rw [header_of_transfer hpos] at hh
    cases Option.some.inj hh
    exact hcancel hk it' hin hs (by simpa using hid)
  rw [follow, if_pos hi, if_neg hapart, passOver, if_pos h0, openedBy_append]
  cases hn : (it.nextOwned m).2 with
  | none => exact ⟨r, rfl, by simpa [openedBy] using ho⟩
  | some it' =>
    obtain ⟨_, hhd, hlt, _⟩ := nextOwned_some hn
    have hnone := hmulti (by simp [hn])
    rw [hnone] at ho
    have hready := MultiframeReceiver.opened_eq_zero.mp ho
    have hpos : 0 < it'.bytesProcessed := by omega
    refine ⟨it'.transfer, by simp [hready], ?_⟩
    have hs : it'.startedOn i = true := by simp [startedOn, hpos, hhd, hi]
    rw [opened_transfer hpos, hnone, Option.toList_some, openedBy_cons, hs]
    rfl

/-- A frame that goes on with a message is expected: its message is the only one that is under
way. -/
theorem FrameIter.follow_later {m : MaxFrameSize} {i : Nat} {r : MultiframeReceiver}
    {it : FrameIter} {rest : List FrameIter} (hi : it.header.channel.get.toNat = i)
    (hpos : 0 < it.bytesProcessed) (ho : r.opened = it.transfer ::ₘ openedBy i rest)
    (hk : it.header.kind ≠ .ok .cancelReq) :
    ∃ r', it.follow m i r = some r' ∧
      r'.opened = openedBy i ((it.nextOwned m).2.toList ++ rest) := by
  obtain ⟨hr, hnone⟩ : r = it.transfer ∧ openedBy i rest = 0 := by
    cases r with
    | ready => simp [MultiframeReceiver.opened] at ho
    | inProgress h p t =>
      obtain ⟨he, hz⟩ := (Multiset.singleton_eq_cons_iff _).mp ho
      exact ⟨he, hz⟩
  rw [follow, if_pos hi, if_neg (fun hc => hk hc.1), passOver, if_neg (by omega), if_pos hr,
    openedBy_append, hnone, add_zero]
  cases hn : (it.nextOwned m).2 with
  | none => exact ⟨.ready, rfl, rfl⟩
  | some it' =>
    obtain ⟨_, hhd, hlt, _⟩ := nextOwned_some hn
    have hpos' : 0 < it'.bytesProcessed := by omega
    refine ⟨it'.transfer, rfl, ?_⟩
    have hs' : it'.startedOn i = true := by simp [startedOn, hpos', hhd, hi]
    rw [opened_transfer hpos', Option.toList_some, openedBy_cons, hs']
    rfl

theorem FrameIter.follow_other {m : MaxFrameSize} {i : Nat} {it : FrameIter}
    (hi : it.header.channel.get.toNat ≠ i) (r : MultiframeReceiver) (rest : List FrameIter) :
    it.follow m i r = some r ∧
      openedBy i ((it.nextOwned m).2.toList ++ rest) = openedBy i (it :: rest) := by
  have hnot : it.startedOn i = false := by simp [startedOn, hi]
  have hnext : openedBy i (it.nextOwned m).2.toList = 0 := by
    cases hn : (it.nextOwned m).2 with
    | none => rfl
    | some it' =>
      obtain ⟨_, hhd, _, _⟩ := nextOwned_some hn
      have hs' : it'.startedOn i = false := by simp [startedOn, hhd, hi]
      rw [Option.toList_some, openedBy_cons, hs']
      rfl
  refine ⟨by rw [follow, if_neg hi], ?_⟩
  rw [openedBy_append, hnext, zero_add, openedBy_cons, hnot]
  rfl

/-- When a side may send the next frame of a message: a message in parts begins only when no other
one is under way on its channel, and a cancellation is not for one that is. -/
structure MaySend (m : MaxFrameSize) (it : FrameIter) (rest : List FrameIter) : Prop where
  alone : it.bytesProcessed = 0 → (it.nextOwned m).2 ≠ none →
    ∀ it' ∈ rest, it'.startedOn it.header.channel.get.toNat = false
  apart : it.header.kind = .ok .cancelReq →
    ∀ it' ∈ rest, it'.startedOn it.header.channel.get.toNat = true → it'.header.id ≠ it.header.id

theorem openedBy_of_none {i : Nat} {its : List FrameIter} (h : ∀ it ∈ its, it.startedOn i = false) :
    openedBy i its = 0 := by
  have hf : its.filter (fun it => it.startedOn i) = [] := by
    rw [List.filter_eq_nil_iff]
    intro it hin
    simp [h it hin]
  simp [openedBy, hf]

/-- Sending the next frame of one of the messages. -/
theorem Joined.send (h : Joined builder a b ab ba) {it : FrameIter} {rest sending : List FrameIter}
    (hp : a.sending.Perm (it :: rest))
    (hp' : sending.Perm ((it.nextOwned builder.maxFrameSize).2.toList ++ rest))
    (hs : MaySend builder.maxFrameSize it rest) :
    Joined builder { a with stream := a.stream ++ it.emit builder.maxFrameSize, sending := sending }
      b (ab ++ [it]) ba := by
  have hl := h.toward
  have hmem : it ∈ a.sending := hp.mem_iff.mpr (by simp)
  have hold : ∀ it' ∈ (ab ++ [it]) ++ sending,
      (it' ∈ ab ++ a.sending ∨ it' ∈ (it.nextOwned builder.maxFrameSize).2) := by
    intro it' hin
    simp only [List.mem_append, List.mem_singleton, hp'.mem_iff, Option.mem_toList] at hin ⊢
    rcases hin with (hin | rfl) | hin | hin
    · exact .inl (.inl hin)
    · exact .inl (.inr hmem)
    · exact .inr hin
    · exact .inl (.inr (hp.mem_iff.mpr (List.mem_cons_of_mem _ hin)))
  have hids := fun i => sent_ids hp hp' i
  refine ⟨⟨h.left.valid, h.left.config, h.left.frameSize, h.left.tracked⟩, h.right, ?_, ?_⟩
  · constructor
    · rw [List.map_append, List.flatten_append, ← hl.bytes]
      simp
    · intro it' hin
      rcases hold it' hin with hin | hn
      · exact hl.sendable it' hin
      · rw [(FrameIter.nextOwned_some hn).1]
        exact hl.sendable it (List.mem_append_right _ hmem)
    · intro it' hin
      rcases hold it' hin with hin | hn
      · exact hl.begun it' hin
      · exact fun _ => (FrameIter.nextOwned_some hn).2.2.2
    · intro i
      obtain ⟨r, hr, ho⟩ := hl.chain i
      rw [openedBy_perm hp] at ho
      have hgo : ∃ r', it.follow builder.maxFrameSize i r = some r' ∧
          r'.opened = openedBy i ((it.nextOwned builder.maxFrameSize).2.toList ++ rest) := by
        by_cases hi : it.header.channel.get.toNat = i
        · have hs' := hi ▸ hs.alone
          rcases Nat.eq_zero_or_pos it.bytesProcessed with h0 | hpos
          · have hnot : it.startedOn i = false := by simp [FrameIter.startedOn, h0]
            rw [openedBy_cons, hnot] at ho
            exact FrameIter.follow_first hi h0 ho (fun hn => openedBy_of_none (hs' h0 hn))
              (hi ▸ hs.apart)
          · have hyes : it.startedOn i = true := by simp [FrameIter.startedOn, hpos, hi]
            rw [openedBy_cons, hyes] at ho
            refine FrameIter.follow_later hi hpos ho ?_
            intro hk
            obtain ⟨_, channel, id, kind, _, hsend⟩ := hl.sendable it (List.mem_append_right _ hmem)
            have hhd : it.header = Header.new kind channel id := hsend.header
            rw [hhd, Header.new_kind] at hk
            cases Except.ok.inj hk
            have := (Channel.Sendable.payload_none hsend (by simp) (by simp)).1
            omega
        · obtain ⟨hf, hsame⟩ := FrameIter.follow_other (m := builder.maxFrameSize) hi r rest
          exact ⟨r, hf, by rw [hsame, ho]⟩
      obtain ⟨r', hf, ho'⟩ := hgo
      refine ⟨r', ?_, ho'.trans (openedBy_perm hp').symm⟩
      rw [List.foldlM_append, hr]
      simp [hf]
    · intro i
      refine (hl.balanced i).congr ?_ rfl
      rw [List.append_assoc, List.singleton_append, requestIds_append, (hids i).1,
        ← requestIds_append]
  · refine ⟨h.back.bytes, h.back.sendable, h.back.begun, h.back.chain, fun i => ?_⟩
    refine (h.back.balanced i).congr rfl ?_
    rw [List.append_assoc, List.singleton_append, answerIds_append, (hids i).2, ← answerIds_append]

/-- Taking up a message to be sent, with the bookkeeping that goes with it. -/
theorem Joined.post (h : Joined builder a b ab ba) {i : Fin N} {channel : ChannelId} {id : Id}
    {kind : Kind} {msg : OutgoingMessage} {sending : List FrameIter} (hi : channel.get.toNat = i)
    (hs : Sendable (builder.channelConfig i) channel id kind msg)
    (hp : sending.Perm (msg.frames :: a.sending)) {chan : Channel} {reported : Fin N → Finset Id}
    (hv : chan.Valid i) (hcfg : chan.config = (a.chan i).config)
    (hrec : chan.currentMultiframeReceiver = (a.chan i).currentMultiframeReceiver)
    (htracked : chan.incomingRequests.val =
      (reported i).val + (a.chan i).currentMultiframeReceiver.request)
    (hothers : ∀ j ≠ i, reported j = a.reported j)
    (hout : Balanced i chan (b.chan i) (msg.frames :: (ab ++ a.sending)) (ba ++ b.sending))
    (hin : Balanced i (b.chan i) chan (ba ++ b.sending) (msg.frames :: (ab ++ a.sending))) :
    Joined builder
      { a with protocol := a.protocol.setChannel i chan, sending := sending, reported := reported }
        b ab ba := by
  have hch : msg.frames.header.channel.get.toNat = i := by
    show msg.header.channel.get.toNat = i
    rw [hs.header, Header.new_channel, hi]
  have hlist : (ab ++ sending).Perm (msg.frames :: (ab ++ a.sending)) :=
    (hp.append_left ab).trans List.perm_middle
  have hold : ∀ it ∈ ab ++ sending, it = msg.frames ∨ it ∈ ab ++ a.sending := by
    intro it hit
    exact List.mem_cons.mp (hlist.mem_iff.mp hit)
  have hstill : ∀ j, openedBy j sending = openedBy j a.sending := by
    intro j
    have hnot : msg.frames.startedOn j = false := by simp [FrameIter.startedOn,
      OutgoingMessage.frames]
    rw [openedBy_perm hp, openedBy_cons, hnot]
    rfl
  -- The state of a channel after the call is `chan` on the channel of the message, and the old one
  -- elsewhere.
  have hother : ∀ {j : Fin N}, j ≠ i → (a.protocol.setChannel i chan).channels j = a.chan j :=
    fun hj => JulietProtocol.setChannel_of_ne _ hj _
  refine ⟨⟨h.left.valid.setChannel hv, fun j => ?_, h.left.frameSize, fun j => ?_⟩, h.right, ?_, ?_⟩
  · exact (JulietProtocol.setChannel_field Channel.config hcfg j).trans (h.left.config j)
  · show ((a.protocol.setChannel i chan).channels j).incomingRequests.val =
      (reported j).val + ((a.protocol.setChannel i chan).channels
        j).currentMultiframeReceiver.request
    by_cases hj : j = i
    · subst hj
      rw [JulietProtocol.setChannel_self, hrec, htracked]
    · rw [hother hj, hothers j hj, h.left.tracked]
  · refine ⟨h.toward.bytes, fun it hit => ?_, fun it hit => ?_, fun j => ?_, fun j => ?_⟩
    · rcases hold it hit with rfl | hit
      · exact ⟨i, channel, id, kind, hi, hs⟩
      · exact h.toward.sendable it hit
    · rcases hold it hit with rfl | hit
      · exact fun hpos => absurd hpos (by simp [OutgoingMessage.frames])
      · exact h.toward.begun it hit
    · obtain ⟨r, hr, ho⟩ := h.toward.chain j
      exact ⟨r, hr, ho.trans (hstill j).symm⟩
    · refine Balanced.congr ?_ (requestIds_perm hlist) rfl
      show Balanced j ((a.protocol.setChannel i chan).channels j) _ _ _
      by_cases hj : j = i
      · subst hj
        rw [JulietProtocol.setChannel_self]
        exact hout
      · have hne : msg.frames.header.channel.get.toNat ≠ j :=
          fun he => hj (Fin.ext (he.symm.trans hch))
        rw [hother hj]
        exact (Balanced.other hne).1.mpr (h.toward.balanced j)
  · refine ⟨h.back.bytes, h.back.sendable, h.back.begun, fun j => ?_, fun j => ?_⟩
    · have hsame : ((a.protocol.setChannel i chan).channels j).currentMultiframeReceiver =
          (a.chan j).currentMultiframeReceiver :=
            JulietProtocol.setChannel_field Channel.currentMultiframeReceiver hrec j
      show ∃ r, ba.foldlM _ ((a.protocol.setChannel i chan).channels j).currentMultiframeReceiver =
          some r ∧ _
      rw [hsame]
      exact h.back.chain j
    · refine Balanced.congr ?_ rfl (answerIds_perm hlist)
      show Balanced j _ ((a.protocol.setChannel i chan).channels j) _ _
      by_cases hj : j = i
      · subst hj
        rw [JulietProtocol.setChannel_self]
        exact hin
      · have hne : msg.frames.header.channel.get.toNat ≠ j :=
          fun he => hj (Fin.ext (he.symm.trans hch))
        rw [hother hj]
        exact (Balanced.other hne).2.mpr (h.back.balanced j)

theorem startsOn_frames (msg : OutgoingMessage) (i : Nat) :
    msg.frames.startsOn i = (msg.header.channel.get.toNat == i) := by
  simp [FrameIter.startsOn, OutgoingMessage.frames, FrameIter.header]

/-- The message of a request goes with the id that its channel records. -/
theorem Joined.request (h : Joined builder a b ab ba) {i : Fin N} {channel : ChannelId} {id : Id}
    {payload : Option Bytes} {sending : List FrameIter} (hi : channel.get.toNat = i)
    (hallowed : (a.chan i).allowedToSendRequest = true)
    (hwithin : JulietProtocol.PayloadWithin payload (a.chan i).config.maxRequestPayloadSize)
    (hgen : (a.chan i).Generates id)
    (hp : sending.Perm ((Channel.requestMessage channel id payload).frames :: a.sending)) :
    Joined builder
      { a with protocol := a.protocol.setChannel i ((a.chan i).withRequest id), sending := sending }
        b ab ba := by
  rw [h.left.config i] at hwithin
  have hs := Channel.requestMessage_sendable hwithin channel id
  have hhd : (Channel.requestMessage channel id payload).frames.header =
      Header.new (if payload.isSome then .requestPl else .request) channel id := hs.header
  have hreq : (Channel.requestMessage channel id payload).frames.header.isRequest = true :=
    Channel.requestMessage_isRequest channel id payload
  have hans : (Channel.requestMessage channel id payload).frames.header.isAnswer = false :=
    Channel.requestMessage_isAnswer channel id payload
  have hstart : (Channel.requestMessage channel id payload).frames.startsOn i = true := by
    rw [startsOn_frames]
    simp [hs.header, hi]
  refine h.post hi hs hp ((h.left.valid i).withRequest hallowed id) rfl rfl (h.left.tracked i)
    (fun _ _ => rfl) ?_ ?_
  · have hb := h.toward.balanced i
    unfold Balanced at hb ⊢
    rw [requestIds_cons, hstart, hreq, hhd, Header.new_id]
    simp only [Channel.withRequest, Finset.insert_val_of_notMem hgen.free, Bool.and_self,
      if_true, Multiset.cons_add]
    exact congrArg _ hb
  · have hb := h.back.balanced i
    unfold Balanced at hb ⊢
    rw [answerIds_cons, hstart, hans]
    exact hb

theorem Joined.createRequest (h : Joined builder a b ab ba) {channel : ChannelId}
    {payload : Option Bytes} {msg : OutgoingMessage} {p : JulietProtocol N}
    {sending : List FrameIter} (hc : a.protocol.createRequest channel payload = .ok (.ok msg, p))
    (hp : sending.Perm (msg.frames :: a.sending)) :
    Joined builder { a with protocol := p, sending := sending } b ab ba := by
  rcases JulietProtocol.createRequest_cases hc with ⟨_, hr, _⟩ | ⟨i, id, hlook, hallowed,
    hwithin, hgen, hr, rfl⟩
  · simp at hr
  cases Except.ok.inj hr
  exact h.request (JulietProtocol.lookupChannel_ok hlook) hallowed hwithin hgen hp

/-- The message of an answer goes with the id that its channel forgets. -/
theorem Joined.answer (h : Joined builder a b ab ba) {i : Fin N} {channel : ChannelId} {id : Id}
    {kind : Kind} {msg : OutgoingMessage} {sending : List FrameIter} {reported : Fin N → Finset Id}
    (hi : channel.get.toNat = i) (hs : Sendable (builder.channelConfig i) channel id kind msg)
    (hk : kind.isAnswer = true) (hin : id ∈ a.reported i)
    (hp : sending.Perm (msg.frames :: a.sending))
    (hrep : reported = Function.update a.reported i ((a.reported i).erase id)) :
    Joined builder
      { a with protocol := a.protocol.answered i id, sending := sending, reported := reported }
        b ab ba := by
  have hhd : msg.frames.header = Header.new kind channel id := hs.header
  have hans : msg.frames.header.isAnswer = true := by rw [hhd, Header.new_isAnswer, hk]
  have hreq : msg.frames.header.isRequest = false := by
    rw [hhd, Header.new_isRequest, Kind.isRequest_of_isAnswer hk]
  have hstart : msg.frames.startsOn i = true := by
    rw [startsOn_frames]
    simp [hs.header, hi]
  have htracked := h.left.tracked i
  have hmem : id ∈ (a.chan i).incomingRequests := by
    rw [← Finset.mem_val, htracked]
    exact Multiset.mem_add.mpr (.inl hin)
  refine h.post hi hs hp ((h.left.valid i).releaseIncoming id) rfl rfl ?_ ?_ ?_ ?_
  · have hval : ((a.chan i).incomingRequests.erase id).val =
        (a.reported i).val.erase id + (a.chan i).currentMultiframeReceiver.request := by
      rw [Finset.erase_val, htracked, Multiset.erase_add_left_pos _ hin]
    rw [hrep, Function.update_self, Finset.erase_val]
    exact hval
  · intro j hj
    rw [hrep, Function.update_of_ne hj]
  · have hb := h.toward.balanced i
    unfold Balanced at hb ⊢
    rw [requestIds_cons, hstart, hreq]
    exact hb
  · have hb := h.back.balanced i
    have hsplit : (a.chan i).incomingRequests.val =
        {id} + ((a.chan i).incomingRequests.erase id).val := by
      rw [Finset.erase_val, Multiset.singleton_add, Multiset.cons_erase hmem]
    unfold Balanced at hb ⊢
    rw [answerIds_cons, hstart, hans, hhd, Header.new_id, hb, hsplit]
    simp only [Bool.and_self, if_true, ← Multiset.singleton_add]
    show _ = _ + ((a.chan i).incomingRequests.erase id).val + _ + _
    abel

theorem Joined.cancelRequest (h : Joined builder a b ab ba) {channel : ChannelId} {id : Id}
    {msg : OutgoingMessage} {p : JulietProtocol N} {sending : List FrameIter}
    (hc : a.protocol.cancelRequest channel id = (.ok (some msg), p))
    (hp : sending.Perm (msg.frames :: a.sending)) :
    Joined builder { a with protocol := p, sending := sending } b ab ba := by
  obtain ⟨i, hlook, hout, rfl⟩ := JulietProtocol.cancelRequest_some (congrArg Prod.fst hc)
  have hself : p = a.protocol.setChannel i (a.protocol.channels i) := by
    rw [← JulietProtocol.cancelRequest_state a.protocol channel id, hc]
    simp [JulietProtocol.setChannel]
  have hi := JulietProtocol.lookupChannel_ok hlook
  have hs : Sendable (builder.channelConfig i) channel id .cancelReq
      (createUncheckedRequestCancellation channel id) :=
    .cancelReq
  have hhd : (createUncheckedRequestCancellation channel id).frames.header =
      Header.new .cancelReq channel id := hs.header
  rw [hself]
  refine h.post hi hs hp (h.left.valid i) rfl rfl (h.left.tracked i) (fun _ _ => rfl) ?_ ?_
  · refine (h.toward.balanced i).congr ?_ rfl
    rw [requestIds_cons, hhd]
    simp [Kind.isRequest]
  · refine (h.back.balanced i).congr rfl ?_
    rw [answerIds_cons, hhd]
    simp [Kind.isAnswer]

end

end Juliet
