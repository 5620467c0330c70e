import Juliet.Lane

namespace Juliet

open Rust Incremental

section

variable {N : Nat} {builder : ProtocolBuilder N} {a b : Side N} {ab ba : List FrameIter}
  {it : FrameIter}

theorem FrameIter.follow_on {m : MaxFrameSize} {i : Nat} {r r' : MultiframeReceiver}
    (hi : it.header.channel.get.toNat = i) (h : it.follow m i r = some r') :
    it.passOver m r = some r' ∧
    (it.header.kind = .ok .cancelReq → ∀ h ∈ r.inProgressHeader, h.id ≠ it.header.id) := by
  rw [follow, if_pos hi] at h
  split at h
  next => simp at h
  next hapart =>
    refine ⟨h, ?_⟩
    intro hk hd hin he
    exact hapart ⟨hk, (Option.any_eq_true _ _).mpr ⟨hd, hin, by simp [he]⟩⟩

/-- What is known of the next frame that reaches a side. -/
structure Expected (builder : ProtocolBuilder N) (side : Side N) (it : FrameIter) (i : Fin N)
    (channel : ChannelId) (id : Id) (kind : Kind) (receiver : MultiframeReceiver) : Prop where
  index : channel.get.toNat = i
  sendable : Sendable (side.chan i).config channel id kind it.msg
  more : 0 < it.bytesProcessed → it.bytesProcessed < it.msg.payloadLen
  passOver : it.passOver builder.maxFrameSize (side.chan i).currentMultiframeReceiver =
    some receiver
  admits : (side.chan i).Admits kind id it

theorem Expected.header {i : Fin N} {channel : ChannelId} {id : Id} {kind : Kind}
    {receiver : MultiframeReceiver} (h : Expected builder a it i channel id kind receiver) :
    it.header = Header.new kind channel id :=
  h.sendable.header

theorem Expected.channel_eq {i : Fin N} {channel : ChannelId} {id : Id} {kind : Kind}
    {receiver : MultiframeReceiver} (h : Expected builder a it i channel id kind receiver) :
    it.header.channel.get.toNat = i := by
  rw [h.header, Header.new_channel, h.index]

/-- The receiver has nothing to object to the next frame, unless it is one cancellation too many. -/
theorem Joined.expected (h : Joined builder a b ab (it :: ba))
    (hall : it.header.kind = .ok .cancelReq → ∀ i : Fin N, it.header.channel.get.toNat = i →
      0 < (a.chan i).cancellationAllowance) :
    ∃ (i : Fin N) (channel : ChannelId) (id : Id) (kind : Kind) (receiver : MultiframeReceiver),
      Expected builder a it i channel id kind receiver ∧ ∃ r,
        ba.foldlM (FrameIter.follow builder.maxFrameSize i) receiver = some r ∧
    r.opened = openedBy i b.sending := by
  obtain ⟨i, channel, id, kind, hi, hs⟩ := h.back.sendable it (by simp)
  have hmore := h.back.begun it (by simp)
  have hhd : it.header = Header.new kind channel id := hs.header
  have hch : it.header.channel.get.toNat = i := by rw [hhd, Header.new_channel, hi]
  obtain ⟨r, hr, ho⟩ := h.back.chain i
  rw [List.foldlM_cons] at hr
  obtain ⟨receiver, hf, hr⟩ := Option.bind_eq_some_iff.mp hr
  obtain ⟨hpass, hapart⟩ := FrameIter.follow_on hch hf
  have hto : Balanced i (b.chan i) (a.chan i) (it :: (ba ++ b.sending)) (ab ++ a.sending) :=
    h.back.balanced i
  have hfrom : Balanced i (a.chan i) (b.chan i) (ab ++ a.sending) (it :: (ba ++ b.sending)) :=
    h.toward.balanced i
  have hstart : it.bytesProcessed = 0 → it.startsOn i = true :=
    fun h0 => by simp [FrameIter.startsOn, h0, hch]
  have hid : it.header.id = id := by simp [hhd]
  have hfresh : kind.isRequest = true → it.bytesProcessed = 0 →
      id ∉ (a.chan i).incomingRequests ∧
        (a.chan i).incomingRequests.card < (a.chan i).config.requestLimit.toNat := by
    intro hk h0
    have hout := (h.right.valid i).outgoing_le
    rw [show (b.protocol.channels i).config = _ from h.right.config i, ← h.left.config i] at hout
    have hnew := hto.fresh (hstart h0) (by simp [hhd, hk]) hout
    rwa [hid] at hnew
  refine ⟨i, channel, id, kind, receiver, ⟨hi, by rwa [h.left.config i], hmore, hpass, ?_⟩, r, hr,
    ho⟩
  constructor
  · exact fun hk h0 => hfresh (Kind.isRequest_iff.mpr hk) h0
  · intro hk
    have hans : it.header.isAnswer = true := by simp [hhd, Kind.isAnswer_iff.mpr hk]
    rw [← hid]
    rcases FrameIter.passOver_cases hpass with ⟨h0, _⟩ | ⟨h0, _⟩ | ⟨_, hin, _⟩
    · exact hfrom.asked_start (hstart h0) hans
    · exact hfrom.asked_start (hstart h0) hans
    · exact hfrom.asked_later hin hans
  · rintro rfl
    have hkind : it.header.kind = .ok .cancelReq := by simp [hhd]
    refine ⟨hall hkind i hch, ?_⟩
    rw [← hid]
    exact hapart hkind
  · intro h0 hin
    by_cases hans : kind.isAnswer = true
    · exact hfrom.apart (hstart h0) (by simp [hhd, hans]) hin
    · by_cases hk : kind.isRequest = true
      · have hmem : id ∈ (a.chan i).incomingRequests := by
          rw [← Finset.mem_val, h.left.tracked i, MultiframeReceiver.request_of_header hin, hhd]
          simp [hk]
        exact (hfresh hk h0).1 hmem
      · cases hc : (a.chan i).currentMultiframeReceiver with
        | ready => simp [hc, MultiframeReceiver.inProgressHeader] at hin
        | inProgress hd p t =>
          rw [hc] at hin
          cases Option.some.inj hin
          obtain ⟨_, _, _, hkinds⟩ := (h.left.valid i).transfer hc
          rcases hkinds with ⟨he, _⟩ | ⟨he, _⟩
          · rw [hhd] at he
            obtain ⟨rfl, _, _⟩ := Header.new_inj.mp he
            exact hk rfl
          · rw [hhd] at he
            obtain ⟨rfl, _, _⟩ := Header.new_inj.mp he
            exact hans rfl

theorem reportedBy_deliver {chan : Channel} {m : MaxFrameSize} {kind : Kind} {channel : ChannelId}
    {id : Id} {receiver : MultiframeReceiver} (hs : Sendable chan.config channel id kind it.msg)
    (i : Nat) :
    reportedBy i (chan.deliver m kind channel id it receiver).1.toList =
      if channel.get.toNat = i ∧ kind.isRequest = true ∧ (it.nextOwned m).2 = none then {id}
      else ∅ := by
  have hone : reportedBy i [CompletedRead.newRequest channel id it.msg.payload] =
      if channel.get.toNat = i then {id} else ∅ := by
    by_cases hi : channel.get.toNat = i
    · simp [reportedBy, CompletedRead.requestOn, hi]
    · simp [reportedBy, CompletedRead.requestOn, hi]
  have hnone : ∀ k : Kind, k.isRequest = false →
      (if channel.get.toNat = i ∧ k.isRequest = true ∧ (it.nextOwned m).2 =
        none then {id} else ∅ : Finset Id) = ∅ := by
    intro k hk
    simp [hk]
  cases kind with
  | request =>
    obtain ⟨_, hn⟩ := Channel.Sendable.payload_none hs (by simp) (by simp)
    have hpl : it.msg.payload = none := by
      generalize it.msg = msg at hs
      cases hs
      rfl
    rw [hpl] at hone
    simp only [Channel.deliver, Option.toList_some, hone, hn m, Kind.isRequest, and_self, and_true]
  | requestPl =>
    by_cases hn : (it.nextOwned m).2 = none
    · simp only [Channel.deliver, hn, if_true, Option.toList_some, hone,
        Kind.isRequest, and_self, and_true]
    · simp [Channel.deliver, hn, reportedBy]
  | responsePl =>
    rw [hnone _ rfl]
    by_cases hn : (it.nextOwned m).2 = none
    · simp [Channel.deliver, hn, reportedBy, CompletedRead.requestOn]
    · simp [Channel.deliver, hn, reportedBy]
  | cancelReq =>
    rw [hnone _ rfl]
    by_cases hin : id ∈ chan.incomingRequests
    · simp [Channel.deliver, hin, reportedBy, CompletedRead.requestOn]
    · simp [Channel.deliver, hin, reportedBy]
  | response | cancelResp =>
    rw [hnone _ rfl]
    simp [Channel.deliver, reportedBy, CompletedRead.requestOn]

/-- A request is registered with its first frame and reported with its last. -/
theorem Channel.deliver_tracked {chan : Channel} {m : MaxFrameSize} {kind : Kind}
    {channel : ChannelId} {id : Id} {i : Nat} {receiver : MultiframeReceiver} {reported : Finset Id}
    (hi : channel.get.toNat = i) (hs : Sendable chan.config channel id kind it.msg)
    (ha : chan.Admits kind id it)
    (hpass : it.passOver m chan.currentMultiframeReceiver = some receiver)
    (ht : chan.incomingRequests.val = reported.val + chan.currentMultiframeReceiver.request) :
    (chan.deliver m kind channel id it receiver).2.incomingRequests.val =
      (reported ∪ reportedBy i (chan.deliver m kind channel id it receiver).1.toList).val +
        (chan.deliver m kind channel id it receiver).2.currentMultiframeReceiver.request := by
  have hhd : it.header = Header.new kind channel id := hs.header
  rw [deliver_incoming hs, deliver_receiver hs hpass, reportedBy_deliver hs]
  simp only [hi, true_and]
  by_cases hk : kind.isRequest = true
  · have hfresh : it.bytesProcessed = 0 → id ∉ chan.incomingRequests :=
      fun h0 => (ha.fresh (Kind.isRequest_iff.mp hk) h0).1
    have hknown : id ∉ chan.incomingRequests → id ∉ reported := by
      intro hn hin
      exact hn (by rw [← Finset.mem_val, ht]; exact Multiset.mem_add.mpr (.inl hin))
    simp only [hk, true_and]
    rcases FrameIter.passOver_cases hpass with ⟨h0, hn, rfl⟩ | ⟨h0, hn, hr,
      hin⟩ | ⟨hpos, hin, hnext⟩
    · rw [if_pos h0, if_pos hn, Finset.insert_val_of_notMem (hfresh h0), ht,
        Finset.union_comm, ← Finset.insert_eq, Finset.insert_val_of_notMem (hknown (hfresh h0)),
        Multiset.cons_add]
    · rw [if_pos h0, if_neg hn, Finset.insert_val_of_notMem (hfresh h0), ht, hr, Finset.union_empty,
        MultiframeReceiver.request_of_header hin, hhd]
      simp [hk, MultiframeReceiver.request, Multiset.add_comm _ ({id} : Multiset Id)]
    · rw [MultiframeReceiver.request_of_header hin, hhd] at ht
      simp only [Header.new_isRequest, hk, if_true, Header.new_id] at ht
      rw [if_neg (by omega)]
      rcases hnext with ⟨hn, rfl⟩ | ⟨hn, hin'⟩
      · have hnot : id ∉ reported := by
          intro hmem
          have hnd := chan.incomingRequests.nodup
          rw [ht, Multiset.add_comm, Multiset.singleton_add, Multiset.nodup_cons] at hnd
          exact hnd.1 hmem
        rw [if_pos hn, ht, Finset.union_comm, ← Finset.insert_eq, Finset.insert_val_of_notMem hnot]
        simp [MultiframeReceiver.request, Multiset.add_comm _ ({id} : Multiset Id)]
      · rw [if_neg hn, ht, MultiframeReceiver.request_of_header hin', hhd]
        simp [hk]
  · have hreq : receiver.request = chan.currentMultiframeReceiver.request := by
      rcases FrameIter.passOver_cases hpass with ⟨h0, hn, rfl⟩ | ⟨h0, hn, hr, hin⟩ | ⟨hpos, hin,
        ⟨hn, rfl⟩ | ⟨hn, hin'⟩⟩
      · rfl
      · rw [MultiframeReceiver.request_of_header hin, hr, hhd]
        simp [hk, MultiframeReceiver.request]
      · rw [MultiframeReceiver.request_of_header hin, hhd]
        simp [hk, MultiframeReceiver.request]
      · rw [MultiframeReceiver.request_of_header hin, MultiframeReceiver.request_of_header hin']
    rw [if_neg (fun hc => hk hc.1), if_neg (fun hc => hk hc.1), Finset.union_empty, hreq, ht]

/-- What is reported has not been reported before. -/
theorem Channel.deliver_new {chan : Channel} {m : MaxFrameSize} {kind : Kind} {channel : ChannelId}
    {id : Id} {receiver : MultiframeReceiver} {reported : Finset Id}
    (hs : Sendable chan.config channel id kind it.msg) (ha : chan.Admits kind id it)
    (hpass : it.passOver m chan.currentMultiframeReceiver = some receiver)
    (ht : chan.incomingRequests.val = reported.val + chan.currentMultiframeReceiver.request)
    (i : Nat) :
    Disjoint reported (reportedBy i (chan.deliver m kind channel id it receiver).1.toList) := by
  rw [reportedBy_deliver hs]
  split
  next hc =>
    obtain ⟨_, hk, hn⟩ := hc
    rw [Finset.disjoint_singleton_right]
    intro hmem
    rcases FrameIter.passOver_cases hpass with ⟨h0, _, _⟩ | ⟨_, hne, _⟩ | ⟨_, hin, _⟩
    · refine (ha.fresh (Kind.isRequest_iff.mp hk) h0).1 ?_
      rw [← Finset.mem_val, ht]
      exact Multiset.mem_add.mpr (.inl hmem)
    · exact hne hn
    · have hhd : it.header = Header.new kind channel id := hs.header
      have hnd := chan.incomingRequests.nodup
      rw [ht, MultiframeReceiver.request_of_header hin, hhd, Header.new_isRequest, hk,
        Multiset.add_comm] at hnd
      simp only [if_true, Header.new_id, Multiset.singleton_add, Multiset.nodup_cons] at hnd
      exact hnd.1 hmem
  next => exact Finset.disjoint_empty_right _

/-- Processing the next frame leaves the rest on its way. -/
theorem Joined.deliver (h : Joined builder a b ab (it :: ba)) {i : Fin N} {channel : ChannelId}
    {id : Id} {kind : Kind} {receiver r : MultiframeReceiver}
    (he : Expected builder a it i channel id kind receiver)
    (hr : ba.foldlM (FrameIter.follow builder.maxFrameSize i) receiver = some r)
    (ho : r.opened = openedBy i b.sending) {p : JulietProtocol N}
    (hp : p = a.protocol.setChannel i
      ((a.chan i).deliver builder.maxFrameSize kind channel id it receiver).2)
    (hv : p.Valid) {buffer : Bytes} (hb : a.buffer = it.emit builder.maxFrameSize ++ buffer) :
    Joined builder
      (a.took p buffer
        ((a.chan i).deliver builder.maxFrameSize kind channel id it receiver).1.toList)
      b ab ba := by
  have hs := he.sendable
  have hself : p.channels i =
      ((a.chan i).deliver builder.maxFrameSize kind channel id it receiver).2 := by
    rw [hp, JulietProtocol.setChannel_self]
  have hother : ∀ {j : Fin N}, j ≠ i → p.channels j = a.chan j := by
    intro j hj
    rw [hp]
    exact JulietProtocol.setChannel_of_ne _ hj _
  have hne : ∀ {j : Fin N}, j ≠ i → it.header.channel.get.toNat ≠ j :=
    fun hj hc => hj (Fin.ext (hc.symm.trans he.channel_eq))
  have hto : ∀ j : Fin N, Balanced j (b.chan j) (a.chan j) (it :: (ba ++ b.sending))
      (ab ++ a.sending) :=
    h.back.balanced
  have hfrom : ∀ j : Fin N, Balanced j (a.chan j) (b.chan j) (ab ++ a.sending)
      (it :: (ba ++ b.sending)) :=
    h.toward.balanced
  refine ⟨⟨hv, fun j => ?_, by rw [← h.left.frameSize, Side.took, hp]; rfl, fun j => ?_⟩,
    h.right, ?_, ?_⟩
  · show (p.channels j).config = _
    by_cases hj : j = i
    · subst hj
      rw [hself, Channel.deliver_config, h.left.config]
    · rw [hother hj, h.left.config]
  · show (p.channels j).incomingRequests.val =
      (a.reported j ∪ reportedBy j _).val + (p.channels j).currentMultiframeReceiver.request
    by_cases hj : j = i
    · subst hj
      rw [hself]
      exact Channel.deliver_tracked he.index hs he.admits he.passOver (h.left.tracked j)
    · have hidx : channel.get.toNat ≠ j := fun hc => hj (Fin.ext (hc.symm.trans he.index))
      rw [hother hj, h.left.tracked j, reportedBy_deliver hs, if_neg (fun hc => hidx hc.1),
        Finset.union_empty]
  · refine ⟨h.toward.bytes, h.toward.sendable, h.toward.begun, h.toward.chain, fun j => ?_⟩
    show Balanced j (p.channels j) (b.chan j) _ _
    by_cases hj : j = i
    · subst hj
      rw [hself]
      exact (hfrom j).deliver_answerer hs he.index he.passOver
    · rw [hother hj]
      exact (Balanced.other (hne hj)).2.mp (hfrom j)
  · refine ⟨?_, fun it' hin => h.back.sendable it' (List.mem_cons_of_mem _ hin),
      fun it' hin => h.back.begun it' (List.mem_cons_of_mem _ hin), fun j => ?_, fun j => ?_⟩
    · have hbytes := h.back.bytes
      rw [hb, List.map_cons, List.flatten_cons, List.append_assoc] at hbytes
      exact List.append_cancel_left hbytes
    · show ∃ r, ba.foldlM _ (p.channels j).currentMultiframeReceiver = some r ∧ _
      by_cases hj : j = i
      · subst hj
        rw [hself, Channel.deliver_receiver hs he.passOver]
        exact ⟨r, hr, ho⟩
      · obtain ⟨r', hr', ho'⟩ := h.back.chain j
        rw [List.foldlM_cons,
          (FrameIter.follow_other (m := builder.maxFrameSize) (hne hj) _ []).1] at hr'
        rw [hother hj]
        exact ⟨r', hr', ho'⟩
    · show Balanced j (b.chan j) (p.channels j) _ _
      by_cases hj : j = i
      · subst hj
        rw [hself]
        exact (hto j).deliver_requester hs he.index
      · rw [hother hj]
        exact (Balanced.other (hne hj)).1.mp (hto j)

/-- A cancellation that is accepted has been paid for. -/
theorem ChannelStep.allowance_pos {header : Header} {buffer rest : Bytes} {self c : Channel}
    {o : Option ReadOutcome} (h : ChannelStep header buffer self .cancelReq o c rest)
    (hp : Progress o) : 0 < self.cancellationAllowance := by
  cases h with
  | wait _ n =>
    obtain ⟨read, hr⟩ := hp _ rfl
    simp at hr
  | refuse _ err =>
    obtain ⟨read, hr⟩ := hp _ rfl
    simp [errMsg] at hr
  | cancelReqLate hpos _ => exact hpos
  | cancelReq hpos _ => exact hpos

theorem JulietProtocol.frontHeader_append {buffer : Bytes} {header : Header}
    (h : frontHeader buffer = some header) (rest : Bytes) :
    frontHeader (buffer ++ rest) = some header := by
  unfold frontHeader at h
  split at h
  next => exact h
  next => simp at h

theorem JulietProtocol.frontHeader_emit {m : MaxFrameSize} {kind : Kind} {channel : ChannelId}
    {id : Id} (h : it.header = Header.new kind channel id) (rest : Bytes) :
    frontHeader (it.emit m ++ rest) = some it.header := by
  rw [FrameIter.emit_eq_body, h, List.append_assoc]
  exact Header.parse_new _ _ _

/-- The frame that a side has processed, and what it has returned for it. -/
def Side.Delivers (builder : ProtocolBuilder N) (side : Side N) (it : FrameIter)
    (out : Option CompletedRead) : Prop :=
  ∃ (i : Fin N) (channel : ChannelId) (id : Id) (kind : Kind) (receiver : MultiframeReceiver),
    Expected builder side it i channel id kind receiver ∧
      out = ((side.chan i).deliver builder.maxFrameSize kind channel id it receiver).1

/-- A cancellation that has been processed was within the allowance of its channel. -/
theorem Joined.allowance_pos (h : Joined builder a b ab (it :: ba)) {out : Option CompletedRead}
    {p : JulietProtocol N} {buffer : Bytes}
    (hp : a.protocol.frameAttempt a.buffer = .ok (.consumed out, p, buffer))
    (hk : it.header.kind = .ok .cancelReq) {i : Fin N} (hi : it.header.channel.get.toNat = i) :
    0 < (a.chan i).cancellationAllowance := by
  obtain ⟨_, channel, id, kind, _, hs⟩ := h.back.sendable it (by simp)
  have hhd : it.header = Header.new kind channel id := hs.header
  have hfront : ∀ header, JulietProtocol.frontHeader a.buffer = some header →
      header = it.header := by
    intro header hf
    have hall := JulietProtocol.frontHeader_append hf b.stream
    rw [h.back.bytes, List.map_cons, List.flatten_cons, JulietProtocol.frontHeader_emit hhd] at hall
    exact (Option.some.inj hall).symm
  obtain ⟨o, hpf, ho⟩ := JulietProtocol.frameAttempt_ok hp
  have hprog : Progress o := by
    intro o' ho'
    rcases JulietProtocol.attempt_consumed ho.symm with ⟨hn, _⟩ | ⟨read, hread, _⟩
    · simp [hn] at ho'
    · exact ⟨read, Option.some.inj (ho'.symm.trans hread)⟩
  cases JulietProtocol.processFrame_inv h.left.valid hpf with
  | wait n =>
    obtain ⟨read, hr⟩ := hprog _ rfl
    simp at hr
  | refuse err _ =>
    obtain ⟨read, hr⟩ := hprog _ rfl
    simp at hr
  | error header _ _ hf he _ _ =>
    rw [hfront header hf, hhd, Header.new_isError] at he
    simp at he
  | frame header kind' j _ c _ hf hnew hj hstep =>
    cases hfront header hf
    rw [hnew, Header.new_kind] at hk
    cases Except.ok.inj hk
    cases Fin.ext (hj.symm.trans hi)
    exact hstep.allowance_pos hprog

/-- One iteration of `process_incoming` on what a peer sent refuses nothing but a cancellation. -/
theorem Joined.frame (h : Joined builder a b ab ba)
    {r : Attempt NonZeroU32 OutgoingMessage CompletedRead} {p : JulietProtocol N} {buffer : Bytes}
    (hp : a.protocol.frameAttempt a.buffer = .ok (r, p, buffer)) :
    (∃ n, r = .incomplete n ∧ p = a.protocol ∧ buffer = a.buffer) ∨
      (∃ err, r = .fatal err ∧ ∃ it ∈ ba, it.header.kind = .ok .cancelReq) ∨
      ∃ it ba' out, ba = it :: ba' ∧ r = .consumed out ∧ a.Delivers builder it out ∧
        Joined builder (a.took p buffer out.toList) b ab ba' := by
  have hstable := JulietProtocol.frameAttempt_stable (N := N)
  have hv := h.left.valid
  cases ba with
  | nil =>
    have hbytes := h.back.bytes
    simp only [List.map_nil, List.flatten_nil, List.append_eq_nil_iff] at hbytes
    rw [hbytes.1] at hp ⊢
    have hi : a.protocol.frameAttempt [] =
        .ok (.incomplete ⟨4, by decide, by decide⟩, a.protocol, []) := rfl
    have he := Except.ok.inj (hp.symm.trans hi)
    simp only [Prod.mk.injEq] at he
    exact .inl ⟨_, he.1, he.2.1, he.2.2⟩
  | cons it ba =>
    by_cases hc : it.header.kind = .ok .cancelReq ∧ ∀ out, r ≠ .consumed out
    · cases r with
      | incomplete n =>
        obtain ⟨rfl, rfl⟩ := hstable.waits hv hp
        exact .inl ⟨n, rfl, rfl, rfl⟩
      | fatal err => exact .inr (.inl ⟨err, rfl, it, by simp, hc.1⟩)
      | consumed out => exact absurd rfl (hc.2 out)
    · have hall : it.header.kind = .ok .cancelReq → ∀ i : Fin N, it.header.channel.get.toNat = i →
          0 < (a.chan i).cancellationAllowance := by
        intro hk i hi
        obtain ⟨out, rfl⟩ : ∃ out, r = .consumed out := by
          by_contra hn
          exact hc ⟨hk, fun out he => hn ⟨out, he⟩⟩
        exact h.allowance_pos hp hk hi
      obtain ⟨i, channel, id, kind, receiver, he, r', hr', ho'⟩ := h.expected hall
      have hpass := he.passOver
      rw [← h.left.frameSize] at hpass
      have hgo := fun rest => JulietProtocol.frameAttempt_of
        (JulietProtocol.processFrame_honest he.index he.sendable he.admits hpass he.more rest)
      rw [h.left.frameSize] at hgo
      have hbytes := h.back.bytes
      rw [List.map_cons, List.flatten_cons] at hbytes
      rcases hstable.front hv hgo hbytes with ⟨n, hn⟩ | ⟨rest, hrest, htook⟩
      · have heq := Except.ok.inj (hp.symm.trans hn)
        simp only [Prod.mk.injEq] at heq
        exact .inl ⟨n, heq.1, heq.2.1, heq.2.2⟩
      · have hkeeps := hstable.keeps hv htook
        have heq := Except.ok.inj (hp.symm.trans htook)
        simp only [Prod.mk.injEq, JulietProtocol.attempt_read] at heq
        obtain ⟨rfl, rfl, rfl⟩ := heq
        exact .inr (.inr ⟨it, ba, _, rfl, rfl, ⟨i, channel, id, kind, receiver, he, rfl⟩,
          h.deliver he hr' ho' rfl hkeeps hrest⟩)

/-- The read that the last frame of a message completes. -/
def FrameIter.completes (m : MaxFrameSize) (it : FrameIter) : Option CompletedRead :=
  if (it.nextOwned m).2 = none then it.msg.asRead else none

theorem Side.Delivers.read {out : Option CompletedRead} (h : a.Delivers builder it out)
    (hk : it.header.kind ≠ .ok .cancelReq) : out = it.completes builder.maxFrameSize := by
  obtain ⟨i, channel, id, kind, receiver, he, rfl⟩ := h
  have hhd : it.msg.header = Header.new kind channel id := he.header
  have hkind : kind ≠ .cancelReq := by
    rintro rfl
    exact hk (by rw [he.header, Header.new_kind])
  by_cases hn : (it.nextOwned builder.maxFrameSize).2 = none
  · rw [JulietProtocol.deliver_read he.sendable (fun hc => absurd hc hkind) hn,
      FrameIter.completes, if_pos hn, OutgoingMessage.asRead, hhd]
    simp [Except.toOption]
  · obtain ⟨it', hit'⟩ := Option.ne_none_iff_exists'.mp hn
    rw [FrameIter.completes, if_neg hn]
    exact JulietProtocol.deliver_pending he.sendable hit'

theorem Side.Delivers.new {out : Option CompletedRead} (hs : a.Sound builder)
    (h : a.Delivers builder it out) (j : Fin N) :
    Disjoint (a.reported j) (reportedBy j out.toList) := by
  obtain ⟨i, channel, id, kind, receiver, he, rfl⟩ := h
  by_cases hj : j = i
  · subst hj
    exact Channel.deliver_new he.sendable he.admits he.passOver (hs.tracked j) j
  · have hidx : channel.get.toNat ≠ j := fun hc => hj (Fin.ext (hc.symm.trans he.index))
    rw [reportedBy_deliver he.sendable, if_neg (fun hc => hidx hc.1)]
    exact Finset.disjoint_empty_right _

theorem Side.took_took (side : Side N) (p p' : JulietProtocol N) (buffer buffer' : Bytes)
    (reads more : List CompletedRead) :
    (side.took p buffer reads).took p' buffer' more = side.took p' buffer' (reads ++ more) := by
  simp [took, reportedBy_append, Finset.union_assoc]

theorem Side.took_nil (side : Side N) : side.took side.protocol side.buffer [] = side := by
  simp [took, reportedBy]

/-- Moving bytes from the stream to the buffer at its other end. -/
theorem Joined.arrive (h : Joined builder a b ab ba) (k : Nat) :
    Joined builder { a with buffer := a.buffer ++ b.stream.take k }
      { b with stream := b.stream.drop k } ab ba := by
  refine ⟨⟨h.left.valid, h.left.config, h.left.frameSize, h.left.tracked⟩,
    ⟨h.right.valid, h.right.config, h.right.frameSize, h.right.tracked⟩,
    ⟨h.toward.bytes, h.toward.sendable, h.toward.begun, h.toward.chain, h.toward.balanced⟩,
    ⟨?_, h.back.sendable, h.back.begun, h.back.chain, h.back.balanced⟩⟩
  rw [← h.back.bytes, List.append_assoc, List.take_append_drop]

/-- Processing whatever has arrived stops for want of data, unless it meets a cancellation too
many. -/
theorem Joined.runs (h : Joined builder a b ab ba) {reads : List CompletedRead}
    {stop : NonZeroU32 ⊕ OutgoingMessage} {p : JulietProtocol N} {buffer : Bytes}
    (hr : Runs JulietProtocol.frameAttempt a.protocol a.buffer reads stop p buffer) :
    (∃ err, stop = .inr err ∧ ∃ it ∈ ba, it.header.kind = .ok .cancelReq) ∨
      ∃ n taken ba', stop = .inl n ∧ ba = taken ++ ba' ∧
        Joined builder (a.took p buffer reads) b ab ba' ∧
        ((∀ it ∈ taken, it.header.kind ≠ .ok .cancelReq) →
          reads = taken.filterMap (FrameIter.completes builder.maxFrameSize)) := by
  generalize hq : a.protocol = q at hr
  generalize hc : a.buffer = c at hr
  induction hr generalizing a ba with
  | incomplete ha =>
    subst hq hc
    rcases h.frame ha with ⟨n, hn, rfl, rfl⟩ | ⟨err, hn, _⟩ | ⟨it, ba', out, _, hn, _, _⟩
    · refine .inr ⟨_, [], ba, rfl, rfl, ?_, fun _ => rfl⟩
      rw [Side.took_nil]
      exact h
    · simp at hn
    · simp at hn
  | fatal ha =>
    subst hq hc
    rcases h.frame ha with ⟨n, hn, _, _⟩ | ⟨err, _, hcancel⟩ | ⟨it, ba', out, _, hn, _, _⟩
    · simp at hn
    · exact .inl ⟨_, rfl, hcancel⟩
    · simp at hn
  | @consumed _ _ out _ _ outs _ _ _ ha _ ih =>
    subst hq hc
    rcases h.frame ha with ⟨n, hn, _, _⟩ | ⟨err, hn, _⟩ | ⟨it, ba', out', rfl, hn, hdel, hnext⟩
    · simp at hn
    · simp at hn
    · cases hn
      rcases ih hnext rfl rfl with ⟨err, rfl, it', hin, hk⟩ | ⟨n, taken, rest,
        rfl, rfl, hend, hreads⟩
      · exact .inl ⟨err, rfl, it', List.mem_cons_of_mem _ hin, hk⟩
      · refine .inr ⟨n, it :: taken, rest, rfl, rfl, by rwa [Side.took_took] at hend, ?_⟩
        intro hk
        rw [hreads (fun it' hin => hk it' (List.mem_cons_of_mem _ hin)),
          hdel.read (hk it (by simp)), List.filterMap_cons]
        cases it.completes builder.maxFrameSize <;> rfl

/-- A call of `process_incoming` after bytes have arrived, repeated until it stops. -/
theorem Joined.receive (h : Joined builder a b ab ba) (k : Nat) {reads : List CompletedRead}
    {stopped : Stopped N}
    (hr : a.protocol.receive (a.buffer ++ b.stream.take k) = .ok (reads, stopped)) :
    (∃ err, stopped = .fatal err ∧ ∃ it ∈ ba, it.header.kind = .ok .cancelReq) ∨
      ∃ n p buffer taken ba', stopped = .waiting n p buffer ∧ ba = taken ++ ba' ∧
        Joined builder (a.took p buffer reads) { b with stream := b.stream.drop k } ab ba' ∧
        ((∀ it ∈ taken, it.header.kind ≠ .ok .cancelReq) →
          reads = taken.filterMap (FrameIter.completes builder.maxFrameSize)) := by
  obtain ⟨outs, stop, p, buffer, hruns⟩ :=
    JulietProtocol.frameAttempt_stable.runs_exists h.left.valid
    (a.buffer ++ b.stream.take k)
  have he := Except.ok.inj (hr.symm.trans (JulietProtocol.receive_of_runs h.left.valid hruns))
  simp only [Prod.mk.injEq] at he
  obtain ⟨rfl, rfl⟩ := he
  rcases (h.arrive k).runs hruns with ⟨err, rfl, hcancel⟩ | ⟨n, taken, ba', rfl,
    hsplit, hend, hreads⟩
  · exact .inl ⟨err, rfl, hcancel⟩
  · exact .inr ⟨n, p, buffer, taken, ba', rfl, hsplit, hend, hreads⟩

/-- The frames that a call of `process_incoming` takes in before it returns complete nothing. -/
theorem Joined.iterates (h : Joined builder a b ab ba)
    (hplain : ∀ it ∈ ba, it.header.kind ≠ .ok .cancelReq) {p : JulietProtocol N} {buffer : Bytes}
    (hi : JulietProtocol.Iterates a.protocol a.buffer p buffer) :
    ∃ taken ba', ba = taken ++ ba' ∧ Joined builder (a.took p buffer []) b ab ba' ∧
      taken.filterMap (FrameIter.completes builder.maxFrameSize) = [] := by
  induction hi with
  | start => exact ⟨[], ba, rfl, by rwa [Side.took_nil], rfl⟩
  | next _ hp ih =>
    obtain ⟨taken, ba', rfl, hj, hnone⟩ := ih
    have hattempt := JulietProtocol.frameAttempt_of hp
    rcases hj.frame hattempt with ⟨n, hn, _, _⟩ | ⟨err, hn, _⟩ | ⟨it, rest, out,
      rfl, hn, hdel, hnext⟩
    · simp [attempt] at hn
    · simp [attempt] at hn
    · cases hn
      have hread := hdel.read (hplain it (by simp))
      rw [Side.took_took] at hnext
      refine ⟨taken ++ [it], rest, by simp, hnext, ?_⟩
      rw [List.filterMap_append, hnone, List.filterMap_cons, ← hread]
      rfl

/-- What a call of `process_incoming` makes of what a peer sent that has cancelled no request. -/
theorem Joined.processIncoming (h : Joined builder a b ab ba)
    (hplain : ∀ it ∈ ba, it.header.kind ≠ .ok .cancelReq) {o : ReadOutcome} {p : JulietProtocol N}
    {buffer : Bytes} (hp : a.protocol.processIncoming a.buffer = .ok (o, p, buffer)) :
    (∀ err, o ≠ .fatal err) ∧ ∃ taken ba', ba = taken ++ ba' ∧
      Joined builder (a.took p buffer (JulietProtocol.readsOf (some o))) b ab ba' ∧
      taken.filterMap (FrameIter.completes builder.maxFrameSize) = JulietProtocol.readsOf (some o) ∧
      ∀ j, Disjoint (a.reported j) (reportedBy j (JulietProtocol.readsOf (some o))) := by
  obtain ⟨s, b₀, hi, hlast⟩ := JulietProtocol.processIncoming_inv h.left.valid hp
  obtain ⟨taken, ba', rfl, hj, hnone⟩ := h.iterates hplain hi
  rcases hj.frame (JulietProtocol.frameAttempt_of hlast) with
    ⟨n, hn, rfl, rfl⟩ | ⟨err, hn, it, hin, hk⟩ | ⟨it, rest, out, rfl, hn, hdel, hnext⟩
  · cases JulietProtocol.attempt_incomplete hn
    exact ⟨by simp, taken, ba', rfl, hj, hnone, fun j => Finset.disjoint_empty_right _⟩
  · exact absurd hk (hplain it (List.mem_append_right _ hin))
  · have hread := hdel.read (hplain it (by simp))
    have hnew := hdel.new hj.left
    rw [Side.took_took] at hnext
    rcases JulietProtocol.attempt_consumed hn with ⟨ho, _⟩ | ⟨read, ho, rfl⟩
    · simp at ho
    · cases Option.some.inj ho
      refine ⟨by simp, taken ++ [it], rest, by simp, hnext, ?_, ?_⟩
      · rw [List.filterMap_append, hnone, List.filterMap_cons, ← hread]
        rfl
      · intro j
        simpa [Side.took, reportedBy, JulietProtocol.readsOf] using hnew j

end

end Juliet
