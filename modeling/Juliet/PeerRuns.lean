import Mathlib.Algebra.Order.Group.Multiset
import Mathlib.Tactic.Abel
import Juliet.PeerInvariant

namespace Juliet

open Rust Incremental

section

variable {N : Nat} {builder : ProtocolBuilder N} {s : Net N} {begun : Bool → Option FrameIter}
  {msgs : Bool → List OutgoingMessage}

theorem eq_or_eq_not (z x : Bool) : z = x ∨ z = !x := by
  cases z <;> cases x <;> simp

/-- What a side has left of its requests after a frame has been received. -/
theorem deliver_uncancelled {peer : Peer N} {i : Fin N} {m : MaxFrameSize} {kind : Kind}
    {channel : ChannelId} {id : Id} {it : FrameIter} {receiver : MultiframeReceiver} {b : Bytes}
    (hs : Sendable (peer.protocol.channels i).config channel id kind it.msg) (j : Fin N) :
    ({ peer with
        protocol := peer.protocol.setChannel i
          ((peer.protocol.channels i).deliver m kind channel id it receiver).2
        buffer := b } : Peer N).uncancelled j ⊆ peer.uncancelled j := by
  apply Finset.filter_subset_filter
  by_cases hj : j = i
  · subst hj
    simp only [JulietProtocol.setChannel_self]
    rw [Channel.deliver_outgoing hs]
    split
    next => exact Finset.erase_subset _ _
    next => exact subset_rfl
  · simp [hj]

/-- A frame for another channel changes nothing in the balance. -/
theorem Balanced.other {i : Nat} {a b : Channel} {ab ba : List FrameIter} {it : FrameIter}
    (hi : it.header.channel.get.toNat ≠ i) :
    (Balanced i a b (it :: ab) ba ↔ Balanced i a b ab ba) ∧
    (Balanced i b a ba (it :: ab) ↔ Balanced i b a ba ab) := by
  have hstart : it.startsOn i = false := by
    simp [FrameIter.startsOn, hi]
  simp [Balanced, requestIds_cons, answerIds_cons, hstart]

theorem NetInv.deliver (h : NetInv builder s begun msgs) (x : Bool) {it : FrameIter}
    {begun' : Option FrameIter} {msgs' : List OutgoingMessage}
    (hf : Front builder.maxFrameSize (begun !x) (msgs !x) it begun' msgs') {i : Fin N}
    {channel : ChannelId} {id : Id} {kind : Kind} (hi : channel.get.toNat = i)
    (hs : Sendable ((s x).protocol.channels i).config channel id kind it.msg) {p : JulietProtocol N}
    (hp : p = (s x).protocol.setChannel i
      (((s x).protocol.channels i).deliver builder.maxFrameSize kind channel id it
      (openOn begun' i)).2)
    (hv : p.Valid) {b : Bytes} (hb : (s x).buffer = it.emit builder.maxFrameSize ++ b) :
    NetInv builder (Function.update s x { s x with protocol := p, buffer := b })
      (Function.update begun (!x) begun')
      (Function.update msgs (!x) msgs') := by
  have hxx : (!x) ≠ x := by cases x <;> simp
  have hxx' : x ≠ !x := hxx.symm
  have hhd : it.header = Header.new kind channel id := hs.header
  have hch : it.header.channel.get.toNat = i := by rw [hhd, Header.new_channel, hi]
  have hpass := hf.passOver hch
  rw [← (h.toward x).receiving i] at hpass
  have hlink := (h.toward x).deliver hf hi hs (h.config x i) (h.valid x i) hb
  rw [← hp] at hlink
  constructor
  · intro z
    rcases eq_or_eq_not z x with rfl | rfl
    · simpa using h.ok z
    · simpa using h.ok (!x)
  · intro z
    rcases eq_or_eq_not z x with rfl | rfl
    · simpa using hv
    · simpa using h.valid (!x)
  · intro z j
    rcases eq_or_eq_not z x with rfl | rfl
    · rw [Function.update_self]
      show (p.channels j).config = _
      by_cases hj : j = i
      · subst hj
        simpa [hp] using h.config z j
      · simpa [hp, hj] using h.config z j
    · simpa using h.config (!x) j
  · intro z
    rcases eq_or_eq_not z x with rfl | rfl
    · simpa [hp] using h.frameSize z
    · simpa using h.frameSize (!x)
  · intro z
    rcases eq_or_eq_not z x with rfl | rfl
    · have hl := h.link z
      simp only [Function.update_self, Function.update_of_ne hxx, Function.update_of_ne hxx']
      refine ⟨hl.bytes, hl.sent, hl.started, hl.sendable, hl.receiving, fun j => ?_⟩
      obtain ⟨v, hspend, hcard⟩ := hl.allowance j
      refine ⟨v, hspend, (Finset.card_le_card ?_).trans hcard⟩
      rw [hp]
      exact deliver_uncancelled hs j
    · simpa using hlink
  · intro z j
    have hab := h.balanced_toward x j
    have hba := h.balanced x j
    rw [hf.inFlight] at hab hba
    rcases eq_or_eq_not z x with rfl | rfl
    · simp only [Function.update_self, Function.update_of_ne hxx, Function.update_of_ne hxx']
      by_cases hj : j = i
      · subst hj
        rw [hp, JulietProtocol.setChannel_self]
        exact hba.deliver_answerer hs hi hpass
      · have hne : it.header.channel.get.toNat ≠ j := fun he => hj (Fin.ext (he.symm.trans hch))
        rw [hp, JulietProtocol.setChannel_of_ne _ hj]
        exact (Balanced.other hne).2.mp hba
    · simp only [Function.update_self, Function.update_of_ne hxx, Function.update_of_ne hxx',
        Bool.not_not]
      by_cases hj : j = i
      · subst hj
        rw [hp, JulietProtocol.setChannel_self]
        exact hab.deliver_requester hs hi
      · have hne : it.header.channel.get.toNat ≠ j := fun he => hj (Fin.ext (he.symm.trans hch))
        rw [hp, JulietProtocol.setChannel_of_ne _ hj]
        exact (Balanced.other hne).1.mp hab

/-- One iteration of `process_incoming` on what a peer sent never refuses anything. -/
theorem NetInv.frame (h : NetInv builder s begun msgs) (x : Bool)
    {r : Attempt NonZeroU32 OutgoingMessage CompletedRead} {p : JulietProtocol N} {b : Bytes}
    (hp : (s x).protocol.frameAttempt (s x).buffer = .ok (r, p, b)) :
    (∃ n, r = .incomplete n ∧ p = (s x).protocol ∧ b = (s x).buffer) ∨
      ∃ out begun' msgs', r = .consumed out ∧
        NetInv builder (Function.update s x { s x with protocol := p, buffer := b })
          begun' msgs' := by
  have hstable := JulietProtocol.frameAttempt_stable (N := N)
  have hv := h.valid x
  have hbytes := (h.toward x).bytes
  rcases (h.toward x).front with hnil | ⟨it, begun', msgs', hf⟩
  · rw [hnil] at hbytes
    simp only [List.map_nil, List.flatten_nil, List.append_eq_nil_iff] at hbytes
    rw [hbytes.1] at hp ⊢
    have hi : (s x).protocol.frameAttempt [] =
        .ok (.incomplete ⟨4, by decide, by decide⟩, (s x).protocol, []) := rfl
    have he := Except.ok.inj (hp.symm.trans hi)
    simp only [Prod.mk.injEq] at he
    exact .inl ⟨_, he.1, he.2.1, he.2.2⟩
  · obtain ⟨i, channel, id, kind, hi, hs, hadm⟩ := h.admits x hf
    rw [← h.config x i] at hs
    have hhd : it.header = Header.new kind channel id := hs.header
    have hch : it.header.channel.get.toNat = i := by rw [hhd, Header.new_channel, hi]
    have hpass := hf.passOver hch
    rw [← (h.toward x).receiving i, ← h.frameSize x] at hpass
    have hgo := fun rest => JulietProtocol.frameAttempt_of (JulietProtocol.processFrame_honest hi hs
      hadm hpass hf.more rest)
    rw [h.frameSize x] at hgo
    rw [hf.inFlight, List.map_cons, List.flatten_cons] at hbytes
    rcases hstable.front hv hgo hbytes with ⟨n, hn⟩ | ⟨rest, hrest, htook⟩
    · have he := Except.ok.inj (hp.symm.trans hn)
      simp only [Prod.mk.injEq] at he
      exact .inl ⟨n, he.1, he.2.1, he.2.2⟩
    · have hkeeps := hstable.keeps hv htook
      have he := Except.ok.inj (hp.symm.trans htook)
      simp only [Prod.mk.injEq] at he
      obtain ⟨rfl, rfl, rfl⟩ := he
      exact .inr ⟨_, _, _, JulietProtocol.attempt_read _, h.deliver x hf hi hs rfl hkeeps hrest⟩

/-- Receiving whatever part of the stream has arrived ends with a wait for more. -/
theorem NetInv.runs (h : NetInv builder s begun msgs) (x : Bool) {reads : List CompletedRead}
    {stop : NonZeroU32 ⊕ OutgoingMessage} {p : JulietProtocol N} {b : Bytes}
    (hr : Runs JulietProtocol.frameAttempt (s x).protocol (s x).buffer reads stop p b) :
    ∃ n begun' msgs', stop = .inl n ∧
      NetInv builder (Function.update s x { s x with protocol := p, buffer := b })
        begun' msgs' := by
  generalize hq : (s x).protocol = q at hr
  generalize hc : (s x).buffer = c at hr
  induction hr generalizing s begun msgs with
  | fatal ha =>
    subst hq hc
    rcases h.frame x ha with ⟨n, hn, _, _⟩ | ⟨out, begun', msgs', hn, _⟩
    · simp at hn
    · simp at hn
  | incomplete ha =>
    subst hq hc
    rcases h.frame x ha with ⟨n, hn, rfl, rfl⟩ | ⟨out, begun', msgs', hn, _⟩
    · refine ⟨_, begun, msgs, rfl, ?_⟩
      have hsame : Function.update s x
          { s x with protocol := (s x).protocol, buffer := (s x).buffer } = s :=
        Function.update_eq_self x s
      rw [hsame]
      exact h
    · simp at hn
  | consumed ha _ ih =>
    subst hq hc
    rcases h.frame x ha with ⟨n, hn, _, _⟩ | ⟨out, begun', msgs', _, hnext⟩
    · simp at hn
    · have hgo := ih hnext (by simp) (by simp)
      simpa using hgo

/-- Appending a message to the stream, with the bookkeeping that goes with it. -/
theorem NetInv.post (h : NetInv builder s begun msgs) (x : Bool) {i : Fin N} {channel : ChannelId}
    {id : Id} {kind : Kind}
    {msg : OutgoingMessage} (hi : channel.get.toNat = i)
    (hs : Sendable (builder.channelConfig i) channel id kind msg)
    {chan : Channel} (cancelled : Finset (Nat × Id)) (hv : chan.Valid i)
    (hcfg : chan.config = ((s x).protocol.channels i).config)
    (hrec : chan.currentMultiframeReceiver = ((s x).protocol.channels i).currentMultiframeReceiver)
    (hall : chan.cancellationAllowance = ((s x).protocol.channels i).cancellationAllowance)
    (hout : Balanced i chan ((s !x).protocol.channels i)
      (inFlight builder.maxFrameSize (begun x) (msgs x) ++
        msg.frames.remaining builder.maxFrameSize)
      (inFlight builder.maxFrameSize (begun !x) (msgs !x)))
    (hin : Balanced i ((s !x).protocol.channels i) chan
      (inFlight builder.maxFrameSize (begun !x) (msgs !x))
      (inFlight builder.maxFrameSize (begun x) (msgs x) ++
        msg.frames.remaining builder.maxFrameSize))
    (hspend : ∀ (j : Fin N) v, ((s x).uncancelled j).card ≤ v → ∃ v',
      spend (builder.channelConfig j).requestLimit.toNat j v [msg] = some v' ∧
        (({ (s x).post ((s x).protocol.setChannel i chan) (some msg) with
          cancelled := cancelled } : Peer N).uncancelled j).card ≤ v') :
    NetInv builder
      (Function.update s x
        { (s x).post ((s x).protocol.setChannel i chan) (some msg) with cancelled := cancelled })
      begun (Function.update msgs x (msgs x ++ [msg])) := by
  have hxx : (!x) ≠ x := by cases x <;> simp
  have hmsg : msg.header.channel.get.toNat = i := by rw [hs.header, Header.new_channel, hi]
  constructor
  · intro z
    rcases eq_or_eq_not z x with rfl | rfl
    · simpa [Peer.post] using h.ok z
    · simpa using h.ok (!x)
  · intro z
    rcases eq_or_eq_not z x with rfl | rfl
    · simpa [Peer.post] using (h.valid z).setChannel hv
    · simpa using h.valid (!x)
  · intro z j
    rcases eq_or_eq_not z x with rfl | rfl
    · rw [Function.update_self]
      exact (JulietProtocol.setChannel_field Channel.config hcfg j).trans (h.config z j)
    · simpa using h.config (!x) j
  · intro z
    rcases eq_or_eq_not z x with rfl | rfl
    · simpa [Peer.post] using h.frameSize z
    · simpa using h.frameSize (!x)
  · intro z
    rcases eq_or_eq_not z x with rfl | rfl
    · have hl := h.link z
      simp only [Function.update_self, Function.update_of_ne hxx]
      refine ⟨?_, ?_, hl.started, ?_, hl.receiving, fun j => ?_⟩
      · rw [inFlight_snoc, List.map_append, List.flatten_append, ← hl.bytes]
        show _ ++ ((s z).stream ++ msg.toBytes (s z).protocol.maxFrameSize) = _
        rw [OutgoingMessage.toBytes_eq, h.frameSize, List.append_assoc]
      · obtain ⟨done, hdone⟩ := hl.sent
        refine ⟨done, ?_⟩
        show (s z).sent ++ [msg] = _
        rw [hdone]
        simp
      · intro msg' hmem
        rw [← List.append_assoc] at hmem
        rcases List.mem_append.mp hmem with hold | hnew
        · exact hl.sendable msg' hold
        · cases List.mem_singleton.mp hnew
          exact ⟨i, channel, id, kind, hi, hs⟩
      · obtain ⟨v, hv', hcard⟩ := hl.allowance j
        obtain ⟨v', hv'', hcard'⟩ := hspend j v hcard
        exact ⟨v', by rw [spend_append, hv', Option.bind_some, hv''], hcard'⟩
    · have hl := h.toward x
      simp only [Function.update_self, Function.update_of_ne hxx, Bool.not_not]
      refine ⟨hl.bytes, hl.sent, hl.started, hl.sendable, fun j => ?_, fun j => ?_⟩
      · exact (JulietProtocol.setChannel_field Channel.currentMultiframeReceiver hrec j).trans
          (hl.receiving j)
      · show ∃ v, spend _ j (((s x).protocol.setChannel i chan).channels j).cancellationAllowance
            _ = some v ∧ _
        rw [JulietProtocol.setChannel_field Channel.cancellationAllowance hall j]
        exact hl.allowance j
  · intro z j
    rcases eq_or_eq_not z x with rfl | rfl
    · simp only [Function.update_self, Function.update_of_ne hxx, inFlight_snoc]
      show Balanced j (((s z).protocol.setChannel i chan).channels j) _ _ _
      by_cases hj : j = i
      · subst hj
        rw [JulietProtocol.setChannel_self]
        exact hout
      · have hne : msg.header.channel.get.toNat ≠ j := fun he => hj (Fin.ext (he.symm.trans hmsg))
        rw [JulietProtocol.setChannel_of_ne _ hj]
        simpa [Balanced, requestIds_remaining, hne] using h.balanced z j
    · simp only [Function.update_self, Function.update_of_ne hxx, Bool.not_not, inFlight_snoc]
      show Balanced j _ (((s x).protocol.setChannel i chan).channels j) _ _
      by_cases hj : j = i
      · subst hj
        rw [JulietProtocol.setChannel_self]
        exact hin
      · have hne : msg.header.channel.get.toNat ≠ j := fun he => hj (Fin.ext (he.symm.trans hmsg))
        rw [JulietProtocol.setChannel_of_ne _ hj]
        simpa [Balanced, answerIds_remaining, hne] using h.balanced_toward x j

/-- Calls that change nothing but possibly the protocol state to an equal one. -/
theorem NetInv.idle (h : NetInv builder s begun msgs) (x : Bool) :
    NetInv builder (Function.update s x ((s x).post (s x).protocol none)) begun msgs := by
  have hsame : Function.update s x ((s x).post (s x).protocol none) = s :=
    Function.update_eq_self x s
  rw [hsame]
  exact h

/-- A request within the limit of its channel can be sent. -/
theorem Channel.requestMessage_sendable {config : ChannelConfiguration} {payload : Option Bytes}
    (h : JulietProtocol.PayloadWithin payload config.maxRequestPayloadSize) (channel : ChannelId)
    (id : Id) :
    Sendable config channel id (if payload.isSome then .requestPl else .request)
      (Channel.requestMessage channel id payload) := by
  cases payload with
  | none => exact .request
  | some pl => exact .requestPl pl (h pl rfl)

theorem Channel.requestMessage_isRequest (channel : ChannelId) (id : Id) (payload : Option Bytes) :
    (Channel.requestMessage channel id payload).header.isRequest = true := by
  cases payload <;> simp [Channel.requestMessage, OutgoingMessage.new, Kind.isRequest]

theorem Channel.requestMessage_isAnswer (channel : ChannelId) (id : Id) (payload : Option Bytes) :
    (Channel.requestMessage channel id payload).header.isAnswer = false := by
  cases payload <;> simp [Channel.requestMessage, OutgoingMessage.new, Kind.isAnswer]

theorem NetInv.createRequest (h : NetInv builder s begun msgs) {x : Bool} {channel : ChannelId}
    {payload : Option Bytes} {msg : OutgoingMessage} {p : JulietProtocol N}
    (hc : (s x).protocol.createRequest channel payload = .ok (.ok msg, p)) :
    ∃ begun' msgs', NetInv builder (Function.update s x
      { (s x).post p (some msg) with cancelled := (s x).cancelled.erase (channel.get.toNat,
        msg.header.id) })
      begun' msgs' := by
  rcases JulietProtocol.createRequest_cases hc with ⟨_, hr, _⟩ | ⟨i, id, hlook, hallowed,
    hwithin, hgen, hr, rfl⟩
  · simp at hr
  cases Except.ok.inj hr
  have hi := JulietProtocol.lookupChannel_ok hlook
  rw [h.config] at hwithin
  have hs := Channel.requestMessage_sendable hwithin channel id
  have hreq := Channel.requestMessage_isRequest channel id payload
  have hans := Channel.requestMessage_isAnswer channel id payload
  have hid := Channel.requestMessage_id channel id payload
  have hch : (Channel.requestMessage channel id payload).header.channel.get.toNat = i := by
    rw [Channel.requestMessage_channel, hi]
  have hlimit : ((s x).protocol.channels i).outgoingRequests.card <
      (builder.channelConfig i).requestLimit.toNat := by
    rw [← h.config x i]
    exact Channel.card_lt_limit hallowed
  refine ⟨begun, _, h.post x hi hs _ ((h.valid x i).withRequest hallowed id) rfl rfl rfl ?_ ?_ ?_⟩
  · have hb := h.balanced x i
    unfold Balanced at hb ⊢
    simp only [Channel.withRequest, Finset.insert_val_of_notMem hgen.free, requestIds_append,
      requestIds_remaining, hch, hreq, hid, hb, and_self, if_true]
    rw [← Multiset.singleton_add, ← Multiset.add_assoc, ← Multiset.add_assoc, ← Multiset.add_assoc]
    rw [Multiset.add_comm {id} (requestIds _ _)]
  · have hb := h.balanced_toward x i
    unfold Balanced at hb ⊢
    simpa [Channel.withRequest, answerIds_remaining, hans] using hb
  · intro j v hv
    by_cases hj : j = i
    · subst hj
      refine ⟨min (v + 1) (builder.channelConfig j).requestLimit.toNat, ?_, ?_⟩
      · simp [spend, hi, hreq]
      · have hsub :
            ({ (s x).post ((s x).protocol.setChannel j (((s x).protocol.channels j).withRequest id))
            (some (Channel.requestMessage channel id payload)) with
            cancelled := (s x).cancelled.erase (channel.get.toNat,
              (Channel.requestMessage channel id payload).header.id) }
            : Peer N).uncancelled j ⊆ insert id ((s x).uncancelled j) := by
          intro id' hin
          simp only [Peer.uncancelled, Peer.post, JulietProtocol.setChannel_self,
            Channel.withRequest, Finset.mem_filter, Finset.mem_insert, hi, hid, Finset.mem_erase,
            ne_eq, Prod.mk.injEq, true_and, not_and] at hin ⊢
          obtain ⟨hmem, hnot⟩ := hin
          by_cases he : id' = id
          · exact .inl he
          · exact .inr ⟨hmem.resolve_left he, hnot he⟩
        have hcard := (Finset.card_le_card hsub).trans (Finset.card_insert_le _ _)
        have hall : (insert id ((s x).uncancelled j)).card ≤
            (builder.channelConfig j).requestLimit.toNat := by
          have h1 : ((s x).uncancelled j).card ≤
              ((s x).protocol.channels j).outgoingRequests.card :=
            Finset.card_filter_le _ _
          have h2 := Finset.card_insert_le id ((s x).uncancelled j)
          omega
        have h3 := (Finset.card_le_card hsub).trans hall
        omega
    · have hne : (Channel.requestMessage channel id payload).header.channel.get.toNat ≠ j :=
        fun he => hj (Fin.ext (he.symm.trans hch))
      refine ⟨v, by rw [spend_other hne]; rfl, le_trans (Finset.card_le_card ?_) hv⟩
      intro id' hin
      have hji : (j : Nat) ≠ channel.get.toNat := fun he => hj (Fin.ext (he.trans hi))
      simp only [Peer.uncancelled, Peer.post, JulietProtocol.setChannel_of_ne _ hj,
        Finset.mem_filter, Finset.mem_erase, ne_eq, Prod.mk.injEq, hji, false_and,
        not_false_eq_true, true_and] at hin ⊢
      exact hin

/-- Answering a request, be it with a response or with a cancellation. -/
theorem NetInv.answer (h : NetInv builder s begun msgs) {x : Bool} {i : Fin N} {channel : ChannelId}
    {id : Id} {kind : Kind} {msg : OutgoingMessage} (hi : channel.get.toNat = i)
    (hs : Sendable (builder.channelConfig i) channel id kind msg) (hk : kind.isAnswer = true)
    (hin : id ∈ ((s x).protocol.channels i).incomingRequests) :
    ∃ begun' msgs',
      NetInv builder (Function.update s x ((s x).post ((s x).protocol.answered i id) (some msg)))
        begun' msgs' := by
  have hhd := hs.header
  have hreq : msg.header.isRequest = false := by
    rw [hhd, Header.new_isRequest, Kind.isRequest_of_isAnswer hk]
  have hans : msg.header.isAnswer = true := by rw [hhd, Header.new_isAnswer, hk]
  have hch : msg.header.channel.get.toNat = i := by rw [hhd, Header.new_channel, hi]
  have hid : msg.header.id = id := by rw [hhd, Header.new_id]
  refine ⟨begun, _,
    h.post x hi hs (s x).cancelled ((h.valid x i).releaseIncoming id) rfl rfl rfl ?_ ?_ ?_⟩
  · have hb := h.balanced x i
    unfold Balanced at hb ⊢
    simpa [requestIds_remaining, hreq] using hb
  · have hb := h.balanced_toward x i
    unfold Balanced at hb ⊢
    have hsplit : ((s x).protocol.channels i).incomingRequests.val =
        {id} + (((s x).protocol.channels i).incomingRequests.erase id).val := by
      rw [Finset.erase_val, Multiset.singleton_add, Multiset.cons_erase hin]
    rw [hb, hsplit]
    simp only [answerIds_append, answerIds_remaining, hch, hans, hid, and_self, if_true]
    abel
  · intro j v hv
    refine ⟨v, ?_, le_trans (Finset.card_le_card (Finset.filter_subset_filter _ ?_)) hv⟩
    · simp only [spend, hreq, Bool.false_eq_true, if_false]
      rw [if_neg (c := msg.header.kind = .ok .cancelReq)]
      · split <;> rfl
      · rw [hhd, Header.new_kind]
        cases kind <;> simp_all [Kind.isAnswer]
    · by_cases hj : j = i
      · subst hj
        simp [Peer.post]
      · simp [Peer.post, hj]

theorem NetInv.cancelRequest (h : NetInv builder s begun msgs) {x : Bool} {channel : ChannelId}
    {id : Id} {msg : OutgoingMessage} {p : JulietProtocol N}
    (hc : (s x).protocol.cancelRequest channel id = (.ok (some msg), p))
    (hnot : (channel.get.toNat, id) ∉ (s x).cancelled) :
    ∃ begun' msgs', NetInv builder (Function.update s x
      { (s x).post p (some msg) with cancelled := insert (channel.get.toNat, id) (s x).cancelled })
        begun' msgs' := by
  obtain ⟨i, hlook, hout, rfl⟩ := JulietProtocol.cancelRequest_some (congrArg Prod.fst hc)
  have hp : p = (s x).protocol := by
    rw [← JulietProtocol.cancelRequest_state (s x).protocol channel id, hc]
  have hi := JulietProtocol.lookupChannel_ok hlook
  have hself : p = (s x).protocol.setChannel i ((s x).protocol.channels i) := by
    rw [hp]
    simp [JulietProtocol.setChannel]
  have hs : Sendable (builder.channelConfig i) channel id .cancelReq
      (createUncheckedRequestCancellation channel id) :=
    .cancelReq
  have hch : (createUncheckedRequestCancellation channel id).header.channel.get.toNat = i := by
    rw [hs.header, Header.new_channel, hi]
  rw [hself]
  refine ⟨begun, _, h.post x hi hs _ (h.valid x i) rfl rfl rfl ?_ ?_ ?_⟩
  · have hb := h.balanced x i
    unfold Balanced at hb ⊢
    simpa [requestIds_remaining, hs.header, Kind.isRequest] using hb
  · have hb := h.balanced_toward x i
    unfold Balanced at hb ⊢
    simpa [answerIds_remaining, hs.header, Kind.isAnswer] using hb
  · intro j v hv
    by_cases hj : j = i
    · subst hj
      have hmem : id ∈ (s x).uncancelled j := by
        simp only [Peer.uncancelled, Finset.mem_filter]
        exact ⟨hout, by rw [← hi]; exact hnot⟩
      have hpos := Finset.card_pos.mpr ⟨id, hmem⟩
      refine ⟨v - 1, ?_, ?_⟩
      · rw [spend, if_pos hch, hs.header, if_neg (by simp [Kind.isRequest]),
          if_pos (by simp), if_neg (by omega)]
        rfl
      · have hsub : ({ (s x).post ((s x).protocol.setChannel j ((s x).protocol.channels j))
            (some (createUncheckedRequestCancellation channel id)) with
            cancelled := insert (channel.get.toNat, id) (s x).cancelled } : Peer N).uncancelled j ⊆
            ((s x).uncancelled j).erase id := by
          intro id' hin
          simp only [Peer.uncancelled, Peer.post, JulietProtocol.setChannel_self,
            Finset.mem_filter, Finset.mem_erase, Finset.mem_insert, hi, Prod.mk.injEq,
            true_and, not_or] at hin ⊢
          exact ⟨hin.2.1, hin.1, hin.2.2⟩
        have hcard := Finset.card_le_card hsub
        rw [Finset.card_erase_of_mem hmem] at hcard
        omega
    · have hne : (createUncheckedRequestCancellation channel id).header.channel.get.toNat ≠ j :=
        fun he => hj (Fin.ext (he.symm.trans hch))
      refine ⟨v, by rw [spend_other hne]; rfl, le_trans (Finset.card_le_card ?_) hv⟩
      intro id' hin
      have hji : (j : Nat) ≠ channel.get.toNat := fun he => hj (Fin.ext (he.trans hi))
      simp only [Peer.uncancelled, Peer.post, JulietProtocol.setChannel_of_ne _ hj,
        Finset.mem_filter, Finset.mem_insert, Prod.mk.injEq, hji, false_and, false_or] at hin ⊢
      exact hin

/-- Moving bytes from the stream to the buffer at its other end. -/
theorem NetInv.arrive (h : NetInv builder s begun msgs) (x : Bool) (k : Nat) :
    NetInv builder (Function.update
      (Function.update s (!x) { s !x with stream := (s !x).stream.drop k }) x
      { s x with buffer := (s x).buffer ++ (s !x).stream.take k }) begun msgs := by
  have hxx : (!x) ≠ x := by cases x <;> simp
  constructor
  · intro z
    rcases eq_or_eq_not z x with rfl | rfl
    · simpa using h.ok z
    · simpa [hxx] using h.ok (!x)
  · intro z
    rcases eq_or_eq_not z x with rfl | rfl
    · simpa using h.valid z
    · simpa [hxx] using h.valid (!x)
  · intro z j
    rcases eq_or_eq_not z x with rfl | rfl
    · simpa using h.config z j
    · simpa [hxx] using h.config (!x) j
  · intro z
    rcases eq_or_eq_not z x with rfl | rfl
    · simpa using h.frameSize z
    · simpa [hxx] using h.frameSize (!x)
  · intro z
    rcases eq_or_eq_not z x with rfl | rfl
    · have hl := h.link z
      simp only [Function.update_self, Function.update_of_ne hxx]
      exact ⟨hl.bytes, hl.sent, hl.started, hl.sendable, hl.receiving, hl.allowance⟩
    · have hl := h.toward x
      simp only [Bool.not_not, Function.update_self, Function.update_of_ne hxx]
      refine ⟨?_, hl.sent, hl.started, hl.sendable, hl.receiving, hl.allowance⟩
      rw [← hl.bytes, List.append_assoc, List.take_append_drop]
  · intro z j
    rcases eq_or_eq_not z x with rfl | rfl
    · simpa [hxx] using h.balanced z j
    · simpa [hxx] using h.balanced_toward x j

theorem NetInv.receive (h : NetInv builder s begun msgs) (x : Bool) (k : Nat)
    {reads : List CompletedRead} {stopped : Stopped N}
    (hr : (s x).protocol.receive ((s x).buffer ++ (s !x).stream.take k) = .ok (reads, stopped)) :
    ∃ begun' msgs', NetInv builder (Function.update (Function.update s (!x)
      { s !x with stream := (s !x).stream.drop k }) x ((s x).stop stopped)) begun' msgs' := by
  have ha := h.arrive x k
  obtain ⟨outs, stop, p, b, hruns⟩ := JulietProtocol.frameAttempt_stable.runs_exists (h.valid x)
    ((s x).buffer ++ (s !x).stream.take k)
  have he := Except.ok.inj (hr.symm.trans (JulietProtocol.receive_of_runs (h.valid x) hruns))
  simp only [Prod.mk.injEq] at he
  obtain ⟨n, begun', msgs', rfl, hnext⟩ :=
    ha.runs x (show Runs _ _ _ outs stop p b by simpa using hruns)
  refine ⟨begun', msgs', ?_⟩
  rw [he.2]
  simpa [Peer.stop, JulietProtocol.stoppedAs] using hnext

/-- Every step of either side keeps what is in flight in order. -/
theorem NetInv.step {s' : Net N} (h : NetInv builder s begun msgs) (hs : NetStep s s') :
    ∃ begun' msgs', NetInv builder s' begun' msgs' := by
  cases hs with
  | createRequest x channel payload msg p hc => exact h.createRequest hc
  | createResponse x channel id payload r p hc =>
    rcases (s x).protocol.createResponse_cases channel id payload with
      ⟨_, he⟩ | ⟨_, _, _, he⟩ | ⟨i, hlook, hin, ⟨_, he⟩ | ⟨hw, he⟩⟩
    all_goals
      rw [hc] at he
      simp only [Prod.mk.injEq, Except.ok.injEq, reduceCtorEq, false_and] at he
    · obtain ⟨rfl, rfl⟩ := he
      exact ⟨begun, msgs, h.idle x⟩
    · obtain ⟨rfl, rfl⟩ := he
      rw [h.config] at hw
      have hi := JulietProtocol.lookupChannel_ok hlook
      cases payload with
      | none => exact h.answer hi .response rfl hin
      | some pl => exact h.answer hi (.responsePl pl (hw pl rfl)) rfl hin
  | cancelRequest x channel id msg p hc hnot => exact h.cancelRequest hc hnot
  | cancelRequestLate x channel id p hc =>
    have hp : p = (s x).protocol := by
      rw [← JulietProtocol.cancelRequest_state (s x).protocol channel id, hc]
    rw [hp]
    exact ⟨begun, msgs, h.idle x⟩
  | cancelResponse x channel id r p hc =>
    rcases (s x).protocol.cancelResponse_cases channel id with ⟨_, he⟩ | he | ⟨i, hlook, hin, he⟩
    all_goals
      rw [hc] at he
      simp only [Prod.mk.injEq, Except.ok.injEq, reduceCtorEq, false_and] at he
    · obtain ⟨rfl, rfl⟩ := he
      exact ⟨begun, msgs, h.idle x⟩
    · obtain ⟨rfl, rfl⟩ := he
      exact h.answer (JulietProtocol.lookupChannel_ok hlook) .cancelResp rfl hin
  | deliver x k reads stopped hr => exact h.receive x k hr

theorem NetReach.inv {s : Net N} (h : NetReach builder s) :
    ∃ begun msgs, NetInv builder s begun msgs := by
  induction h with
  | start => exact ⟨_, _, netInv_start⟩
  | step _ hs ih =>
    obtain ⟨begun, msgs, hinv⟩ := ih
    exact hinv.step hs

end

end Juliet
