import Juliet.PeerRuns

namespace Juliet

open Rust

variable {m : MaxFrameSize}

/-- The number of bytes that messages take on the wire. -/
def wireLength (m : MaxFrameSize) (msgs : List OutgoingMessage) : Nat :=
  (msgs.map (·.toBytes m)).flatten.length

theorem wireLength_append (msgs more : List OutgoingMessage) :
    wireLength m (msgs ++ more) = wireLength m msgs + wireLength m more := by
  simp [wireLength]

theorem wireLength_cons (msg : OutgoingMessage) (msgs : List OutgoingMessage) :
    wireLength m (msg :: msgs) = (msg.toBytes m).length + wireLength m msgs := by
  simp [wireLength]

theorem emit_length_le_toBytes (msg : OutgoingMessage) :
    (msg.frames.emit m).length ≤ (msg.toBytes m).length := by
  obtain ⟨its, hits, _⟩ := msg.remaining_cons m
  rw [OutgoingMessage.toBytes_eq, hits]
  simp

theorem unstarted_skip (done msgs : List OutgoingMessage) (n : Nat) :
    unstarted m (wireLength m done + n) (done ++ msgs) = unstarted m n msgs := by
  induction done with
  | nil => simp [wireLength]
  | cons msg done ih =>
    have hle := emit_length_le_toBytes (m := m) msg
    rw [wireLength_cons, List.cons_append, unstarted, if_neg (by omega), ← ih]
    congr 1
    omega

theorem unfinished_skip (done msgs : List OutgoingMessage) (n : Nat) :
    unfinished m (wireLength m done + n) (done ++ msgs) = unfinished m n msgs := by
  induction done with
  | nil => simp [wireLength]
  | cons msg done ih =>
    rw [wireLength_cons, List.cons_append, unfinished, if_neg (by omega), ← ih]
    congr 1
    omega

theorem unstarted_zero (msgs : List OutgoingMessage) : unstarted m 0 msgs = msgs := by
  cases msgs with
  | nil => rfl
  | cons msg msgs =>
    have hpos := msg.frames.emit_length_pos m
    rw [unstarted, if_pos (by omega)]

theorem unfinished_zero (msgs : List OutgoingMessage) : unfinished m 0 msgs = msgs := by
  cases msgs with
  | nil => rfl
  | cons msg msgs =>
    have hpos := msg.frames.emit_length_pos m
    have hle := emit_length_le_toBytes (m := m) msg
    rw [unfinished, if_pos (by omega)]

theorem inFlight_length (begun : Option FrameIter) (msgs : List OutgoingMessage) :
    ((inFlight m begun msgs).map (·.emit m)).flatten.length =
      ((inFlight m begun []).map (·.emit m)).flatten.length + wireLength m msgs := by
  have hmsgs : ((msgs.flatMap fun msg => msg.frames.remaining m).map (·.emit m)).flatten.length =
      wireLength m msgs := by
    induction msgs with
    | nil => rfl
    | cons msg msgs ih =>
      rw [List.flatMap_cons, List.map_append, List.flatten_append, List.length_append,
        ih, wireLength_cons, OutgoingMessage.toBytes_eq]
  simp only [inFlight, List.map_append, List.flatten_append, List.length_append, hmsgs,
    List.flatMap_nil, List.map_nil, List.flatten_nil, List.length_nil, Nat.add_zero]

/-- Where the peer stands in a message of which it has some frames but not all. -/
theorem begun_position {it : FrameIter} {before : List FrameIter} (hne : before ≠ [])
    (hb : it.msg.frames.remaining m = before ++ it.remaining m) :
    ∃ n, (it.msg.toBytes m).length = n + ((inFlight m (some it) []).map (·.emit m)).flatten.length ∧
      (it.msg.frames.emit m).length ≤ n ∧ n < (it.msg.toBytes m).length := by
  obtain ⟨its, hits, _⟩ := it.msg.remaining_cons m
  obtain ⟨first, before, rfl⟩ := List.exists_cons_of_ne_nil hne
  have hfirst : first = it.msg.frames := by
    rw [hits, List.cons_append, List.cons.injEq] at hb
    exact hb.1.symm
  have hpos := it.emit_length_pos m
  have hrem : 0 < (((it.remaining m).map (·.emit m)).flatten).length := by
    cases hx : (it.nextOwned m).2 with
    | none => simp only [FrameIter.remaining_of_none hx, List.map_cons, List.flatten_cons,
      List.length_append]; omega
    | some _ => simp only [FrameIter.remaining_of_some hx, List.map_cons, List.flatten_cons,
      List.length_append]; omega
  refine ⟨(((first :: before).map (·.emit m)).flatten).length, ?_, ?_, ?_⟩
  · rw [OutgoingMessage.toBytes_eq, hb, List.map_append, List.flatten_append, List.length_append]
    simp [inFlight]
  · rw [hfirst]
    simp
  · rw [OutgoingMessage.toBytes_eq, hb]
    simp only [List.map_append, List.flatten_append, List.length_append]
    omega

theorem requestIds_inFlight {begun : Option FrameIter} (hb : ∀ it ∈ begun, 0 < it.bytesProcessed)
    (i : Nat) (msgs : List OutgoingMessage) :
    requestIds i (inFlight m begun msgs) = requestsOn i msgs := by
  have hbegun : requestIds i ((begun.map (·.remaining m)).getD []) = 0 := by
    cases begun with
    | none => rfl
    | some it => exact requestIds_later (FrameIter.remaining_not_start m (hb it rfl))
  rw [inFlight, requestIds_append, hbegun, Multiset.zero_add]
  induction msgs with
  | nil => rfl
  | cons msg msgs ih =>
    rw [List.flatMap_cons, requestIds_append, ih, requestIds_remaining]
    by_cases hc : msg.header.channel.get.toNat = i ∧ msg.header.isRequest = true
    · simp [requestsOn, hc]
    · rw [if_neg hc, Multiset.zero_add]
      simp only [requestsOn, List.filter_cons, Bool.and_eq_true, beq_iff_eq, if_neg hc]

theorem answerIds_inFlight {begun : Option FrameIter} (hb : ∀ it ∈ begun, 0 < it.bytesProcessed)
    (i : Nat) (msgs : List OutgoingMessage) :
    answerIds i (inFlight m begun msgs) = answersOn i msgs := by
  have hbegun : answerIds i ((begun.map (·.remaining m)).getD []) = 0 := by
    cases begun with
    | none => rfl
    | some it => exact answerIds_later (FrameIter.remaining_not_start m (hb it rfl))
  rw [inFlight, answerIds_append, hbegun, Multiset.zero_add]
  induction msgs with
  | nil => rfl
  | cons msg msgs ih =>
    rw [List.flatMap_cons, answerIds_append, ih, answerIds_remaining]
    by_cases hc : msg.header.channel.get.toNat = i ∧ msg.header.isAnswer = true
    · simp [answersOn, hc]
    · rw [if_neg hc, Multiset.zero_add]
      simp only [answersOn, List.filter_cons, Bool.and_eq_true, beq_iff_eq, if_neg hc]

theorem openOn_answer {begun : Option FrameIter} (hb : ∀ it ∈ begun, 0 < it.bytesProcessed)
    (i : Nat) :
    (openOn begun i).answer = answersOn i (begun.toList.map (·.msg)) := by
  cases begun with
  | none => rfl
  | some it =>
    have hpos := Nat.pos_iff_ne_zero.mp (hb it rfl)
    by_cases hc : it.msg.header.channel.get.toNat = i
    · by_cases ha : it.msg.header.isAnswer = true
      · simp [openOn, FrameIter.header, hc, FrameIter.transfer, hpos, MultiframeReceiver.answer,
          ha, answersOn]
      · simp [openOn, FrameIter.header, hc, FrameIter.transfer, hpos, MultiframeReceiver.answer,
          ha, answersOn]
    · simp [openOn, FrameIter.header, hc, MultiframeReceiver.answer, answersOn]

theorem answersOn_append (i : Nat) (msgs more : List OutgoingMessage) :
    answersOn i (msgs ++ more) = answersOn i msgs + answersOn i more := by
  simp [answersOn]

variable {N : Nat} {builder : ProtocolBuilder N} {s : Net N}

/-- The byte counts of a direction say which messages are begun and which are not. -/
theorem Link.outstanding {begun : Option FrameIter} {msgs : List OutgoingMessage} {x : Bool}
    (h : Link builder (s x) (s !x) begun msgs) :
    unstarted builder.maxFrameSize (s.processed builder.maxFrameSize x) (s x).sent = msgs ∧
      unfinished builder.maxFrameSize (s.processed builder.maxFrameSize x) (s x).sent =
        begun.toList.map (·.msg) ++ msgs := by
  obtain ⟨done, hdone⟩ := h.sent
  have hlen := congrArg List.length h.bytes
  rw [List.length_append, inFlight_length] at hlen
  have hproc : s.processed builder.maxFrameSize x =
      wireLength builder.maxFrameSize (s x).sent - (s x).stream.length - (s !x).buffer.length := rfl
  rw [hproc, hdone, wireLength_append, wireLength_append]
  cases begun with
  | none =>
    have hz : ((inFlight builder.maxFrameSize none []).map
        (·.emit builder.maxFrameSize)).flatten.length = 0 := rfl
    have hn : wireLength builder.maxFrameSize done +
        (wireLength builder.maxFrameSize ([] : List OutgoingMessage) +
          wireLength builder.maxFrameSize msgs) -
        (s x).stream.length - (s !x).buffer.length = wireLength builder.maxFrameSize done + 0 := by
      have : wireLength builder.maxFrameSize ([] : List OutgoingMessage) = 0 := rfl
      omega
    simp only [Option.toList_none, List.map_nil, List.nil_append, hn, unstarted_skip,
      unfinished_skip, unstarted_zero, unfinished_zero, and_self]
  | some it =>
    obtain ⟨_, _, before, hne, hb⟩ := h.started it rfl
    obtain ⟨n, htotal, hfirst, hlt⟩ := begun_position hne hb
    have hone : wireLength builder.maxFrameSize [it.msg] =
        (it.msg.toBytes builder.maxFrameSize).length := by
      simp [wireLength]
    have hn : wireLength builder.maxFrameSize done +
        (wireLength builder.maxFrameSize [it.msg] + wireLength builder.maxFrameSize msgs) -
        (s x).stream.length - (s !x).buffer.length = wireLength builder.maxFrameSize done + n := by
      omega
    have hskip : n - (it.msg.toBytes builder.maxFrameSize).length = 0 := by omega
    simp only [Option.toList_some, List.map_cons, List.map_nil, hn,
      List.singleton_append, unstarted_skip, unfinished_skip]
    rw [unstarted, if_neg (by omega), unfinished, if_pos hlt, hskip, unstarted_zero]
    exact ⟨rfl, rfl⟩

/-- Two sides that talk to each other never find fault with each other, and the outstanding requests
of each are, without overlap, those that have not reached the other one, those it has not answered
and those whose answers are not completely back. -/
theorem peers_agree (h : NetReach builder s) :
    (∀ x, (s x).failed = false) ∧ ∀ x (i : Fin N),
      ((s x).protocol.channels i).outgoingRequests.val =
      requestsOn i (unstarted builder.maxFrameSize (s.processed builder.maxFrameSize x)
        (s x).sent) +
        ((s !x).protocol.channels i).incomingRequests.val +
        answersOn i (unfinished builder.maxFrameSize (s.processed builder.maxFrameSize !x)
          (s !x).sent) := by
  obtain ⟨begun, msgs, hinv⟩ := h.inv
  refine ⟨hinv.ok, fun x i => ?_⟩
  have hb := hinv.balanced x i
  have hpos : ∀ z, ∀ it ∈ begun z, 0 < it.bytesProcessed :=
    fun z it hit => ((hinv.link z).started it hit).1
  have hto := hinv.link (!x)
  rw [(hinv.link x).outstanding.1, hto.outstanding.2, answersOn_append]
  unfold Balanced at hb
  rw [requestIds_inFlight (hpos x), answerIds_inFlight (hpos _), (hinv.toward x).receiving i,
    openOn_answer (hpos _)] at hb
  rw [hb]
  abel

/-- A request of two frames is cancelled and answered, while one of the other side is answered too:
the first answer has arrived, and the second is on its way. -/
theorem peers_agree_exchange :
    ∃ s : Net 1, NetReach JulietProtocol.smallBuilder s ∧ (∀ x, (s x).failed = false) ∧
    ((s true).protocol.channels 0).outgoingRequests = ∅ ∧
    ((s false).protocol.channels 0).outgoingRequests = {⟨1⟩} ∧
    answersOn 0 (unfinished MaxFrameSize.smallest (s.processed MaxFrameSize.smallest true)
      (s true).sent) = {⟨1⟩} := by
  have h0 : NetReach JulietProtocol.smallBuilder _ := .start
  have h1 := h0.step (.createRequest true ⟨0⟩ (some [1, 2, 3, 4, 5, 6]) _ _ rfl)
  have h2 := h1.step (.deliver false 12 _ _ rfl)
  have h3 := h2.step (.cancelRequest true ⟨0⟩ ⟨1⟩ _ _ rfl (by decide))
  have h4 := h3.step (.createRequest false ⟨0⟩ none _ _ rfl)
  have h5 := h4.step (.deliver true 4 _ _ rfl)
  have h6 := h5.step (.deliver false 7 _ _ rfl)
  have h7 := h6.step (.cancelResponse false ⟨0⟩ ⟨1⟩ _ _ rfl)
  have h8 := h7.step (.createResponse true ⟨0⟩ ⟨1⟩ (some [9]) _ _ rfl)
  have h9 := h8.step (.deliver true 4 _ _ rfl)
  obtain ⟨hok, hout⟩ := peers_agree h9
  refine ⟨_, h9, hok, rfl, rfl, ?_⟩
  exact (zero_add _).symm.trans (hout false 0).symm

end Juliet
