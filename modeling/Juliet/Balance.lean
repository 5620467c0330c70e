import Mathlib.Data.Finset.Insert
import Juliet.HonestFrame

namespace Juliet

def Kind.isRequest : Kind → Bool
  | .request | .requestPl => true
  | _ => false

/-- The kinds that settle a request. -/
def Kind.isAnswer : Kind → Bool
  | .response | .responsePl | .cancelResp => true
  | _ => false

namespace Header

def isRequest (h : Header) : Bool := h.kind.toOption.any Kind.isRequest

def isAnswer (h : Header) : Bool := h.kind.toOption.any Kind.isAnswer

@[simp]
theorem new_isRequest (kind : Kind) (channel : ChannelId) (id : Id) :
    (new kind channel id).isRequest = kind.isRequest := by
  simp [isRequest, Except.toOption]

@[simp]
theorem new_isAnswer (kind : Kind) (channel : ChannelId) (id : Id) :
    (new kind channel id).isAnswer = kind.isAnswer := by
  simp [isAnswer, Except.toOption]

end Header

theorem Kind.isRequest_iff {kind : Kind} :
    kind.isRequest = true ↔ kind = .request ∨ kind = .requestPl := by
  cases kind <;> simp [Kind.isRequest]

theorem Kind.isAnswer_iff {kind : Kind} :
    kind.isAnswer = true ↔ kind = .response ∨ kind = .responsePl ∨ kind = .cancelResp := by
  cases kind <;> simp [Kind.isAnswer]

theorem Kind.isRequest_of_isAnswer {kind : Kind} (h : kind.isAnswer = true) :
    kind.isRequest = false := by
  rcases Kind.isAnswer_iff.mp h with rfl | rfl | rfl <;> rfl

/-- Whether a frame begins a message on the channel. -/
def FrameIter.startsOn (i : Nat) (it : FrameIter) : Bool :=
  it.bytesProcessed == 0 && it.header.channel.get.toNat == i

/-- The requests on a channel that the frames begin. -/
def requestIds (i : Nat) (its : List FrameIter) : Multiset Id :=
  ((its.filter fun it => it.startsOn i && it.header.isRequest).map fun it => it.header.id : List Id)

/-- The answers on a channel that the frames begin. -/
def answerIds (i : Nat) (its : List FrameIter) : Multiset Id :=
  ((its.filter fun it => it.startsOn i && it.header.isAnswer).map fun it => it.header.id : List Id)

/-- The answer of which a part has been received. -/
def MultiframeReceiver.answer : MultiframeReceiver → Multiset Id
  | .ready => 0
  | .inProgress header _ _ => if header.isAnswer then {header.id} else 0

@[simp]
theorem requestIds_nil (i : Nat) : requestIds i [] = 0 := rfl

@[simp]
theorem answerIds_nil (i : Nat) : answerIds i [] = 0 := rfl

theorem requestIds_cons (i : Nat) (it : FrameIter) (its : List FrameIter) :
    requestIds i (it :: its) =
      if it.startsOn i && it.header.isRequest then it.header.id ::ₘ requestIds i its
      else requestIds i its := by
  unfold requestIds
  rw [List.filter_cons]
  split <;> simp

theorem answerIds_cons (i : Nat) (it : FrameIter) (its : List FrameIter) :
    answerIds i (it :: its) =
      if it.startsOn i && it.header.isAnswer then it.header.id ::ₘ answerIds i its
      else answerIds i its := by
  unfold answerIds
  rw [List.filter_cons]
  split <;> simp

@[simp]
theorem requestIds_append (i : Nat) (xs ys : List FrameIter) :
    requestIds i (xs ++ ys) = requestIds i xs + requestIds i ys := by
  simp [requestIds]

@[simp]
theorem answerIds_append (i : Nat) (xs ys : List FrameIter) :
    answerIds i (xs ++ ys) = answerIds i xs + answerIds i ys := by
  simp [answerIds]

/-- Every outstanding request of `a` is in exactly one place: on its way, registered with the peer,
or answered with the answer on its way or partly received. -/
def Balanced (i : Nat) (a b : Channel) (ab ba : List FrameIter) : Prop :=
  a.outgoingRequests.val = requestIds i ab + b.incomingRequests.val + answerIds i ba +
    a.currentMultiframeReceiver.answer

theorem FrameIter.passOver_cases {it : FrameIter} {m : MaxFrameSize} {r r' : MultiframeReceiver}
    (h : it.passOver m r = some r') :
    (it.bytesProcessed = 0 ∧ (it.nextOwned m).2 = none ∧ r' = r) ∨
    (it.bytesProcessed = 0 ∧ (it.nextOwned m).2 ≠ none ∧ r = .ready ∧
      r'.inProgressHeader = some it.header) ∨
    (0 < it.bytesProcessed ∧ r.inProgressHeader = some it.header ∧
      ((it.nextOwned m).2 = none ∧ r' = .ready ∨
        (it.nextOwned m).2 ≠ none ∧ r'.inProgressHeader = some it.header)) := by
  have htransfer : ∀ it' : FrameIter, 0 < it'.bytesProcessed → it'.transfer.inProgressHeader =
      some it'.header := by
    intro it' hpos
    simp [transfer, Nat.pos_iff_ne_zero.mp hpos, MultiframeReceiver.inProgressHeader]
  unfold passOver at h
  split at h
  next h0 =>
    cases hn : (it.nextOwned m).2 with
    | none =>
      simp only [hn, Option.some.injEq] at h
      exact .inl ⟨h0, rfl, h.symm⟩
    | some it' =>
      obtain ⟨_, hhd, hlt, _⟩ := nextOwned_some hn
      simp only [hn] at h
      split at h
      next hr =>
        cases Option.some.inj h
        exact .inr (.inl ⟨h0, by simp, hr, by rw [htransfer it' (by omega), hhd]⟩)
      next => simp at h
  next h0 =>
    have hpos := Nat.pos_of_ne_zero h0
    split at h
    next hr =>
      have hin : r.inProgressHeader = some it.header := by rw [hr, htransfer it hpos]
      cases hn : (it.nextOwned m).2 with
      | none =>
        simp only [hn, Option.some.injEq] at h
        exact .inr (.inr ⟨hpos, hin, .inl ⟨rfl, h.symm⟩⟩)
      | some it' =>
        obtain ⟨_, hhd, hlt, _⟩ := nextOwned_some hn
        simp only [hn, Option.some.injEq] at h
        exact .inr (.inr ⟨hpos, hin, .inr ⟨by simp, by rw [← h, htransfer it' (by omega), hhd]⟩⟩)
    next => simp at h

theorem MultiframeReceiver.answer_of_header {r : MultiframeReceiver} {h : Header}
    (hr : r.inProgressHeader = some h) :
    r.answer = if h.isAnswer then {h.id} else 0 := by
  cases r with
  | ready => simp [inProgressHeader] at hr
  | inProgress h' p t =>
    cases Option.some.inj hr
    rfl

namespace Channel

variable {self : Channel} {m : MaxFrameSize} {kind : Kind} {channel : ChannelId} {id : Id}
  {it : FrameIter} {receiver : MultiframeReceiver}

theorem Sendable.payload_none {config : ChannelConfiguration}
    (hs : Sendable config channel id kind it.msg) (hk : kind ≠ .requestPl)
    (hk' : kind ≠ .responsePl) :
    it.bytesProcessed = 0 ∧ ∀ m, (it.nextOwned m).2 = none := by
  have hn : it.msg.payload = none := by
    generalize it.msg = msg at hs
    cases hs <;> first | rfl | contradiction
  have hle := it.le
  simp only [OutgoingMessage.payloadLen, hn, Option.getD_none, List.length_nil] at hle
  exact ⟨by omega, fun m => by rw [FrameIter.nextOwned_none hn]⟩

theorem deliver_incoming (hs : Sendable self.config channel id kind it.msg) :
    (self.deliver m kind channel id it receiver).2.incomingRequests =
      if kind.isRequest = true ∧ it.bytesProcessed = 0 then insert id self.incomingRequests
      else self.incomingRequests := by
  cases kind with
  | request =>
    obtain ⟨h0, _⟩ := Sendable.payload_none hs (by simp) (by simp)
    simp [deliver, Kind.isRequest, h0]
  | requestPl =>
    by_cases h0 : it.bytesProcessed = 0
    · simp [deliver, Kind.isRequest, h0, withReceiver]
    · simp [deliver, Kind.isRequest, h0, withReceiver]
  | responsePl =>
    by_cases hn : (it.nextOwned m).2 = none
    · simp [deliver, Kind.isRequest, hn, withReceiver, release]
    · simp [deliver, Kind.isRequest, hn, withReceiver]
  | response | cancelReq | cancelResp => simp [deliver, Kind.isRequest, release]

theorem deliver_outgoing (hs : Sendable self.config channel id kind it.msg) :
    (self.deliver m kind channel id it receiver).2.outgoingRequests =
      if kind.isAnswer = true ∧ (it.nextOwned m).2 = none then self.outgoingRequests.erase id
      else self.outgoingRequests := by
  cases kind with
  | response | cancelResp =>
    obtain ⟨_, hn⟩ := Sendable.payload_none hs (by simp) (by simp)
    simp [deliver, Kind.isAnswer, hn, release]
  | responsePl =>
    by_cases hn : (it.nextOwned m).2 = none
    · simp [deliver, Kind.isAnswer, hn, withReceiver, release]
    · simp [deliver, Kind.isAnswer, hn, withReceiver]
  | requestPl =>
    by_cases h0 : it.bytesProcessed = 0
    · simp [deliver, Kind.isAnswer, h0, withReceiver]
    · simp [deliver, Kind.isAnswer, h0, withReceiver]
  | request | cancelReq => simp [deliver, Kind.isAnswer]

theorem deliver_receiver (hs : Sendable self.config channel id kind it.msg)
    (hpass : it.passOver m self.currentMultiframeReceiver = some receiver) :
    (self.deliver m kind channel id it receiver).2.currentMultiframeReceiver = receiver := by
  have hsame : kind ≠ .requestPl → kind ≠ .responsePl →
      receiver = self.currentMultiframeReceiver := by
    intro h1 h2
    obtain ⟨h0, hn⟩ := Sendable.payload_none hs h1 h2
    simpa [FrameIter.passOver, h0, hn] using hpass.symm
  cases kind with
  | requestPl =>
    by_cases h0 : it.bytesProcessed = 0
    · simp [deliver, h0, withReceiver]
    · simp [deliver, h0, withReceiver]
  | responsePl =>
    by_cases hn : (it.nextOwned m).2 = none
    · simp [deliver, hn, withReceiver, release]
    · simp [deliver, hn, withReceiver]
  | request | response | cancelReq | cancelResp => simp [deliver, release,
    hsame (by simp) (by simp)]

theorem deliver_allowance (hs : Sendable self.config channel id kind it.msg)
    (hle : self.cancellationAllowance ≤ self.config.requestLimit.toNat) :
    (self.deliver m kind channel id it receiver).2.cancellationAllowance =
      if kind.isRequest = true ∧ it.bytesProcessed = 0 then
        min (self.cancellationAllowance + 1) self.config.requestLimit.toNat
      else if kind = .cancelReq then self.cancellationAllowance - 1
        else self.cancellationAllowance := by
  cases kind with
  | request =>
    obtain ⟨h0, _⟩ := Sendable.payload_none hs (by simp) (by simp)
    simp [deliver, Kind.isRequest, h0, register_allowance _ _ hle]
  | requestPl =>
    by_cases h0 : it.bytesProcessed = 0
    · have hreg := register_allowance (self.withReceiver receiver) id hle
      simp only [deliver, h0, if_true, hreg, Kind.isRequest, and_self]
      rfl
    · simp [deliver, Kind.isRequest, h0, withReceiver]
  | responsePl =>
    by_cases hn : (it.nextOwned m).2 = none
    · simp [deliver, Kind.isRequest, hn, withReceiver, release]
    · simp [deliver, Kind.isRequest, hn, withReceiver]
  | response | cancelReq | cancelResp => simp [deliver, Kind.isRequest, release]

@[simp]
theorem deliver_config : (self.deliver m kind channel id it receiver).2.config = self.config := by
  cases kind with
  | requestPl =>
    by_cases h0 : it.bytesProcessed = 0
    · simp [deliver, h0, withReceiver]
    · simp [deliver, h0, withReceiver]
  | responsePl =>
    by_cases hn : (it.nextOwned m).2 = none
    · simp [deliver, hn, withReceiver, release]
    · simp [deliver, hn, withReceiver]
  | request | response | cancelReq | cancelResp => simp [deliver, release]

end Channel

namespace Balanced

variable {i : Nat} {a b : Channel} {ab ba : List FrameIter} {it : FrameIter} {m : MaxFrameSize}
  {kind : Kind} {channel : ChannelId} {id : Id} {receiver : MultiframeReceiver}

/-- A request on its way is not registered with the peer, which has room for it. -/
theorem fresh (h : Balanced i a b (it :: ab) ba) (hs : it.startsOn i = true)
    (hr : it.header.isRequest = true) {limit : Nat} (hl : a.outgoingRequests.card ≤ limit) :
    it.header.id ∉ b.incomingRequests ∧ b.incomingRequests.card < limit := by
  have hnd := a.outgoingRequests.nodup
  have hcard : a.outgoingRequests.val.card ≤ limit := hl
  rw [h, requestIds_cons, hs, hr] at hnd hcard
  simp only [Bool.and_self, if_true, Multiset.cons_add, Multiset.nodup_cons,
    Multiset.mem_add, Multiset.card_cons, Multiset.card_add] at hnd hcard
  refine ⟨fun hin => hnd.1 (.inl (.inl (.inr hin))), ?_⟩
  rw [Finset.card_def]
  omega

theorem asked_start (h : Balanced i b a ba (it :: ab)) (hs : it.startsOn i = true)
    (hr : it.header.isAnswer = true) :
    it.header.id ∈ b.outgoingRequests := by
  rw [← Finset.mem_val, h, answerIds_cons, hs, hr]
  simp

theorem asked_later (h : Balanced i b a ba ab)
    (hin : b.currentMultiframeReceiver.inProgressHeader = some it.header)
    (hr : it.header.isAnswer = true) : it.header.id ∈ b.outgoingRequests := by
  rw [← Finset.mem_val, h, MultiframeReceiver.answer_of_header hin, hr]
  simp

/-- No second answer under the header of an answer that is being received. -/
theorem apart (h : Balanced i b a ba (it :: ab)) (hs : it.startsOn i = true)
    (hr : it.header.isAnswer = true) :
    b.currentMultiframeReceiver.inProgressHeader ≠ some it.header := by
  intro hin
  have hnd := b.outgoingRequests.nodup
  rw [h, answerIds_cons, hs, hr, MultiframeReceiver.answer_of_header hin, hr] at hnd
  simp only [Bool.and_self, if_true, Multiset.add_cons, Multiset.cons_add,
    Multiset.nodup_cons] at hnd
  exact hnd.1 (by simp)

/-- Receiving a frame of `a` moves its request to the peer's register. -/
theorem deliver_requester (h : Balanced i a b (it :: ab) ba)
    (hs : Sendable b.config channel id kind it.msg) (hi : channel.get.toNat = i) :
    Balanced i a (b.deliver m kind channel id it receiver).2 ab ba := by
  have hhd : it.header = Header.new kind channel id := hs.header
  unfold Balanced at h ⊢
  rw [Channel.deliver_incoming hs, h, requestIds_cons]
  simp only [FrameIter.startsOn, hhd, Header.new_channel, hi, beq_self_eq_true, Bool.and_true,
    Header.new_isRequest, Header.new_id]
  by_cases hc : kind.isRequest = true ∧ it.bytesProcessed = 0
  · have hfresh : id ∉ b.incomingRequests := by
      have hf :=
        (fresh h (by simp [FrameIter.startsOn, hc.2, hhd, hi]) (by simp [hhd, hc.1]) le_rfl).1
      simpa [hhd] using hf
    rw [if_pos hc, Finset.insert_val_of_notMem hfresh]
    simp [hc.1, hc.2]
  · rw [if_neg hc, if_neg]
    simpa [and_comm] using hc

/-- Receiving the last frame of an answer settles the request. -/
theorem deliver_answerer (h : Balanced i b a ba (it :: ab))
    (hs : Sendable b.config channel id kind it.msg) (hi : channel.get.toNat = i)
    (hpass : it.passOver m b.currentMultiframeReceiver = some receiver) :
    Balanced i (b.deliver m kind channel id it receiver).2 a ba ab := by
  have hhd : it.header = Header.new kind channel id := hs.header
  unfold Balanced at h ⊢
  rw [Channel.deliver_outgoing hs, Channel.deliver_receiver hs hpass]
  rw [answerIds_cons] at h
  simp only [FrameIter.startsOn, hhd, Header.new_channel, hi, beq_self_eq_true, Bool.and_true,
    Header.new_isAnswer, Header.new_id] at h
  have herase : ∀ s : Multiset Id, b.outgoingRequests.val = id ::ₘ s →
      (b.outgoingRequests.erase id).val = s := by
    intro s hs
    rw [Finset.erase_val, hs, Multiset.erase_cons_head]
  rcases FrameIter.passOver_cases hpass with ⟨h0, hn, rfl⟩ | ⟨h0, hn, hr, hin⟩ | ⟨hpos, hin, hnext⟩
  · by_cases hk : kind.isAnswer = true
    · rw [if_pos ⟨hk, hn⟩]
      apply herase
      rw [h]
      simp [h0, hk]
    · rw [if_neg (fun hc => hk hc.1), h]
      simp [h0, hk]
  · rw [if_neg (fun hc => hn hc.2), h, hr, MultiframeReceiver.answer_of_header hin, hhd]
    by_cases hk : kind.isAnswer = true
    · simp [h0, hk, MultiframeReceiver.answer, Multiset.add_comm _ ({id} : Multiset Id)]
    · simp [h0, hk, MultiframeReceiver.answer]
  · have hne : (it.bytesProcessed == 0) = false := by
      rw [beq_eq_false_iff_ne]
      omega
    rw [MultiframeReceiver.answer_of_header hin, hhd, hne] at h
    simp only [Bool.false_and, Bool.false_eq_true, if_false,
      Header.new_isAnswer, Header.new_id] at h
    rcases hnext with ⟨hn, rfl⟩ | ⟨hn, hin'⟩
    · by_cases hk : kind.isAnswer = true
      · rw [if_pos ⟨hk, hn⟩]
        apply herase
        rw [h]
        simp [hk, MultiframeReceiver.answer, Multiset.add_comm _ ({id} : Multiset Id)]
      · rw [if_neg (fun hc => hk hc.1), h]
        simp [hk, MultiframeReceiver.answer]
    · rw [if_neg (fun hc => hn hc.2), h, MultiframeReceiver.answer_of_header hin', hhd]
      simp

end Balanced

end Juliet
