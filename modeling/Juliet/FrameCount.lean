import Juliet.ToBytes

namespace Juliet

open OutgoingMessage

/-- The frames that are still to come of a message. -/
def FrameIter.upcoming (it : FrameIter) (m : MaxFrameSize) : List OutgoingFrame :=
  (it.remaining m).map fun it => (it.nextOwned m).1

/-- All frames of a message, in the order in which `frames` yields them. -/
def OutgoingMessage.frameList (msg : OutgoingMessage) (m : MaxFrameSize) : List OutgoingFrame :=
  msg.frames.upcoming m

namespace FrameIter

theorem upcoming_of_none {it : FrameIter} {m : MaxFrameSize} (h : (it.nextOwned m).2 = none) :
    it.upcoming m = [(it.nextOwned m).1] := by
  rw [upcoming, remaining_of_none h, List.map_singleton]

theorem upcoming_of_some {it it' : FrameIter} {m : MaxFrameSize}
    (h : (it.nextOwned m).2 = some it') :
    it.upcoming m = (it.nextOwned m).1 :: it'.upcoming m := by
  rw [upcoming, remaining_of_some h, List.map_cons, upcoming]

/-- Following `next_owned` to its end: the rule for facts about all frames still to come. -/
theorem upcoming_induction {m : MaxFrameSize} {P : FrameIter → Prop}
    (last : ∀ it, (it.nextOwned m).2 = none → P it)
    (more : ∀ it it', (it.nextOwned m).2 = some it' → P it' → P it) (it : FrameIter) : P it := by
  induction hn : it.body.length using Nat.strongRecOn generalizing it with
  | ind n ih =>
    have hm : 10 ≤ m.get := m.min_le
    cases h : (it.nextOwned m).2 with
    | none => exact last it h
    | some it' =>
      obtain ⟨hbody, hlt⟩ := body_of_some h
      have hl : it'.body.length = n - (m.get - 4) := by rw [hbody, List.length_drop, hn]
      exact more it it' h (ih _ (by omega) it' hl)

theorem upcoming_pos (it : FrameIter) (m : MaxFrameSize) : 0 < (it.upcoming m).length := by
  cases h : (it.nextOwned m).2 with
  | none => simp [upcoming_of_none h]
  | some it' => simp [upcoming_of_some h]

theorem upcoming_ne_nil (it : FrameIter) (m : MaxFrameSize) : it.upcoming m ≠ [] :=
  List.ne_nil_of_length_pos (it.upcoming_pos m)

theorem nextOwned_bytes_length (it : FrameIter) (m : MaxFrameSize) :
    (it.nextOwned m).1.bytes.length = 4 + min (m.get - 4) it.body.length := by
  have h := congrArg List.length (it.emit_eq_body m)
  simpa [emit] using h

theorem upcoming_length (it : FrameIter) (m : MaxFrameSize) :
    (it.upcoming m).length = extraFrames m it.body.length + 1 := by
  have hm : 10 ≤ m.get := m.min_le
  induction it using upcoming_induction (m := m) with
  | last it h =>
    have hle := body_of_none h
    have hz : extraFrames m it.body.length = 0 := Nat.div_eq_of_lt (by omega)
    rw [upcoming_of_none h, hz, List.length_singleton]
  | more it it' h ih =>
    obtain ⟨hbody, hlt⟩ := body_of_some h
    have hs : extraFrames m it.body.length = extraFrames m (it.body.length - (m.get - 4)) + 1 := by
      unfold extraFrames
      rw [← Nat.add_div_right _ (show 0 < m.get - 4 by omega)]
      congr 1
      omega
    rw [upcoming_of_some h, List.length_cons, ih, hbody, List.length_drop, hs]

/-- Only the last frame may be shorter than the maximum. -/
theorem upcoming_full (it : FrameIter) (m : MaxFrameSize) :
    (∀ f ∈ (it.upcoming m).dropLast, f.bytes.length = m.get) ∧ ∀ f ∈ it.upcoming m,
      f.bytes.length ≤ m.get := by
  have hm : 10 ≤ m.get := m.min_le
  induction it using upcoming_induction (m := m) with
  | last it h =>
    have hlen := it.nextOwned_bytes_length m
    rw [upcoming_of_none h]
    refine ⟨by simp, ?_⟩
    intro f hf
    rw [List.mem_singleton.mp hf]
    omega
  | more it it' h ih =>
    obtain ⟨_, hlt⟩ := body_of_some h
    have hlen := it.nextOwned_bytes_length m
    rw [upcoming_of_some h, List.dropLast_cons_of_ne_nil (it'.upcoming_ne_nil m)]
    constructor
    · intro f hf
      rcases List.mem_cons.mp hf with rfl | hf
      · omega
      · exact ih.1 f hf
    · intro f hf
      rcases List.mem_cons.mp hf with rfl | hf
      · omega
      · exact ih.2 f hf

theorem nextOwned_some_payload {it : FrameIter} {m : MaxFrameSize} {pl : Bytes}
    (h : it.msg.payload = some pl) :
    (it.nextOwned m).1.preamble.payloadLength = it.lengthPrefix pl ∧
      (it.nextOwned m).1.segment = (pl.drop it.bytesProcessed).take (it.framePayloadLen m pl) := by
  unfold nextOwned
  split
  next pl' h' =>
    cases Option.some.inj (h.symm.trans h')
    dsimp only
    split <;> exact ⟨rfl, rfl⟩
  next h' => simp [h] at h'

/-- Behind the first frame no frame carries a length. -/
theorem upcoming_sentinel (it : FrameIter) (m : MaxFrameSize) (h0 : 0 < it.bytesProcessed) :
    ∀ f ∈ it.upcoming m, f.preamble.payloadLength = Varint32.sentinel := by
  have hfirst : ∀ it : FrameIter, 0 < it.bytesProcessed →
      (it.nextOwned m).1.preamble.payloadLength = Varint32.sentinel := by
    intro it h0
    cases hp : it.msg.payload with
    | none => rw [nextOwned_none hp]; rfl
    | some pl => rw [(nextOwned_some_payload hp).1, lengthPrefix, if_neg (by omega)]
  induction it using upcoming_induction (m := m) with
  | last it h =>
    intro f hf
    rw [upcoming_of_none h, List.mem_singleton] at hf
    rw [hf]
    exact hfirst it h0
  | more it it' h ih =>
    obtain ⟨_, _, hlt, _⟩ := nextOwned_some h
    intro f hf
    rw [upcoming_of_some h] at hf
    rcases List.mem_cons.mp hf with rfl | hf
    · exact hfirst it h0
    · exact ih (by omega) f hf

/-- The segments still to come make up the rest of the payload. -/
theorem upcoming_segments (it : FrameIter) (m : MaxFrameSize) :
    ((it.upcoming m).map OutgoingFrame.segment).flatten =
      (it.msg.payload.getD []).drop it.bytesProcessed := by
  induction it using upcoming_induction (m := m) with
  | last it h =>
    rw [upcoming_of_none h]
    cases hp : it.msg.payload with
    | none => simp [nextOwned_none hp, OutgoingFrame.new, OutgoingFrame.newWithPayload,
      OutgoingFrame.segment]
    | some pl =>
      have hall := nextOwned_none_iff.mp h pl hp
      have hlen := it.framePayloadLen_eq m pl
      rw [List.map_singleton, List.flatten_singleton, (nextOwned_some_payload hp).2,
        Option.getD_some, List.take_of_length_le]
      rw [List.length_drop]
      omega
  | more it it' h ih =>
    obtain ⟨pl, hp, hmsg, hbp, _⟩ := nextOwned_some_iff.mp h
    have hlen := it.framePayloadLen_eq m pl
    rw [upcoming_of_some h, List.map_cons, List.flatten_cons, ih, (nextOwned_some_payload hp).2,
      hmsg, hp, hbp, ← hlen, Option.getD_some, ← List.drop_drop, List.take_append_drop]

end FrameIter

namespace OutgoingMessage

theorem frameList_length (msg : OutgoingMessage) (m : MaxFrameSize) :
    (msg.frameList m).length = msg.numFrames m := by
  rw [frameList, FrameIter.upcoming_length, numFrames_eq]

theorem frameList_bytes (msg : OutgoingMessage) (m : MaxFrameSize) :
    ((msg.frameList m).map OutgoingFrame.bytes).flatten = msg.wire m := by
  rw [wire, ← show msg.frames.header = msg.header from rfl, ← FrameIter.remaining_emit,
    frameList, FrameIter.upcoming, List.map_map]
  rfl

theorem frameList_total (msg : OutgoingMessage) (m : MaxFrameSize) :
    ((msg.frameList m).map fun f => f.bytes.length).sum = msg.totalLen m := by
  rw [← wire_length, ← frameList_bytes, List.length_flatten, List.map_map]
  rfl

/-- The length of the payload stands in the first frame and in no other. -/
theorem frameList_prefixes (msg : OutgoingMessage) (m : MaxFrameSize) :
    ∃ first rest, msg.frameList m = first :: rest ∧
      first.preamble.payloadLength =
        (msg.payload.map fun pl => Varint32.encode (UInt32.ofNat pl.length)).getD
          Varint32.sentinel ∧
      ∀ f ∈ rest, f.preamble.payloadLength = Varint32.sentinel := by
  have hfirst : (msg.frames.nextOwned m).1.preamble.payloadLength =
      (msg.payload.map fun pl => Varint32.encode (UInt32.ofNat pl.length)).getD
        Varint32.sentinel := by
    cases hp : msg.payload with
    | none =>
      have hmsg : msg.frames.msg.payload = none := hp
      rw [FrameIter.nextOwned_none hmsg]
      rfl
    | some pl =>
      have hmsg : msg.frames.msg.payload = some pl := hp
      exact (FrameIter.nextOwned_some_payload hmsg).1
  cases h : (msg.frames.nextOwned m).2 with
  | none => exact ⟨_, [], FrameIter.upcoming_of_none h, hfirst, by simp⟩
  | some it' =>
    obtain ⟨_, _, hlt, _⟩ := FrameIter.nextOwned_some h
    exact ⟨_, it'.upcoming m, FrameIter.upcoming_of_some h, hfirst,
      it'.upcoming_sentinel m (by omega)⟩

theorem frameList_segments (msg : OutgoingMessage) (m : MaxFrameSize) :
    ((msg.frameList m).map OutgoingFrame.segment).flatten = msg.payload.getD [] :=
  FrameIter.upcoming_segments msg.frames m

theorem numFrames_multi (msg : OutgoingMessage) (m : MaxFrameSize) :
    1 < msg.numFrames m ↔ msg.isMultiFrame m = true := by
  rw [isMultiFrame_iff, ← frameList_length]
  cases h : (msg.frames.nextOwned m).2 with
  | none => simp [frameList, FrameIter.upcoming_of_none h]
  | some it' =>
    have hpos := it'.upcoming_pos m
    simp only [frameList, FrameIter.upcoming_of_some h, List.length_cons, ne_eq, reduceCtorEq,
      not_false_eq_true, iff_true]
    omega

theorem isMultiFrame_payloadLen (msg : OutgoingMessage) (m : MaxFrameSize) :
    msg.isMultiFrame m = payloadIsMultiFrame m msg.payloadLen := by
  cases hp : msg.payload with
  | none => simp [isMultiFrame, payloadIsMultiFrame, payloadLen, hp]
  | some pl => simp [isMultiFrame, payloadLen, hp]

/-- The closed formulas of a message say what its frames are. -/
theorem frameList_formulas (msg : OutgoingMessage) (m : MaxFrameSize) :
    (msg.frameList m).length = msg.numFrames m ∧
      (∀ f ∈ (msg.frameList m).dropLast, f.bytes.length = m.get) ∧
      (∀ f ∈ msg.frameList m, f.bytes.length ≤ m.get) ∧
      ((msg.frameList m).map fun f => f.bytes.length).sum = msg.totalLen m ∧
      (∃ first rest, msg.frameList m = first :: rest ∧
        first.preamble.payloadLength =
          (msg.payload.map fun pl => Varint32.encode (UInt32.ofNat pl.length)).getD
            Varint32.sentinel ∧
        ∀ f ∈ rest, f.preamble.payloadLength = Varint32.sentinel) ∧
      ((msg.frameList m).map OutgoingFrame.segment).flatten = msg.payload.getD [] ∧
      (1 < msg.numFrames m ↔ msg.isMultiFrame m = true) ∧
      msg.isMultiFrame m = payloadIsMultiFrame m msg.payloadLen := by
  obtain ⟨hfull, hle⟩ := msg.frames.upcoming_full m
  exact ⟨frameList_length msg m, hfull, hle, frameList_total msg m, frameList_prefixes msg m,
    frameList_segments msg m, numFrames_multi msg m, isMultiFrame_payloadLen msg m⟩

end OutgoingMessage

end Juliet
