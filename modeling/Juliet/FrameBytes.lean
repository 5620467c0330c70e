import Juliet.OutgoingMessage

namespace Juliet

/-- The length prefix as it stands on the wire. -/
def OutgoingMessage.prefixDigits (pl : Bytes) : Bytes := Varint32.digits (UInt32.ofNat pl.length)

open OutgoingMessage

theorem prefixDigits_pos (pl : Bytes) : 0 < (prefixDigits pl).length := Varint32.digits_length_pos _

theorem prefixDigits_le (pl : Bytes) : (prefixDigits pl).length ≤ 5 := Varint32.digits_length_le _

@[simp]
theorem Varint32.sentinel_len : Varint32.sentinel.len = 0 := rfl

@[simp]
theorem Varint32.sentinel_asRef : Varint32.sentinel.asRef = [] := rfl

theorem Preamble.asRef_eq (p : Preamble) : p.asRef = p.header.bytes ++ p.payloadLength.asRef := by
  unfold Preamble.asRef Preamble.len Varint32.asRef
  rw [List.take_append, List.take_of_length_le (by simp), Header.bytes_length]
  simp

theorem OutgoingFrame.newWithPayload_bytes (p : Preamble) (payload : Bytes) :
    (OutgoingFrame.newWithPayload p payload).bytes =
      p.header.bytes ++ p.payloadLength.asRef ++ payload := by
  simp [OutgoingFrame.bytes, OutgoingFrame.newWithPayload, Preamble.asRef_eq]

namespace FrameIter

/-- The bytes of the next frame. -/
def emit (it : FrameIter) (m : MaxFrameSize) : Bytes := (it.nextOwned m).1.bytes

/-- How many payload bytes have been handed out after the next frame. -/
def handedOut (it : FrameIter) (m : MaxFrameSize) (pl : Bytes) : Nat :=
  if it.bytesProcessed = 0 then min (m.get - 4 - (prefixDigits pl).length) pl.length
  else it.bytesProcessed + min (m.get - 4) (pl.length - it.bytesProcessed)

theorem framePayloadLen_eq (it : FrameIter) (m : MaxFrameSize) (pl : Bytes) :
    it.bytesProcessed + it.framePayloadLen m pl = it.handedOut m pl := by
  unfold framePayloadLen handedOut lengthPrefix Preamble.len
  by_cases h0 : it.bytesProcessed = 0
  · simp [h0, prefixDigits, Nat.sub_sub]
  · simp [h0]

theorem nextOwned_header (it : FrameIter) (m : MaxFrameSize) :
    (it.nextOwned m).1.header = it.header := by
  unfold nextOwned
  split
  next =>
    dsimp only
    split <;> rfl
  next => rfl

theorem nextOwned_position (it : FrameIter) (m : MaxFrameSize) :
    (it.nextOwned m).1.position = 0 := by
  unfold nextOwned
  split
  next =>
    dsimp only
    split <;> rfl
  next => rfl

theorem nextOwned_none {it : FrameIter} {m : MaxFrameSize} (h : it.msg.payload = none) :
    it.nextOwned m = (OutgoingFrame.new ⟨it.header, Varint32.sentinel⟩, none) := by
  unfold nextOwned
  split
  next h' => simp [h] at h'
  next => rfl

theorem emit_none {it : FrameIter} {m : MaxFrameSize} (h : it.msg.payload = none) :
    it.emit m = it.header.bytes := by
  rw [emit, nextOwned_none h, OutgoingFrame.new, OutgoingFrame.newWithPayload_bytes]
  simp

theorem emit_some {it : FrameIter} {m : MaxFrameSize} {pl : Bytes} (h : it.msg.payload = some pl) :
    it.emit m = it.header.bytes ++ (it.lengthPrefix pl).asRef ++
      (pl.drop it.bytesProcessed).take (it.framePayloadLen m pl) := by
  unfold emit nextOwned
  split
  next pl' h' =>
    rw [h] at h'
    cases h'
    dsimp only
    split
    · exact OutgoingFrame.newWithPayload_bytes _ _
    · exact OutgoingFrame.newWithPayload_bytes _ _
  next h' => simp [h] at h'

theorem emit_first {it : FrameIter} {m : MaxFrameSize} {pl : Bytes} (h : it.msg.payload = some pl)
    (h0 : it.bytesProcessed = 0) :
    it.emit m = it.header.bytes ++ prefixDigits pl ++ pl.take (it.handedOut m pl) := by
  rw [emit_some h, ← framePayloadLen_eq, h0, List.drop_zero, Nat.zero_add]
  simp [lengthPrefix, h0, prefixDigits]

theorem emit_later {it : FrameIter} {m : MaxFrameSize} {pl : Bytes} (h : it.msg.payload = some pl)
    (h0 : 0 < it.bytesProcessed) :
    it.emit m = it.header.bytes ++ (pl.drop it.bytesProcessed).take
      (min (m.get - 4) (pl.length - it.bytesProcessed)) := by
  have hne : it.bytesProcessed ≠ 0 := by omega
  have hlen : it.framePayloadLen m pl = min (m.get - 4) (pl.length - it.bytesProcessed) := by
    have he := it.framePayloadLen_eq m pl
    rw [handedOut, if_neg hne] at he
    omega
  rw [emit_some h, hlen]
  simp [lengthPrefix, hne]

theorem emit_length_pos (it : FrameIter) (m : MaxFrameSize) : 4 ≤ (it.emit m).length := by
  cases h : it.msg.payload with
  | none => simp [emit_none h]
  | some pl =>
    rw [emit_some h]
    simp only [List.length_append, Header.bytes_length]
    omega

/-- The iterator for the frames behind the next one. -/
theorem nextOwned_some_iff {it it' : FrameIter} {m : MaxFrameSize} :
    (it.nextOwned m).2 = some it' ↔
      ∃ pl, it.msg.payload = some pl ∧ it'.msg = it.msg ∧ it'.bytesProcessed = it.handedOut m pl ∧
        it.handedOut m pl < pl.length := by
  cases h : it.msg.payload with
  | none => simp [nextOwned_none h]
  | some pl =>
    have hnext : (it.nextOwned m).2 =
        if 0 < pl.length - (it.bytesProcessed + it.framePayloadLen m pl) then
        some ⟨it.msg, it.bytesProcessed + it.framePayloadLen m pl,
          it.advance_le m h⟩ else none := by
      unfold nextOwned
      split
      next pl' h' =>
        have he : pl' = pl := by simpa [h] using h'.symm
        subst he
        dsimp only
        split <;> rfl
      next h' => simp [h] at h'
    rw [hnext]
    have hrest := it.framePayloadLen_eq m pl
    constructor
    · intro hs
      split at hs
      next hlt =>
        cases Option.some.inj hs
        exact ⟨pl, rfl, rfl, hrest, by omega⟩
      next => simp at hs
    · rintro ⟨pl', hpl, hmsg, hbp, hlt⟩
      cases Option.some.inj hpl
      rw [if_pos (by omega)]
      exact congrArg some (FrameIter.ext hmsg.symm (hrest.trans hbp.symm))

theorem nextOwned_none_iff {it : FrameIter} {m : MaxFrameSize} :
    (it.nextOwned m).2 = none ↔ ∀ pl, it.msg.payload = some pl → it.handedOut m pl = pl.length := by
  have hle : ∀ pl, it.msg.payload = some pl → it.handedOut m pl ≤ pl.length := by
    intro pl h
    have h1 := it.advance_le m h
    rw [framePayloadLen_eq] at h1
    simpa [OutgoingMessage.payloadLen, h] using h1
  constructor
  · intro hn pl h
    by_contra hne
    have hlt : it.handedOut m pl < pl.length := Nat.lt_of_le_of_ne (hle pl h) hne
    have hl : it.handedOut m pl ≤ it.msg.payloadLen := by
      simp only [OutgoingMessage.payloadLen, h, Option.getD_some]
      omega
    have hs : (it.nextOwned m).2 = some ⟨it.msg, it.handedOut m pl, hl⟩ :=
      nextOwned_some_iff.mpr ⟨pl, h, rfl, rfl, hlt⟩
    rw [hn] at hs
    simp at hs
  · intro hall
    cases hs : (it.nextOwned m).2 with
    | none => rfl
    | some it' =>
      obtain ⟨pl, h, _, _, hlt⟩ := nextOwned_some_iff.mp hs
      have := hall pl h
      omega

theorem handedOut_pos (it : FrameIter) (m : MaxFrameSize) {pl : Bytes} (h : 0 < pl.length) :
    0 < it.handedOut m pl := by
  have hm : 10 ≤ m.get := m.min_le
  have hd := prefixDigits_le pl
  unfold handedOut
  split <;> omega

/-- What follows a frame carries on the same message, further along. -/
theorem nextOwned_some {it it' : FrameIter} {m : MaxFrameSize} (h : (it.nextOwned m).2 = some it') :
    it'.msg = it.msg ∧ it'.header = it.header ∧ it.bytesProcessed < it'.bytesProcessed ∧
      it'.bytesProcessed < it'.msg.payloadLen := by
  have hm : 10 ≤ m.get := m.min_le
  obtain ⟨pl, hpl, hmsg, hbp, hlt⟩ := nextOwned_some_iff.mp h
  have hd := prefixDigits_le pl
  refine ⟨hmsg, by simp [header, hmsg], ?_, ?_⟩
  · rw [hbp]
    unfold handedOut at hlt ⊢
    split at hlt
    next h0 => rw [if_pos h0, h0]; omega
    next h0 => rw [if_neg h0]; omega
  · rw [hbp, hmsg]
    simpa [OutgoingMessage.payloadLen, hpl] using hlt

/-- All frames of a message that are still to come, each as the iterator that hands it out. -/
def remaining (it : FrameIter) (m : MaxFrameSize) : List FrameIter :=
  match _h : (it.nextOwned m).2 with
  | none => [it]
  | some it' => it :: it'.remaining m
termination_by it.msg.payloadLen - it.bytesProcessed
decreasing_by
  obtain ⟨hmsg, _, hlt, hle⟩ := nextOwned_some _h
  rw [← hmsg]
  omega

theorem remaining_of_none {it : FrameIter} {m : MaxFrameSize} (h : (it.nextOwned m).2 = none) :
    it.remaining m = [it] := by
  rw [remaining]
  split
  next => rfl
  next h' => simp [h] at h'

theorem remaining_of_some {it it' : FrameIter} {m : MaxFrameSize}
    (h : (it.nextOwned m).2 = some it') :
    it.remaining m = it :: it'.remaining m := by
  rw [remaining]
  split
  next h' => simp [h] at h'
  next it'' h' =>
    rw [h] at h'
    cases Option.some.inj h'
    rfl

/-- What the frames from here on carry besides their headers. -/
def body (it : FrameIter) : Bytes :=
  match it.msg.payload with
  | none => []
  | some pl => if it.bytesProcessed = 0 then prefixDigits pl ++ pl else pl.drop it.bytesProcessed

theorem emit_eq_body (it : FrameIter) (m : MaxFrameSize) :
    it.emit m = it.header.bytes ++ it.body.take (m.get - 4) := by
  have hm : 10 ≤ m.get := m.min_le
  cases h : it.msg.payload with
  | none => simp [emit_none h, body, h]
  | some pl =>
    have hd := prefixDigits_le pl
    by_cases h0 : it.bytesProcessed = 0
    · rw [emit_first h h0, List.append_assoc]
      simp only [body, h, h0, if_true, handedOut]
      rw [List.take_append, List.take_of_length_le (i := m.get - 4) (by omega)]
      congr 2
      rw [← List.take_take]
      simp
    · rw [emit_later h (Nat.pos_of_ne_zero h0)]
      simp only [body, h, h0, if_false]
      rw [← List.take_take, List.take_of_length_le (i := pl.length - it.bytesProcessed) (by simp)]

theorem body_of_some {it it' : FrameIter} {m : MaxFrameSize} (h : (it.nextOwned m).2 = some it') :
    it'.body = it.body.drop (m.get - 4) ∧ m.get - 4 < it.body.length := by
  have hm : 10 ≤ m.get := m.min_le
  obtain ⟨pl, hpl, hmsg, hbp, hlt⟩ := nextOwned_some_iff.mp h
  have hd := prefixDigits_le pl
  have hpos := it.handedOut_pos m (by omega : 0 < pl.length)
  have hb' : it'.body = pl.drop (it.handedOut m pl) := by
    simp [body, hmsg, hpl, hbp, Nat.pos_iff_ne_zero.mp hpos]
  rw [hb']
  by_cases h0 : it.bytesProcessed = 0
  · simp only [handedOut, h0, if_true] at hlt ⊢
    simp only [body, hpl, h0, if_true, List.length_append]
    rw [List.drop_append, List.drop_of_length_le (i := m.get - 4) (by omega), List.nil_append]
    refine ⟨?_, by omega⟩
    congr 1
    omega
  · simp only [handedOut, h0, if_false] at hlt ⊢
    simp only [body, hpl, h0, if_false, List.length_drop, List.drop_drop]
    refine ⟨?_, by omega⟩
    congr 1
    omega

theorem body_of_none {it : FrameIter} {m : MaxFrameSize} (h : (it.nextOwned m).2 = none) :
    it.body.length ≤ m.get - 4 := by
  have hm : 10 ≤ m.get := m.min_le
  cases hpl : it.msg.payload with
  | none => simp [body, hpl]
  | some pl =>
    have hall := nextOwned_none_iff.mp h pl hpl
    have hd := prefixDigits_le pl
    by_cases h0 : it.bytesProcessed = 0
    · simp only [handedOut, h0, if_true] at hall
      simp only [body, hpl, h0, if_true, List.length_append]
      omega
    · have hle := it.le
      simp only [OutgoingMessage.payloadLen, hpl, Option.getD_some] at hle
      simp only [handedOut, h0, if_false] at hall
      simp only [body, hpl, h0, if_false, List.length_drop]
      omega

end FrameIter

namespace OutgoingMessage

/-- The message is cut into several frames exactly when the sender takes it for one. -/
theorem isMultiFrame_iff (msg : OutgoingMessage) (m : MaxFrameSize) :
    msg.isMultiFrame m = true ↔ (msg.frames.nextOwned m).2 ≠ none := by
  have hm : 10 ≤ m.get := m.min_le
  cases h : msg.payload with
  | none =>
    have hnext := FrameIter.nextOwned_none (m := m) (show msg.frames.msg.payload = none from h)
    simp [isMultiFrame, h, hnext]
  | some pl =>
    have hd := prefixDigits_le pl
    have hhand : msg.frames.handedOut m pl =
        min (m.get - 4 - (prefixDigits pl).length) pl.length := by
      simp [FrameIter.handedOut, frames]
    have hwp : m.withoutPreamble (UInt32.ofNat pl.length) =
        m.get - 4 - (prefixDigits pl).length := by
      rw [MaxFrameSize.withoutPreamble, Varint32.lengthOf_eq]
      rfl
    have hmulti : msg.isMultiFrame m =
        decide (m.get - 4 - (prefixDigits pl).length < pl.length) := by
      simp only [isMultiFrame, h, payloadIsMultiFrame, hwp]
    rw [hmulti, decide_eq_true_eq, ne_eq, FrameIter.nextOwned_none_iff]
    constructor
    · intro hlt hall
      have := hall pl h
      omega
    · intro hne
      by_contra hge
      apply hne
      intro pl' hpl'
      have : pl' = pl := by simpa [frames, h] using hpl'.symm
      subst this
      omega

end OutgoingMessage

end Juliet
