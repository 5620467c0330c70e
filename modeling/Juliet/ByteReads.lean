import Juliet.FrameCount

namespace Juliet

open Rust

namespace ByteIter

/-- The slice of the payload that the current frame carries, and how far into it the iterator is. -/
def frameRange (b : ByteIter) : Checked (Nat × Nat × Nat) := do
  let framesCompleted := b.consumed / b.maxFrameSize.get
  let frameProgress := b.consumed % b.maxFrameSize.get
  let firstPreamble := Header.size + b.lengthPrefix.len
  if framesCompleted = 0 then
    return (0, ← checkedSub frameProgress firstPreamble,
      ← checkedSub b.maxFrameSize.get firstPreamble)
  else
    let spaceInFrame ← checkedSub b.maxFrameSize.get Header.size
    let start ← checkedSub (framesCompleted * spaceInFrame) b.lengthPrefix.len
    return (start, ← checkedSub frameProgress Header.size, start + spaceInFrame)

/-- `chunk` with every subtraction, slice and assertion checked. -/
def checkedChunk (b : ByteIter) : Checked Bytes := do
  let remaining ← checkedSub b.total b.consumed
  if remaining = 0 then return []
  else
    let frameProgress := b.consumed % b.maxFrameSize.get
    if frameProgress < Header.size then
      slice b.msg.header.bytes frameProgress b.msg.header.bytes.length
    else
      debugAssert (b.lengthPrefix.isSentinel = false)
      if b.consumed / b.maxFrameSize.get = 0 ∧ frameProgress < Header.size + b.lengthPrefix.len then
        let varintProgress ← checkedSub frameProgress Header.size
        slice b.lengthPrefix.asRef varintProgress b.lengthPrefix.asRef.length
      else
        let (start, progress, stop) ← b.frameRange
        let currentFrameChunk ← match b.msg.payload with
          | some pl => slice pl start (min stop pl.length)
          | none => .ok []
        slice currentFrameChunk progress currentFrameChunk.length

/-- Reading `out` in steps that each take some bytes of the current chunk and advance by as many. -/
inductive Reads (b : ByteIter) : Bytes → ByteIter → Prop
  | start : Reads b [] b
  | take {out : Bytes} {c : ByteIter} (k : Nat) : Reads b out c → 1 ≤ k → k ≤ c.chunk.length →
      Reads b (out ++ c.chunk.take k) (c.advance k)

end ByteIter

namespace OutgoingMessage

/-- The iterator over the bytes of `msg` at position `pos`. -/
def bytesFrom (msg : OutgoingMessage) (m : MaxFrameSize) (pos : Nat) : ByteIter :=
  { msg.iterBytes m with consumed := pos }

theorem bytesFrom_remaining (msg : OutgoingMessage) (m : MaxFrameSize) (pos : Nat) :
    (msg.bytesFrom m pos).remaining = (msg.wire m).length - pos := by
  rw [wire_length]
  rfl

theorem bytesFrom_chunk_empty {msg : OutgoingMessage} {m : MaxFrameSize} {pos : Nat}
    (h : (msg.wire m).length ≤ pos) : (msg.bytesFrom m pos).chunk = [] := by
  have hr : (msg.bytesFrom m pos).remaining = 0 := by rw [bytesFrom_remaining]; omega
  rw [ByteIter.chunk, if_pos hr]

/-- Where in the payload a position behind the preamble of its frame lies. -/
theorem frameRange_ok {msg : OutgoingMessage} {m : MaxFrameSize} {pl : Bytes}
    (h : msg.payload = some pl) {pos : Nat} (hpos : pos < (msg.wire m).length)
    (h4 : 4 ≤ pos % m.get)
    (hbehind : ¬ (pos / m.get = 0 ∧ pos % m.get < 4 + (prefixDigits pl).length)) :
    ∃ start progress stop, (msg.bytesFrom m pos).frameRange = .ok (start, progress, stop) ∧
      start ≤ min stop pl.length ∧ progress ≤ min stop pl.length - start ∧
      (msg.bytesFrom m pos).chunk = ((pl.take (min stop pl.length)).drop start).drop progress := by
  have hm : 10 ≤ m.get := m.min_le
  have hd := prefixDigits_le pl
  have hbody : msg.frames.body = prefixDigits pl ++ pl := by simp [FrameIter.body, frames, h]
  have hlp : (msg.bytesFrom m pos).lengthPrefix.len = (prefixDigits pl).length := by
    simp [bytesFrom, iterBytes, h, prefixDigits]
  have hmax : (msg.bytesFrom m pos).maxFrameSize = m := rfl
  have hcons : (msg.bytesFrom m pos).consumed = pos := rfl
  have hrem : ¬ (msg.bytesFrom m pos).remaining = 0 := by rw [bytesFrom_remaining]; omega
  have hdm : pos / m.get * m.get + pos % m.get = pos := by
    rw [Nat.mul_comm]
    exact Nat.div_add_mod pos m.get
  have hfp : pos % m.get < m.get := Nat.mod_lt _ (by omega)
  obtain ⟨hbound, hin, _⟩ :=
    wire_position hfp (by omega : pos / m.get * m.get + pos % m.get < (msg.wire m).length)
  have hin := hin h4
  rw [hbody, List.length_take, List.length_drop, List.length_append] at hin
  rw [hbody, List.length_append] at hbound
  have hmsg : (msg.bytesFrom m pos).msg.payload = some pl := h
  by_cases hj : pos / m.get = 0
  · have hge : 4 + (prefixDigits pl).length ≤ pos % m.get := by
      by_contra hlt
      exact hbehind ⟨hj, by omega⟩
    rw [hj, Nat.zero_mul] at hin
    refine ⟨0, pos % m.get - (4 + (prefixDigits pl).length), m.get - (4 + (prefixDigits pl).length),
      ?_, by omega,
      by omega, ?_⟩
    · simp only [ByteIter.frameRange, hmax, hcons, hlp, hj, if_true, Header.size]
      rw [checkedSub_of_le hge, checkedSub_of_le (by omega : 4 + (prefixDigits pl).length ≤ m.get)]
      rfl
    · simp only [ByteIter.chunk, if_neg hrem, hmax, hcons, hlp, hj, hmsg, Header.size,
        Option.getD_some, if_true, true_and,
        if_neg (show ¬ pos % m.get < 4 by omega),
        if_neg (show ¬ pos % m.get < 4 + (prefixDigits pl).length by omega)]
  · have hge : m.get - 4 ≤ pos / m.get * (m.get - 4) :=
      Nat.le_mul_of_pos_left _ (Nat.pos_of_ne_zero hj)
    refine ⟨pos / m.get * (m.get - 4) - (prefixDigits pl).length, pos % m.get - 4,
      pos / m.get * (m.get - 4) - (prefixDigits pl).length + (m.get - 4),
      ?_, by omega, by omega, ?_⟩
    · simp only [ByteIter.frameRange, hmax, hcons, hlp, if_neg hj, Header.size]
      rw [checkedSub_of_le (by omega : 4 ≤ m.get), bind_ok,
        checkedSub_of_le (by omega : (prefixDigits pl).length ≤ pos / m.get * (m.get - 4)), bind_ok,
        checkedSub_of_le h4]
      rfl
    · simp only [ByteIter.chunk, if_neg hrem, hmax, hcons, hlp, hmsg, Header.size, Option.getD_some,
        MaxFrameSize.withoutHeader, if_neg (show ¬ pos % m.get < 4 by omega), hj,
        false_and, if_false]

/-- No subtraction of `chunk` underflows and no slice of it is out of range. -/
theorem bytesFrom_checkedChunk (msg : OutgoingMessage) (m : MaxFrameSize) {pos : Nat}
    (hpos : pos ≤ (msg.wire m).length) :
    (msg.bytesFrom m pos).checkedChunk = .ok (msg.bytesFrom m pos).chunk := by
  have hm : 10 ≤ m.get := m.min_le
  have hmax : (msg.bytesFrom m pos).maxFrameSize = m := rfl
  have hcons : (msg.bytesFrom m pos).consumed = pos := rfl
  have htotal : (msg.bytesFrom m pos).total = (msg.wire m).length := (wire_length msg m).symm
  unfold ByteIter.checkedChunk
  rw [htotal, hcons, hmax, checkedSub_of_le hpos, bind_ok]
  rcases Nat.eq_or_lt_of_le hpos with he | hlt
  · rw [if_pos (by omega), bytesFrom_chunk_empty (by omega)]
    rfl
  · rw [if_neg (by omega)]
    have hrem : ¬ (msg.bytesFrom m pos).remaining = 0 := by rw [bytesFrom_remaining]; omega
    by_cases h4 : pos % m.get < 4
    · have hc : (msg.bytesFrom m pos).chunk =
          (msg.bytesFrom m pos).msg.header.bytes.drop (pos % m.get) := by
        simp only [ByteIter.chunk, if_neg hrem]
        exact if_pos h4
      rw [if_pos h4, slice_of_le (by rw [Header.bytes_length]; omega) (Nat.le_refl _),
        List.take_length, hc]
    · rw [if_neg h4]
      cases h : msg.payload with
      | none =>
        -- a message without a payload is a single header
        have hb : msg.frames.body = [] := by simp [FrameIter.body, frames, h]
        have hlen : (msg.wire m).length = 4 := by simp [wire, hb, extraFrames, framed]
        have hmod : pos % m.get = pos := Nat.mod_eq_of_lt (by omega)
        omega
      | some pl =>
        have hlp : (msg.bytesFrom m pos).lengthPrefix =
            Varint32.encode (UInt32.ofNat pl.length) := by
          simp [bytesFrom, iterBytes, h]
        have hlen : (msg.bytesFrom m pos).lengthPrefix.len = (prefixDigits pl).length := by
          rw [hlp, Varint32.encode_len, prefixDigits]
        have hdigits : (msg.bytesFrom m pos).lengthPrefix.asRef = prefixDigits pl := by
          rw [hlp, Varint32.encode_asRef, prefixDigits]
        have hsent : (msg.bytesFrom m pos).lengthPrefix.isSentinel = false := by
          have hd := prefixDigits_pos pl
          rw [Varint32.isSentinel, hlen, beq_eq_false_iff_ne]
          omega
        rw [debugAssert_of hsent, bind_ok, hlen, hdigits]
        by_cases hdig : pos / m.get = 0 ∧ pos % m.get < Header.size + (prefixDigits pl).length
        · have h4' : Header.size ≤ pos % m.get := by simp only [Header.size]; omega
          have hc : (msg.bytesFrom m pos).chunk =
              (prefixDigits pl).drop (pos % m.get - Header.size) := by
            simp only [ByteIter.chunk, if_neg hrem, hmax, hcons, hlen, hdigits]
            rw [if_neg (show ¬ pos % m.get < Header.size from h4), if_pos hdig]
          rw [if_pos hdig, checkedSub_of_le h4', bind_ok, slice_of_le (by omega) (Nat.le_refl _),
            List.take_length, hc]
        · rw [if_neg hdig]
          obtain ⟨start, progress, stop, hr, hstart, hprogress, hc⟩ :=
            frameRange_ok h hlt (by omega) hdig
          have hmsg : (msg.bytesFrom m pos).msg.payload = some pl := h
          rw [hr, bind_ok, hc]
          simp only [hmsg]
          rw [slice_of_le hstart (Nat.min_le_right _ _), bind_ok,
            slice_of_le (by simp only [List.length_drop, List.length_take]; omega) (Nat.le_refl _),
            List.take_length]

/-- Advancing inside the current chunk moves the position on. -/
theorem bytesFrom_advance {msg : OutgoingMessage} {m : MaxFrameSize} {pos k : Nat}
    (hpos : pos ≤ (msg.wire m).length) (hk : k ≤ (msg.bytesFrom m pos).chunk.length) :
    pos + k ≤ (msg.wire m).length ∧ (msg.bytesFrom m pos).advance k = msg.bytesFrom m (pos + k) ∧
      (msg.bytesFrom m pos).chunk.take k = ((msg.wire m).drop pos).take k := by
  have hchunk : (msg.bytesFrom m pos).chunk <+: (msg.wire m).drop pos := by
    rcases Nat.eq_or_lt_of_le hpos with he | hlt
    · rw [bytesFrom_chunk_empty (by omega)]
      exact List.nil_prefix
    · exact (iterBytes_chunk msg m hlt).2
  have hlen := hchunk.length_le
  rw [List.length_drop] at hlen
  have htotal : (msg.bytesFrom m pos).total = (msg.wire m).length := (wire_length msg m).symm
  have hcons : (msg.bytesFrom m pos).consumed = pos := rfl
  refine ⟨by omega, ?_, ?_⟩
  · rw [ByteIter.advance, hcons, htotal, Nat.min_eq_left (by omega)]
    rfl
  · obtain ⟨rest, hrest⟩ := hchunk
    rw [← hrest, List.take_append_of_le_length hk]

/-- Whatever the steps, what has been read so far is what lies before the position reached. -/
theorem reads_position {msg : OutgoingMessage} {m : MaxFrameSize} {out : Bytes} {b : ByteIter}
    (h : (msg.iterBytes m).Reads out b) :
    ∃ pos ≤ (msg.wire m).length, b = msg.bytesFrom m pos ∧ out = (msg.wire m).take pos := by
  induction h with
  | start => exact ⟨0, Nat.zero_le _, rfl, by simp⟩
  | @take out c k _ _ hle ih =>
    obtain ⟨pos, hpos, rfl, rfl⟩ := ih
    obtain ⟨hnext, hadvance, htake⟩ := bytesFrom_advance hpos hle
    exact ⟨pos + k, hnext, hadvance, by rw [htake, List.take_add]⟩

/-- Reading a message byte-wise, in whatever steps, yields its frames. -/
theorem reads_frames (msg : OutgoingMessage) (m : MaxFrameSize) (out : Bytes) (b : ByteIter)
    (h : (msg.iterBytes m).Reads out b) :
    b.checkedChunk = .ok b.chunk ∧ (b.chunk ≠ [] ↔ 0 < b.remaining) ∧
      (∀ k ≤ b.chunk.length, (b.advance k).remaining + k = b.remaining) ∧
      (b.remaining = 0 → out = ((msg.frameList m).map OutgoingFrame.bytes).flatten) := by
  obtain ⟨pos, hpos, rfl, rfl⟩ := reads_position h
  refine ⟨bytesFrom_checkedChunk msg m hpos, ?_, ?_, ?_⟩
  · rw [bytesFrom_remaining]
    rcases Nat.eq_or_lt_of_le hpos with he | hlt
    · rw [bytesFrom_chunk_empty (by omega)]
      simp [he]
    · exact ⟨fun _ => by omega, fun _ => (iterBytes_chunk msg m hlt).1⟩
  · intro k hk
    obtain ⟨hnext, hadvance, _⟩ := bytesFrom_advance hpos hk
    rw [hadvance, bytesFrom_remaining, bytesFrom_remaining]
    omega
  · intro hr
    rw [bytesFrom_remaining] at hr
    rw [frameList_bytes, List.take_of_length_le (by omega)]

/-- A request of two frames, the payload of the first one read in two steps. -/
theorem reads_frames_two :
    let msg := OutgoingMessage.new (Header.new .requestPl ⟨0⟩ ⟨1⟩) (some [1, 2, 3, 4, 5, 6, 7, 8])
    let out : Bytes := [2, 0, 1, 0] ++ [8] ++ [1, 2] ++ [3, 4, 5] ++ [2, 0, 1, 0] ++ [6, 7, 8]
    out = ((msg.frameList MaxFrameSize.smallest).map OutgoingFrame.bytes).flatten := by
  intro msg out
  have h1 : (msg.iterBytes MaxFrameSize.smallest).Reads _ _ :=
    .take 4 .start (by decide) (by decide)
  have h2 := ByteIter.Reads.take 1 h1 (by decide) (by decide)
  have h3 := ByteIter.Reads.take 2 h2 (by decide) (by decide)
  have h4 := ByteIter.Reads.take 3 h3 (by decide) (by decide)
  have h5 := ByteIter.Reads.take 4 h4 (by decide) (by decide)
  have h6 := ByteIter.Reads.take 3 h5 (by decide) (by decide)
  rw [← (reads_frames msg MaxFrameSize.smallest _ _ h6).2.2.2 (by decide)]
  decide

end OutgoingMessage

end Juliet
