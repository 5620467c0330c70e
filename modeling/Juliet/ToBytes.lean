import Mathlib.Data.List.Infix
import Juliet.FrameBytes

namespace Juliet

/-- A body cut into blocks of `w` bytes, `k` of them before the last, each behind the header `h`. -/
def framed (h : Bytes) (w : Nat) : Nat → Bytes → Bytes
  | 0, body => h ++ body
  | k + 1, body => h ++ body.take w ++ framed h w k (body.drop w)

theorem framed_length (h : Bytes) (w k : Nat) (body : Bytes) :
    (framed h w k body).length = (k + 1) * h.length + body.length := by
  induction k generalizing body with
  | zero => simp [framed]
  | succ k ih =>
    simp only [framed, List.length_append, List.length_take, ih, List.length_drop,
      Nat.add_mul, Nat.one_mul]
    omega

theorem framed_drop {h : Bytes} {w k : Nat} (j : Nat) {body : Bytes} (hj : j ≤ k)
    (hl : j * w ≤ body.length) :
    (framed h w k body).drop (j * (w + h.length)) = framed h w (k - j) (body.drop (j * w)) := by
  induction j generalizing k body with
  | zero => simp
  | succ j ih =>
    obtain ⟨k, rfl⟩ : ∃ n, k = n + 1 := ⟨k - 1, by omega⟩
    have hw : w ≤ body.length := by
      have : w ≤ (j + 1) * w := Nat.le_mul_of_pos_left w (by omega)
      omega
    have hblock : (h ++ body.take w).length = w + h.length := by
      simp only [List.length_append, List.length_take]
      omega
    have hsplit : (j + 1) * (w + h.length) = (w + h.length) + j * (w + h.length) := by ring
    rw [framed, hsplit, ← List.drop_drop, List.drop_left' hblock]
    rw [ih (by omega) (by rw [List.length_drop, Nat.add_mul, Nat.one_mul] at *; omega)]
    rw [List.drop_drop, Nat.add_sub_add_right]
    congr 2
    ring

/-- The first frame is a prefix. -/
theorem framed_prefix (h : Bytes) (w k : Nat) (body : Bytes) :
    h ++ body.take w <+: framed h w k body := by
  cases k with
  | zero =>
    rw [framed, List.prefix_append_right_inj]
    exact List.take_prefix _ _
  | succ k => exact List.prefix_append _ _

/-- How many frames a body of this length needs besides the last. -/
def extraFrames (m : MaxFrameSize) (len : Nat) : Nat := (len - 1) / (m.get - 4)

theorem extraFrames_bound (m : MaxFrameSize) (len : Nat) :
    extraFrames m len * (m.get - 4) ≤ len ∧ len ≤ (extraFrames m len + 1) * (m.get - 4) ∧
      (0 < extraFrames m len → extraFrames m len * (m.get - 4) < len) := by
  have hm : 10 ≤ m.get := m.min_le
  have h1 := Nat.div_add_mod (len - 1) (m.get - 4)
  have h2 := Nat.mod_lt (len - 1) (show 0 < m.get - 4 by omega)
  have h3 : (m.get - 4) * ((len - 1) / (m.get - 4)) = (len - 1) / (m.get - 4) * (m.get - 4) :=
    Nat.mul_comm _ _
  unfold extraFrames
  rw [Nat.add_mul, Nat.one_mul]
  refine ⟨by omega, by omega, fun hpos => ?_⟩
  have : 0 < (len - 1) / (m.get - 4) * (m.get - 4) := Nat.mul_pos hpos (by omega)
  omega

/-- The frames of a message, one after the other. -/
theorem FrameIter.remaining_emit (it : FrameIter) (m : MaxFrameSize) :
    ((it.remaining m).map (·.emit m)).flatten =
      framed it.header.bytes (m.get - 4) (extraFrames m it.body.length) it.body := by
  have hm : 10 ≤ m.get := m.min_le
  induction hn : it.body.length using Nat.strongRecOn generalizing it with
  | ind n ih =>
    cases h : (it.nextOwned m).2 with
    | none =>
      have hle := FrameIter.body_of_none h
      have hz : extraFrames m n = 0 := by
        unfold extraFrames
        exact Nat.div_eq_of_lt (by omega)
      rw [FrameIter.remaining_of_none h, hz]
      simp [framed, FrameIter.emit_eq_body, List.take_of_length_le hle]
    | some it' =>
      obtain ⟨hbody, hlt⟩ := FrameIter.body_of_some h
      have hl : it'.body.length = n - (m.get - 4) := by rw [hbody, List.length_drop, hn]
      have hs : extraFrames m n = extraFrames m (n - (m.get - 4)) + 1 := by
        unfold extraFrames
        rw [← Nat.add_div_right _ (show 0 < m.get - 4 by omega)]
        congr 1
        omega
      rw [FrameIter.remaining_of_some h, List.map_cons, List.flatten_cons,
        ih _ (by omega) it' hl, hs, framed, FrameIter.emit_eq_body, hbody,
        (FrameIter.nextOwned_some h).2.1]

namespace ByteIter

/-- Copying out chunk after chunk yields the string whose rest each chunk begins. -/
theorem copyToBytes_eq {full : Bytes} {b : ByteIter} (hlen : b.total = full.length)
    (hchunk : ∀ pos < full.length, ({ b with consumed := pos } : ByteIter).chunk ≠ [] ∧
      ({ b with consumed := pos } : ByteIter).chunk <+: full.drop pos)
    (fuel : Nat) (hle : b.consumed ≤ full.length) (hf : full.length - b.consumed ≤ fuel) :
    copyToBytes fuel b = full.drop b.consumed := by
  induction fuel generalizing b with
  | zero => rw [copyToBytes, List.drop_of_length_le (by omega)]
  | succ fuel ih =>
    rw [copyToBytes]
    by_cases hr : b.remaining = 0
    · rw [if_pos hr, List.drop_of_length_le]
      rw [remaining, hlen] at hr
      omega
    · rw [if_neg hr]
      have hpos : b.consumed < full.length := by
        rw [remaining, hlen] at hr
        omega
      obtain ⟨hne, rest, hrest⟩ := hchunk b.consumed hpos
      have hc : ({ b with consumed := b.consumed } : ByteIter).chunk = b.chunk := rfl
      rw [hc] at hne hrest
      have hl := congrArg List.length hrest
      simp only [List.length_append, List.length_drop] at hl
      have hcpos : 0 < b.chunk.length := List.length_pos_iff.mpr hne
      have hadv : (b.advance b.chunk.length).consumed = b.consumed + b.chunk.length := by
        show min _ b.total = _
        rw [hlen]
        omega
      rw [ih (b := b.advance b.chunk.length) hlen hchunk (by omega) (by omega), hadv,
        ← List.drop_drop, ← hrest, List.drop_left]

end ByteIter

namespace OutgoingMessage

theorem nonHeaderLen_eq (msg : OutgoingMessage) : msg.nonHeaderLen = msg.frames.body.length := by
  unfold nonHeaderLen FrameIter.body
  cases h : msg.payload with
  | none => simp [frames, h]
  | some pl => simp [frames, h, Varint32.lengthOf_eq, prefixDigits]

theorem numFrames_eq (msg : OutgoingMessage) (m : MaxFrameSize) :
    msg.numFrames m = extraFrames m msg.frames.body.length + 1 := by
  have hm : 10 ≤ m.get := m.min_le
  have hw : 0 < m.get - 4 := by omega
  unfold numFrames extraFrames MaxFrameSize.withoutHeader
  rw [nonHeaderLen_eq]
  generalize msg.frames.body.length = len
  simp only [Header.size]
  by_cases h0 : len = 0
  · subst h0
    rw [if_pos (Nat.div_eq_of_lt (by omega))]
    simp
  · have he : len + (m.get - 4) - 1 = len - 1 + (m.get - 4) := by omega
    rw [he, Nat.add_div_right _ hw]
    simp

/-- The bytes of a message: its body in frames. -/
def wire (msg : OutgoingMessage) (m : MaxFrameSize) : Bytes :=
  framed msg.header.bytes (m.get - 4) (extraFrames m msg.frames.body.length) msg.frames.body

theorem wire_length (msg : OutgoingMessage) (m : MaxFrameSize) :
    (msg.wire m).length = msg.totalLen m := by
  rw [wire, framed_length, totalLen, numFrames_eq, nonHeaderLen_eq, Header.bytes_length]

/-- A position on the wire by frame and offset in that frame. -/
theorem wire_position {msg : OutgoingMessage} {m : MaxFrameSize} {j fp : Nat} (hfp : fp < m.get)
    (hpos : j * m.get + fp < (msg.wire m).length) :
    j * (m.get - 4) ≤ msg.frames.body.length ∧
      (4 ≤ fp → fp - 4 < ((msg.frames.body.drop (j * (m.get - 4))).take (m.get - 4)).length) ∧
      msg.header.bytes ++ (msg.frames.body.drop (j * (m.get - 4))).take (m.get - 4) <+:
        (msg.wire m).drop (j * m.get) := by
  have hm : 10 ≤ m.get := m.min_le
  rw [wire, framed_length, Header.bytes_length] at hpos
  generalize hL : msg.frames.body.length = len at hpos
  obtain ⟨hk1, hk2, hk3⟩ := extraFrames_bound m len
  generalize hk : extraFrames m len = k at hpos hk1 hk2 hk3
  obtain ⟨w, hw⟩ : ∃ w, m.get = w + 4 := ⟨m.get - 4, by omega⟩
  simp only [hw, Nat.add_sub_cancel] at hfp hm hpos hk1 hk2 hk3 ⊢
  have hjm : j * (w + 4) = j * w + j * 4 := by ring
  have hj : j ≤ k := by
    by_contra hgt
    have h1 : (k + 1) * w ≤ j * w := Nat.mul_le_mul_right w (by omega)
    omega
  have hjw : j * w ≤ len := (Nat.mul_le_mul_right w hj).trans hk1
  refine ⟨hjw, fun h4 => ?_, ?_⟩
  · rw [List.length_take, List.length_drop, hL]
    rcases Nat.lt_or_eq_of_le hj with hlt | rfl
    · have h1 : (j + 1) * w ≤ k * w := Nat.mul_le_mul_right w hlt
      have h2 := hk3 (by omega)
      rw [Nat.add_mul, Nat.one_mul] at h1
      omega
    · omega
  · have hd := framed_drop (h := msg.header.bytes) j hj (by omega : j * w ≤ msg.frames.body.length)
    rw [Header.bytes_length] at hd
    simp only [wire, hL, hw, Nat.add_sub_cancel, hk]
    rw [hd]
    exact framed_prefix _ _ _ _

/-- Inside a frame, the iterator's chunk is the rest of the length prefix or of the frame. -/
theorem iterBytes_chunk_body {msg : OutgoingMessage} {m : MaxFrameSize} {pl : Bytes}
    (h : msg.payload = some pl) {pos : Nat} (hpos : pos < (msg.wire m).length)
    (h4 : 4 ≤ pos % m.get) :
    let block := ((msg.frames.body.drop (pos / m.get * (m.get - 4))).take (m.get - 4)).drop
      (pos % m.get - 4)
    let chunk := ({ msg.iterBytes m with consumed := pos } : ByteIter).chunk
    chunk = block ∨ chunk = (prefixDigits pl).drop (pos % m.get - 4) ∧ chunk ≠ [] ∧
      chunk <+: block := by
  have hm : 10 ≤ m.get := m.min_le
  have hd := prefixDigits_le pl
  have hbody : msg.frames.body = prefixDigits pl ++ pl := by simp [FrameIter.body, frames, h]
  have hlp : (msg.iterBytes m).lengthPrefix = Varint32.encode (UInt32.ofNat pl.length) := by
    simp [iterBytes, h]
  have hmsg : (msg.iterBytes m).msg = msg := rfl
  have hmax : (msg.iterBytes m).maxFrameSize = m := rfl
  have hrem : ¬ ({ msg.iterBytes m with consumed := pos } : ByteIter).remaining = 0 := by
    show ¬ msg.totalLen m - pos = 0
    rw [← wire_length]
    omega
  intro block chunk
  simp only [chunk, ByteIter.chunk]
  rw [if_neg hrem]
  simp only [hlp, hmsg, hmax, h, Option.getD_some, Varint32.encode_len,
    Varint32.encode_asRef, MaxFrameSize.withoutHeader, Header.size,
    if_neg (show ¬ pos % m.get < 4 by omega), ← show prefixDigits pl =
    Varint32.digits (UInt32.ofNat pl.length) from rfl]
  have htake : ∀ n, pl.take (min n pl.length) = pl.take n :=
    fun n => by rw [← List.take_take, List.take_length]
  simp only [block, hbody]
  by_cases hj : pos / m.get = 0
  · simp only [hj, Nat.zero_mul, List.drop_zero, true_and, if_true]
    have hblock : ((prefixDigits pl ++ pl).take (m.get - 4)).drop (pos % m.get - 4) =
        (prefixDigits pl).drop (pos % m.get - 4) ++
          (pl.take (m.get - 4 - (prefixDigits pl).length)).drop
            (pos % m.get - 4 - (prefixDigits pl).length) := by
      rw [List.take_append, List.take_of_length_le (by omega), List.drop_append]
    rw [hblock]
    by_cases hdig : pos % m.get < 4 + (prefixDigits pl).length
    · rw [if_pos hdig]
      refine .inr ⟨rfl, ?_, List.prefix_append _ _⟩
      rw [← List.length_pos_iff, List.length_drop]
      omega
    · rw [if_neg hdig, List.drop_of_length_le (i := pos % m.get - 4) (by omega),
        List.nil_append, htake]
      left
      congr 1
      · omega
      · congr 1
        omega
  · simp only [hj, false_and, if_false]
    left
    rw [htake]
    have hge : (prefixDigits pl).length ≤ pos / m.get * (m.get - 4) := by
      have : m.get - 4 ≤ pos / m.get * (m.get - 4) :=
        Nat.le_mul_of_pos_left _ (Nat.pos_of_ne_zero hj)
      omega
    rw [List.drop_append, List.drop_of_length_le hge, List.nil_append, List.drop_take]
    congr 2
    omega

theorem iterBytes_chunk (msg : OutgoingMessage) (m : MaxFrameSize) {pos : Nat}
    (hpos : pos < (msg.wire m).length) :
    ({ msg.iterBytes m with consumed := pos } : ByteIter).chunk ≠ [] ∧
      ({ msg.iterBytes m with consumed := pos } : ByteIter).chunk <+: (msg.wire m).drop pos := by
  have hm : 10 ≤ m.get := m.min_le
  have hdm : pos / m.get * m.get + pos % m.get = pos := by
    rw [Nat.mul_comm]
    exact Nat.div_add_mod pos m.get
  have hfp : pos % m.get < m.get := Nat.mod_lt _ (by omega)
  obtain ⟨_, hin, hpre⟩ :=
    wire_position hfp (by omega : pos / m.get * m.get + pos % m.get < (msg.wire m).length)
  have hpre' := List.IsPrefix.drop hpre (pos % m.get)
  rw [List.drop_drop, hdm] at hpre'
  by_cases h4 : pos % m.get < 4
  · have hc : ({ msg.iterBytes m with consumed := pos } : ByteIter).chunk =
        msg.header.bytes.drop (pos % m.get) := by
      have hrem : ¬ ({ msg.iterBytes m with consumed := pos } : ByteIter).remaining = 0 := by
        show ¬ msg.totalLen m - pos = 0
        rw [← wire_length]
        omega
      simp only [ByteIter.chunk, if_neg hrem]
      exact if_pos h4
    rw [hc]
    constructor
    · rw [← List.length_pos_iff, List.length_drop, Header.bytes_length]
      omega
    · refine List.IsPrefix.trans ?_ hpre'
      rw [List.drop_append_of_le_length (by rw [Header.bytes_length]; omega)]
      exact List.prefix_append _ _
  · have h4' : 4 ≤ pos % m.get := by omega
    rw [List.drop_append, List.drop_of_length_le (by rw [Header.bytes_length]; omega),
      List.nil_append, Header.bytes_length] at hpre'
    cases h : msg.payload with
    | none =>
      have hb : msg.frames.body = [] := by simp [FrameIter.body, frames, h]
      have := hin h4'
      simp [hb] at this
    | some pl =>
      rcases iterBytes_chunk_body h hpos h4' with he | ⟨_, hne, hp⟩
      · rw [he]
        refine ⟨?_, hpre'⟩
        rw [← List.length_pos_iff, List.length_drop]
        have := hin h4'
        omega
      · exact ⟨hne, hp.trans hpre'⟩

/-- The byte-wise iterator and the frame iterator agree on what a message looks like on the wire. -/
theorem toBytes_eq (msg : OutgoingMessage) (m : MaxFrameSize) :
    msg.toBytes m = ((msg.frames.remaining m).map (·.emit m)).flatten := by
  have hlen : (msg.iterBytes m).total = (msg.wire m).length := (wire_length msg m).symm
  have hcopy := ByteIter.copyToBytes_eq (b := msg.iterBytes m) hlen (fun _ => iterBytes_chunk msg m)
    (msg.iterBytes m).remaining (Nat.zero_le _) (by rw [ByteIter.remaining, hlen])
  rw [toBytes, hcopy, FrameIter.remaining_emit]
  rfl

end OutgoingMessage

end Juliet
