import Juliet.Multiframe

namespace Juliet

open Rust

theorem slice_header {buffer : Bytes} (h : 4 ≤ buffer.length) :
    slice buffer Header.size buffer.length = .ok (buffer.drop 4) := by
  have h' : Header.size ≤ buffer.length := h
  rw [slice_of_le h' le_rfl]
  simp [Header.size]

/-- `detect_starting_segment` once the length prefix has been read. -/
theorem detectStartingSegment_of_length {header : Header} {buffer : Bytes} {m : MaxFrameSize}
    {max : Nat} {kind : ErrorKind} {p : ParsedU32} (hb : 4 ≤ buffer.length)
    (hd : decodeVarint32 (buffer.drop 4) = .ok (.success p)) (ho : p.offset ≤ 5) :
    detectStartingSegment header buffer m max kind =
      if p.value > max then .ok (errMsg header kind)
      else if buffer.length < 4 + p.offset + min (m.get - (4 + p.offset)) p.value then
        Outcome.needs (4 + p.offset + min (m.get - (4 + p.offset)) p.value - buffer.length)
      else .ok (.success ⟨4 + p.offset, min (m.get - (4 + p.offset)) p.value, p.value⟩) := by
  have hm : 10 ≤ m.get := m.min_le
  simp only [detectStartingSegment, slice_header hb, bind_ok, hd]
  simp only [Header.size]
  by_cases hmax : p.value > max
  · simp [hmax]
  · simp only [if_neg hmax, checkedSub_of_le (show 4 + p.offset ≤ m.get by omega), bind_ok]
    by_cases hlen : buffer.length < 4 + p.offset + min (m.get - (4 + p.offset)) p.value
    · simp only [if_pos hlen, checkedSub_of_le hlen.le, bind_ok]
    · simp only [if_neg hlen, pure_eq_ok]

/-- The facts about a detected start frame that its users rely on. -/
structure InitialFrameData.Fits (d : InitialFrameData) (m : MaxFrameSize) (max : Nat)
    (buffer : Bytes) : Prop where
  preamble : 4 < d.preambleLen
  segment_le : d.segmentLen ≤ d.payloadSize
  in_buffer : d.preambleLen + d.segmentLen ≤ buffer.length
  in_frame : d.preambleLen + d.segmentLen ≤ m.get
  within : d.payloadSize ≤ max
  nonempty : d.segmentLen < d.payloadSize → 0 < d.segmentLen

/-- What `detect_starting_segment` can return. -/
inductive Detected (header : Header) (m : MaxFrameSize) (max : Nat) (buffer : Bytes) :
    Outcome InitialFrameData OutgoingMessage → Prop
  | incomplete (n : NonZeroU32) : Detected header m max buffer (.incomplete n)
  | fatal (kind : ErrorKind) : Detected header m max buffer (errMsg header kind)
  | success (d : InitialFrameData) : d.Fits m max buffer → Detected header m max buffer (.success d)

theorem detectStartingSegment_spec (header : Header) {buffer : Bytes} (m : MaxFrameSize) (max : Nat)
    (kind : ErrorKind) (hb : 4 ≤ buffer.length) :
    ∃ r, detectStartingSegment header buffer m max kind = .ok r ∧ Detected header m max buffer r ∧
      ((∃ n, r = .incomplete n) ∨
        ∀ rest, detectStartingSegment header (buffer ++ rest) m max kind = .ok r) := by
  have hm : 10 ≤ m.get := m.min_le
  have hml := m.lt
  have hdrop : ∀ rest : Bytes, (buffer ++ rest).drop 4 = buffer.drop 4 ++ rest :=
    fun rest => List.drop_append_of_le_length hb
  obtain ⟨r, hr, hs⟩ := decodeVarint32_spec (buffer.drop 4)
  cases hs with
  | incomplete n hn hl =>
    exact ⟨.incomplete n, by simp [detectStartingSegment, slice_header hb,
      hr], .incomplete n, .inl ⟨n, rfl⟩⟩
  | fatal hl =>
    refine ⟨errMsg header .badVarInt, by simp [detectStartingSegment, slice_header hb,
      hr], .fatal _, .inr ?_⟩
    intro rest
    have hx := decodeVarint32_append hr (by simp) rest
    have hb' : 4 ≤ (buffer ++ rest).length := by simp; omega
    simp only [detectStartingSegment, slice_header hb', hdrop, hx, bind_ok, pure_eq_ok]
  | success p h1 h5 hle hv =>
    have hx : ∀ rest, decodeVarint32 ((buffer ++ rest).drop 4) = .ok (.success p) := by
      intro rest
      rw [hdrop]
      exact decodeVarint32_append hr (by simp) rest
    have hb' : ∀ rest : Bytes, 4 ≤ (buffer ++ rest).length := fun rest => by simp; omega
    rw [detectStartingSegment_of_length hb hr h5]
    simp only [detectStartingSegment_of_length (hb' _) (hx _) h5]
    by_cases hmax : p.value > max
    · simp only [if_pos hmax]
      exact ⟨_, rfl, .fatal _, .inr fun _ => rfl⟩
    · simp only [if_neg hmax]
      by_cases hlen : buffer.length < 4 + p.offset + min (m.get - (4 + p.offset)) p.value
      · simp only [if_pos hlen]
        rw [Outcome.needs_of (by omega) (by omega)]
        exact ⟨_, rfl, .incomplete _, .inl ⟨_, rfl⟩⟩
      · simp only [if_neg hlen]
        refine ⟨_, rfl, .success _ ⟨?_, ?_, ?_, ?_, ?_, ?_⟩, .inr fun rest => ?_⟩
        · show 4 < 4 + p.offset
          omega
        · exact min_le_right _ _
        · exact Nat.le_of_not_lt hlen
        · show 4 + p.offset + min (m.get - (4 + p.offset)) p.value ≤ m.get
          omega
        · exact Nat.le_of_not_lt hmax
        · intro h
          show 0 < min (m.get - (4 + p.offset)) p.value
          have h' : min (m.get - (4 + p.offset)) p.value < p.value := h
          omega
        · rw [if_neg]
          simp only [List.length_append]
          omega

theorem InitialFrameData.isComplete_of_le {d : InitialFrameData}
    (h : d.segmentLen ≤ d.payloadSize) :
    d.isComplete = .ok (d.segmentLen == d.payloadSize) := by
  simp [InitialFrameData.isComplete, debugAssert_of h]

/-- `extract_segment` on a transfer that is not complete. -/
theorem extractSegment_of_lt {stored : Bytes} {total : Nat} (h : stored.length < total)
    (incoming : Bytes) (m : MaxFrameSize) :
    extractSegment incoming stored total m =
      let size := min (total - stored.length) (m.get - 4)
      if incoming.length < size + 4 then do
        return (← Outcome.needs (size + 4 - incoming.length), stored, incoming)
      else
        .ok (.success ((stored ++ (incoming.drop 4).take size).length == total),
          stored ++ (incoming.drop 4).take size, incoming.drop (4 + size)) := by
  simp only [extractSegment, checkedSub_of_le h.le, bind_ok, MaxFrameSize.withoutHeader,
    Header.size]
  by_cases hlen : incoming.length < min (total - stored.length) (m.get - 4) + 4
  · simp only [if_pos hlen, checkedSub_of_le hlen.le, bind_ok]
  · have h4 : 4 ≤ incoming.length := by omega
    have hs : min (total - stored.length) (m.get - 4) ≤ (incoming.drop 4).length := by
      simp only [List.length_drop]
      omega
    simp only [if_neg hlen, advance_of_le h4, bind_ok, slice_of_le (Nat.zero_le _) hs,
      advance_of_le hs, pure_eq_ok, List.drop_zero, List.drop_drop]

/-- A transfer that has begun and is not complete, under the payload limit of its kind. -/
def MultiframeReceiver.Open (max : Nat) : MultiframeReceiver → Prop
  | .ready => True
  | .inProgress _ payload total => 0 < payload.length ∧ payload.length < total ∧ total ≤ max

/-- Everything `accept` can do. -/
inductive Accepted (max : Nat) (header : Header) (buffer : Bytes) :
    MultiframeReceiver → Outcome CompletedFrame OutgoingMessage → MultiframeReceiver → Bytes → Prop
  | incomplete (self : MultiframeReceiver) (n : NonZeroU32) :
      Accepted max header buffer self (.incomplete n) self buffer
  | fatal (self : MultiframeReceiver) (kind : ErrorKind) :
      Accepted max header buffer self (errMsg header kind) self buffer
  | single (self : MultiframeReceiver) (payload : Bytes)
      (k : Nat) : self.inProgressHeader ≠ some header →
      4 ≤ k → k ≤ buffer.length → payload.length ≤ max →
      Accepted max header buffer self (.success (.singleFrame payload)) self (buffer.drop k)
  | first (payload : Bytes) (total k : Nat) : 4 ≤ k → k ≤ buffer.length → 0 < payload.length →
      payload.length < total → total ≤ max →
      Accepted max header buffer .ready (.success .newMultiFrame) (.inProgress header payload total)
        (buffer.drop k)
  | middle (payload segment : Bytes) (total k : Nat) : 4 ≤ k → k ≤ buffer.length →
      (payload ++ segment).length < total →
      Accepted max header buffer (.inProgress header payload total)
        (.success .intermediateMultiFrame)
        (.inProgress header (payload ++ segment) total) (buffer.drop k)
  | last (payload segment : Bytes) (total k : Nat) : 4 ≤ k → k ≤ buffer.length →
      (payload ++ segment).length = total →
      Accepted max header buffer (.inProgress header payload total)
        (.success (.completedMultiFrame (payload ++ segment))) .ready (buffer.drop k)

theorem Accepted.incomplete_inv {max : Nat} {header : Header} {buffer b' : Bytes}
    {s s' : MultiframeReceiver} {n : NonZeroU32}
    (h : Accepted max header buffer s (.incomplete n) s' b') : s' = s ∧ b' = buffer := by
  cases h
  exact ⟨rfl, rfl⟩

theorem Accepted.fatal_inv {max : Nat} {header : Header} {buffer b' : Bytes}
    {s s' : MultiframeReceiver} {err : OutgoingMessage}
    (h : Accepted max header buffer s (.fatal err) s' b') :
    ∃ kind, err = OutgoingMessage.new (header.withErr kind) none ∧ s' = s ∧ b' = buffer := by
  generalize ho : (Outcome.fatal err : Outcome CompletedFrame OutgoingMessage) = o at h
  cases h with
  | fatal _ kind => exact ⟨kind, by simpa [errMsg] using ho, rfl, rfl⟩
  | incomplete | single | first | middle | last => simp at ho

namespace MultiframeReceiver

variable {header : Header} {buffer : Bytes} {m : MaxFrameSize} {max : Nat} {kind : ErrorKind}

/-- Frames that do not continue the active transfer are start frames. -/
theorem accept_start_spec {self : MultiframeReceiver} (hs : self.inProgressHeader ≠ some header)
    (hb : 4 ≤ buffer.length) :
    ∃ o s' b', self.accept header buffer m max kind = .ok (o, s', b') ∧
      Accepted max header buffer self o s' b' ∧
      ((∃ n, o = .incomplete n) ∨
        ∀ rest, self.accept header (buffer ++ rest) m max kind = .ok (o, s', b' ++ rest)) := by
  obtain ⟨r, hr, hd, hx⟩ := detectStartingSegment_spec header m max kind hb
  have hne : ∀ h p t, self = .inProgress h p t → header ≠ h := by
    rintro h p t rfl he
    exact hs (by simp [inProgressHeader, he])
  cases hd with
  | incomplete n =>
    refine ⟨.incomplete n, self, buffer, ?_, .incomplete self n, .inl ⟨n, rfl⟩⟩
    cases self with
    | ready => simp [accept, hr]
    | inProgress h p t => simp [accept, hr, hne h p t rfl]
  | fatal k =>
    have hx' := hx.resolve_left (by simp [errMsg])
    refine ⟨errMsg header k, self, buffer, ?_, .fatal self k, .inr fun rest => ?_⟩
    · cases self with
      | ready => simp [accept, hr, errMsg]
      | inProgress h p t => simp [accept, hr, hne h p t rfl, errMsg]
    · cases self with
      | ready => simp [accept, hx' rest, errMsg]
      | inProgress h p t => simp [accept, hx' rest, hne h p t rfl, errMsg]
  | success d hd =>
    have hx' := hx.resolve_left (by simp)
    have hin := hd.in_buffer
    have hpre := hd.preamble
    have hadv : ∀ rest : Bytes, advance (buffer ++ rest) d.preambleLen =
        .ok (buffer.drop d.preambleLen ++ rest) := by
      intro rest
      rw [advance_of_le (by simp; omega), List.drop_append_of_le_length (by omega)]
    have hsplit : ∀ rest : Bytes, splitTo (buffer.drop d.preambleLen ++ rest) d.segmentLen =
        .ok ((buffer.drop d.preambleLen).take d.segmentLen,
          buffer.drop (d.preambleLen + d.segmentLen) ++ rest) := by
      intro rest
      have hle : d.segmentLen ≤ (buffer.drop d.preambleLen).length := by
        simp only [List.length_drop]
        omega
      rw [splitTo_of_le (by simp only [List.length_append]; omega),
        List.take_append_of_le_length hle, List.drop_append_of_le_length hle, List.drop_drop]
    have hlen : ((buffer.drop d.preambleLen).take d.segmentLen).length = d.segmentLen := by
      simp only [List.length_take, List.length_drop]
      omega
    have hadv0 := hadv []
    have hsplit0 := hsplit []
    simp only [List.append_nil] at hadv0 hsplit0
    have hcomplete := InitialFrameData.isComplete_of_le hd.segment_le
    by_cases hc : d.segmentLen = d.payloadSize
    · have hbeq : (d.segmentLen == d.payloadSize) = true := by simpa using hc
      refine ⟨.success (.singleFrame ((buffer.drop d.preambleLen).take d.segmentLen)), self,
        buffer.drop (d.preambleLen + d.segmentLen), ?_, .single self _ _ hs (by omega) hin ?_,
        .inr fun rest => ?_⟩
      · cases self with
        | ready => simp [accept, hr, hadv0, hsplit0, hcomplete, hbeq]
        | inProgress h p t =>
          simp [accept, hr, hne h p t rfl, hadv0, hsplit0, hcomplete, hbeq]
      · rw [hlen]
        exact hd.segment_le.trans hd.within
      · cases self with
        | ready => simp [accept, hx' rest, hadv rest, hsplit rest, hcomplete, hbeq]
        | inProgress h p t =>
          simp [accept, hx' rest, hne h p t rfl, hadv rest, hsplit rest,
            hcomplete, hbeq]
    · have hlt : d.segmentLen < d.payloadSize := Nat.lt_of_le_of_ne hd.segment_le hc
      have hbeq : (d.segmentLen == d.payloadSize) = false := by simpa using hc
      cases self with
      | ready =>
        refine ⟨.success .newMultiFrame,
          .inProgress header ((buffer.drop d.preambleLen).take d.segmentLen) d.payloadSize,
          buffer.drop (d.preambleLen + d.segmentLen), ?_, ?_, .inr fun rest => ?_⟩
        · simp [accept, hr, hadv0, hsplit0, hcomplete, hbeq]
        · exact .first _ _ _ (by omega) hin (by rw [hlen]; exact hd.nonempty hlt)
            (by rw [hlen]; exact hlt) hd.within
        · simp [accept, hx' rest, hadv rest, hsplit rest, hcomplete, hbeq]
      | inProgress h p t =>
        refine ⟨errMsg header .inProgress, .inProgress h p t, buffer, ?_, .fatal _ _,
          .inr fun rest => ?_⟩
        · simp [accept, hr, hne h p t rfl, hcomplete, hbeq]
        · simp [accept, hx' rest, hne h p t rfl, hcomplete, hbeq]

/-- Frames under the active header carry on the transfer. -/
theorem accept_continue_spec {payload : Bytes} {total : Nat} (hlt : payload.length < total)
    (hb : 4 ≤ buffer.length) :
    ∃ o s' b', (inProgress header payload total).accept header buffer m max kind = .ok (o, s', b') ∧
      Accepted max header buffer (.inProgress header payload total) o s' b' ∧
      ((∃ n, o = .incomplete n) ∨ ∀ rest,
        (inProgress header payload total).accept header (buffer ++ rest) m max kind =
          .ok (o, s', b' ++ rest)) := by
  have hm : 10 ≤ m.get := m.min_le
  have hml := m.lt
  simp only [accept, ne_eq, not_true_eq_false, if_false, extractSegment_of_lt hlt]
  generalize hsize : min (total - payload.length) (m.get - 4) = size
  by_cases hlen : buffer.length < size + 4
  · simp only [if_pos hlen]
    rw [Outcome.needs_of (by omega) (by omega)]
    exact ⟨_, _, _, rfl, .incomplete _ _, .inl ⟨_, rfl⟩⟩
  · have hseg : ((buffer.drop 4).take size).length = size := by
      simp only [List.length_take, List.length_drop]
      omega
    have htotal : (payload ++ (buffer.drop 4).take size).length = payload.length + size := by
      rw [List.length_append, hseg]
    have hrest : ∀ rest : Bytes, ((buffer ++ rest).drop 4).take size = (buffer.drop 4).take size ∧
        (buffer ++ rest).drop (4 + size) = buffer.drop (4 + size) ++ rest := by
      intro rest
      constructor
      · rw [List.drop_append_of_le_length hb,
          List.take_append_of_le_length (by simp only [List.length_drop]; omega)]
      · exact List.drop_append_of_le_length (by omega)
    have hlen' : ∀ rest : Bytes, ¬ (buffer ++ rest).length < size + 4 := fun rest => by
      simp only [List.length_append]
      omega
    simp only [if_neg hlen, if_neg (hlen' _), (hrest _).1, (hrest _).2, bind_ok]
    by_cases hfull : (payload ++ (buffer.drop 4).take size).length = total
    · simp only [hfull, beq_self_eq_true]
      exact ⟨_, _, _, rfl, .last _ _ _ _ (by omega) (by omega) hfull, .inr fun _ => rfl⟩
    · have hbeq : ((payload ++ (buffer.drop 4).take size).length == total) = false := by
        simpa using hfull
      simp only [hbeq]
      exact ⟨_, _, _, rfl, .middle _ _ _ _ (by omega) (by omega) (by omega), .inr fun _ => rfl⟩

theorem accept_spec {self : MultiframeReceiver} {limit : Nat} (ho : self.Open limit)
    (hb : 4 ≤ buffer.length) (header : Header) (m : MaxFrameSize) (max : Nat) (kind : ErrorKind) :
    ∃ o s' b', self.accept header buffer m max kind = .ok (o, s', b') ∧
      Accepted max header buffer self o s' b' ∧
      ((∃ n, o = .incomplete n) ∨
        ∀ rest, self.accept header (buffer ++ rest) m max kind = .ok (o, s', b' ++ rest)) := by
  by_cases hs : self.inProgressHeader = some header
  · cases self with
    | ready => simp [inProgressHeader] at hs
    | inProgress h p t =>
      have he : h = header := by simpa [inProgressHeader] using hs
      subst h
      exact accept_continue_spec ho.2.1 hb
  · exact accept_start_spec hs hb

end MultiframeReceiver

end Juliet
