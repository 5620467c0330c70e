import Juliet.ProtocolRuns

namespace Juliet

open Rust

/-- Lacking `n` bytes, an operation goes on lacking them until they are there, and they end within
`limit`. -/
def Asks {α : Type} (step : Bytes → Checked α) (wait : NonZeroU32 → Bytes → α) (limit : Nat)
    (buffer : Bytes) (n : NonZeroU32) : Prop :=
  buffer.length + n.get ≤ limit ∧ ∀ e : Bytes, e.length < n.get →
    ∃ k : NonZeroU32, k.get = n.get - e.length ∧ step (buffer ++ e) = .ok (wait k (buffer ++ e))

namespace Asks

variable {α β : Type} {step : Bytes → Checked α} {wait : NonZeroU32 → Bytes → α} {limit : Nat}
  {buffer : Bytes} {n : NonZeroU32}

/-- An operation that waits for its buffer to grow to `stop` bytes. -/
theorem upTo {stop : Nat} (hn : n.get = stop - buffer.length) (hlimit : stop ≤ limit)
    (hstep : ∀ (e : Bytes) (k : NonZeroU32), (buffer ++ e).length < stop →
      k.get = stop - (buffer ++ e).length →
      step (buffer ++ e) = .ok (wait k (buffer ++ e))) : Asks step wait limit buffer n := by
  have hpos := n.pos
  refine ⟨by omega, ?_⟩
  intro e he
  have hlt := n.lt
  refine ⟨⟨n.get - e.length, by omega, by omega⟩, rfl, hstep e _ ?_ ?_⟩
  · rw [List.length_append]
    omega
  · rw [List.length_append]
    show n.get - e.length = _
    omega

/-- An operation that asks for a single byte. -/
theorem single (hn : n.get = 1) (hlimit : buffer.length + 1 ≤ limit)
    (hstep : step buffer = .ok (wait n buffer)) :
    Asks step wait limit buffer n := by
  refine ⟨by omega, ?_⟩
  intro e he
  have hnil : e = [] := List.length_eq_zero_iff.mp (by omega)
  subst hnil
  rw [List.append_nil]
  exact ⟨n, rfl, hstep⟩

/-- An operation that hands the wait of another one on. -/
theorem pass {step' : Bytes → Checked β} {wait' : NonZeroU32 → Bytes → β}
    (h : Asks step wait limit buffer n)
    (hpass : ∀ (e : Bytes) (k : NonZeroU32), step (buffer ++ e) = .ok (wait k (buffer ++ e)) →
      step' (buffer ++ e) = .ok (wait' k (buffer ++ e))) : Asks step' wait' limit buffer n := by
  refine ⟨h.1, ?_⟩
  intro e he
  obtain ⟨k, hk, hstep⟩ := h.2 e he
  exact ⟨k, hk, hpass e k hstep⟩

end Asks

theorem Outcome.needs_get {τ ε : Type} {remaining : Nat} {n : NonZeroU32}
    (h : (Outcome.needs remaining : Checked (Outcome τ ε)) = .ok (.incomplete n)) :
    n.get = remaining := by
  unfold Outcome.needs at h
  split at h
  next => cases Outcome.incomplete.inj (Except.ok.inj h); rfl
  next => simp at h

theorem Outcome.needs_eq {τ ε : Type} {remaining : Nat} {n : NonZeroU32} (h : n.get = remaining) :
    (Outcome.needs remaining : Checked (Outcome τ ε)) = .ok (.incomplete n) := by
  subst h
  exact Outcome.needs_of n.pos n.lt

theorem decodeVarint32_drop {buffer : Bytes} {p : ParsedU32} (hb : 4 ≤ buffer.length)
    (h : decodeVarint32 (buffer.drop 4) = .ok (.success p)) (e : Bytes) :
    decodeVarint32 ((buffer ++ e).drop 4) = .ok (.success p) := by
  rw [List.drop_append_of_le_length hb]
  exact decodeVarint32_append h (by simp) e

theorem detectStartingSegment_asks {header : Header} {buffer : Bytes} {m : MaxFrameSize} {max : Nat}
    {kind : ErrorKind} {n : NonZeroU32} (hb : 4 ≤ buffer.length)
    (h : detectStartingSegment header buffer m max kind = .ok (.incomplete n)) :
    Asks (detectStartingSegment header · m max kind) (fun k _ => .incomplete k) m.get buffer n := by
  have hm : 10 ≤ m.get := m.min_le
  obtain ⟨r, hr, hs⟩ := decodeVarint32_spec (buffer.drop 4)
  cases hs with
  | incomplete k hk hl =>
    have he : detectStartingSegment header buffer m max kind = .ok (.incomplete k) := by
      simp [detectStartingSegment, slice_header hb, hr]
    cases Outcome.incomplete.inj (Except.ok.inj (h.symm.trans he))
    rw [List.length_drop] at hl
    exact .single hk (by omega) h
  | fatal hl =>
    have he : detectStartingSegment header buffer m max kind = .ok (errMsg header .badVarInt) := by
      simp [detectStartingSegment, slice_header hb, hr]
    simp [h, errMsg] at he
  | success p h1 h5 hle hv =>
    rw [detectStartingSegment_of_length hb hr h5] at h
    split at h
    next => simp [errMsg] at h
    next hmax =>
      split at h
      next hlen =>
        have hn := Outcome.needs_get h
        refine .upTo hn (by omega) ?_
        intro e k hlt hk
        have hb' : 4 ≤ (buffer ++ e).length := by simp; omega
        show detectStartingSegment header (buffer ++ e) m max kind = .ok (.incomplete k)
        rw [detectStartingSegment_of_length hb' (decodeVarint32_drop hb hr e) h5,
          if_neg hmax, if_pos hlt]
        exact Outcome.needs_eq hk
      next => simp at h

namespace MultiframeReceiver

variable {header : Header} {buffer : Bytes} {m : MaxFrameSize} {max : Nat} {kind : ErrorKind}

/-- A start frame that waits does so because the detection of its segment waits. -/
theorem accept_start_incomplete {self s' : MultiframeReceiver} {b' : Bytes} {n : NonZeroU32}
    (hs : self.inProgressHeader ≠ some header) (hb : 4 ≤ buffer.length)
    (h : self.accept header buffer m max kind = .ok (.incomplete n, s', b')) :
    detectStartingSegment header buffer m max kind = .ok (.incomplete n) := by
  obtain ⟨r, hr, hd, _⟩ := detectStartingSegment_spec header m max kind hb
  have hne : ∀ h p t, self = .inProgress h p t → header ≠ h := by
    rintro h p t rfl he
    exact hs (by simp [inProgressHeader, he])
  cases hd with
  | incomplete k =>
    rw [hr]
    cases self with
    | ready =>
      simp only [accept, hr, bind_ok, pure_eq_ok] at h
      cases Outcome.incomplete.inj (ok_triple h).1
      rfl
    | inProgress a p t =>
      simp only [accept, hr, hne a p t rfl, ne_eq, not_false_eq_true, if_true,
        bind_ok, pure_eq_ok] at h
      cases Outcome.incomplete.inj (ok_triple h).1
      rfl
  | fatal k =>
    cases self with
    | ready => simp [accept, hr, errMsg] at h
    | inProgress a p t => simp [accept, hr, hne a p t rfl, errMsg] at h
  | success d _ =>
    -- whatever becomes of a detected segment, nothing is waited for
    cases self with
    | ready =>
      simp only [accept, hr, bind_ok] at h
      obtain ⟨_, _, h⟩ := bind_eq_ok.mp h
      obtain ⟨_, _, h⟩ := bind_eq_ok.mp h
      obtain ⟨complete, _, h⟩ := bind_eq_ok.mp h
      cases complete <;> simp at h
    | inProgress a p t =>
      simp only [accept, hr, hne a p t rfl, ne_eq, not_false_eq_true, if_true, bind_ok] at h
      obtain ⟨complete, _, h⟩ := bind_eq_ok.mp h
      cases complete with
      | false => simp [errMsg] at h
      | true =>
        obtain ⟨_, _, h⟩ := bind_eq_ok.mp h
        obtain ⟨_, _, h⟩ := bind_eq_ok.mp h
        simp at h

/-- A continuation frame waits for its segment. -/
theorem accept_continue_wait {payload : Bytes} {total : Nat} (hlt : payload.length < total)
    {b : Bytes} {k : NonZeroU32}
    (hk : k.get = min (total - payload.length) (m.get - 4) + 4 - b.length) :
    (inProgress header payload total).accept header b m max kind =
      .ok (.incomplete k, .inProgress header payload total, b) := by
  have hpos := k.pos
  have hlen : b.length < min (total - payload.length) (m.get - 4) + 4 := by omega
  simp only [accept, ne_eq, not_true_eq_false, if_false, extractSegment_of_lt hlt, if_pos hlen,
    Outcome.needs_eq hk, bind_ok, pure_eq_ok]

theorem accept_continue_incomplete {payload b' : Bytes} {total : Nat} {n : NonZeroU32}
    {s' : MultiframeReceiver} (hlt : payload.length < total)
    (h : (inProgress header payload total).accept header buffer m max kind =
      .ok (.incomplete n, s', b')) :
    n.get = min (total - payload.length) (m.get - 4) + 4 - buffer.length := by
  have hm := m.lt
  by_cases hlen : buffer.length < min (total - payload.length) (m.get - 4) + 4
  · have hwait := h.symm.trans (accept_continue_wait hlt
      (k := ⟨min (total - payload.length) (m.get - 4) + 4 - buffer.length, by omega, by omega⟩) rfl)
    cases Outcome.incomplete.inj (ok_triple hwait).1
    rfl
  · simp only [accept, ne_eq, not_true_eq_false, if_false, extractSegment_of_lt hlt,
      if_neg hlen, bind_ok] at h
    split at h
    next heq => simp at heq
    next heq => simp at heq
    next => simp at h
    next => simp at h

theorem accept_asks {self s' : MultiframeReceiver} {limit : Nat} {b' : Bytes} {n : NonZeroU32}
    (ho : self.Open limit) (hb : 4 ≤ buffer.length)
    (h : self.accept header buffer m max kind = .ok (.incomplete n, s', b')) :
    Asks (self.accept header · m max kind) (fun k b => (.incomplete k, self, b))
      m.get buffer n := by
  have hm : 10 ≤ m.get := m.min_le
  by_cases hs : self.inProgressHeader = some header
  · cases self with
    | ready => simp [inProgressHeader] at hs
    | inProgress a p t =>
      have he : a = header := by simpa [inProgressHeader] using hs
      subst he
      refine .upTo (accept_continue_incomplete ho.2.1 h) (by omega) ?_
      intro e k _ hk
      exact accept_continue_wait ho.2.1 hk
  · refine (detectStartingSegment_asks hb (accept_start_incomplete hs hb h)).pass ?_
    intro e k hk
    show self.accept header (buffer ++ e) m max kind = .ok (.incomplete k, self, buffer ++ e)
    cases self with
    | ready => simp [accept, hk]
    | inProgress a p t =>
      have hne : header ≠ a := fun he => hs (by simp [inProgressHeader, he])
      simp [accept, hk, hne]

end MultiframeReceiver

namespace Channel

variable {self c : Channel} {header : Header} {buffer b : Bytes} {m : MaxFrameSize} {i : Nat}
  {n : NonZeroU32}

theorem recordRequestPl_decides (frame : CompletedFrame) (n : NonZeroU32) :
    (self.recordRequestPl header frame).1 ≠ some (.incomplete n) := by
  have hcompleted := completedAs_progress (.newRequest header.channel header.id) frame
  have hne : completedAs (.newRequest header.channel header.id) frame ≠ some (.incomplete n) := by
    intro he
    obtain ⟨read, hread⟩ := hcompleted _ he
    simp at hread
  unfold recordRequestPl
  split
  next =>
    split
    next => simp [errMsg]
    next =>
      split
      next => simp [errMsg]
      next => exact hne
  next => exact hne

theorem recordResponsePl_decides (frame : CompletedFrame) (n : NonZeroU32) :
    (self.recordResponsePl header frame).1 ≠ some (.incomplete n) := by
  unfold recordResponsePl
  split <;> simp

theorem acceptWith_asks {max : Nat} {exceeded : ErrorKind}
    {record : Channel → CompletedFrame → Option ReadOutcome × Channel} (hv : self.Valid i)
    (hb : 4 ≤ buffer.length) (hrecord : ∀ chan frame, (record chan frame).1 ≠ some (.incomplete n))
    (h : self.acceptWith m max exceeded record header buffer = .ok (some (.incomplete n), c, b)) :
    Asks (self.acceptWith m max exceeded record header) (fun k b => (some (.incomplete k), self, b))
      m.get buffer n := by
  obtain ⟨o, s', b', ho, _, _⟩ :=
    MultiframeReceiver.accept_spec hv.receiver_open hb header m max exceeded
  unfold acceptWith at h
  simp only [ho, bind_ok, pure_eq_ok] at h
  cases o with
  | incomplete k =>
    cases Outcome.incomplete.inj (Option.some.inj (ok_triple h).1)
    refine (MultiframeReceiver.accept_asks hv.receiver_open hb ho).pass ?_
    intro e k hk
    simp only [acceptWith, hk, bind_ok, pure_eq_ok]
    rfl
  | fatal err => simp at h
  | success frame => exact absurd (ok_triple h).1 (hrecord _ frame)

theorem processResponsePl_asks (hv : self.Valid i) (hb : 4 ≤ buffer.length)
    (h : self.processResponsePl m header buffer = .ok (some (.incomplete n), c, b)) :
    Asks (self.processResponsePl m header) (fun k b => (some (.incomplete k), self, b))
      m.get buffer n := by
  by_cases hid : header.id ∈ self.outgoingRequests
  · rw [processResponsePl_eq m hid] at h ⊢
    exact acceptWith_asks hv hb (fun _ frame => recordResponsePl_decides frame n) h
  · rw [processResponsePl_unasked m hid] at h
    simp [errMsg] at h

/-- Only frames with a payload wait for more than their header. -/
theorem processKind_asks {kind : Kind} (hv : self.Valid i) (hb : 4 ≤ buffer.length)
    (h : self.processKind m kind header buffer = .ok (some (.incomplete n), c, b)) :
    Asks (self.processKind m kind header) (fun k b => (some (.incomplete k), self, b))
      m.get buffer n := by
  cases kind with
  | requestPl =>
    simp only [processKind, processRequestPl_eq] at h ⊢
    exact acceptWith_asks hv hb (fun _ frame => recordRequestPl_decides frame n) h
  | responsePl => exact processResponsePl_asks hv hb h
  | request =>
    simp only [processKind, processRequest, advance_header hb, bind_ok, pure_eq_ok] at h
    split at h
    next => simp [errMsg] at h
    next => split at h <;> simp [errMsg] at h
  | response =>
    simp only [processKind, processResponse, advance_header hb, bind_ok, pure_eq_ok] at h
    split at h <;> simp [errMsg] at h
  | cancelReq =>
    simp only [processKind, processCancelReq, advance_header hb] at h
    split at h
    next => simp [errMsg] at h
    next =>
      obtain ⟨allowance, _, h⟩ := bind_eq_ok.mp h
      simp only [bind_ok, pure_eq_ok] at h
      split at h <;> simp at h
  | cancelResp =>
    simp only [processKind, processCancelResp, advance_header hb, bind_ok, pure_eq_ok] at h
    split at h <;> simp [errMsg] at h

end Channel

namespace JulietProtocol

variable {N : Nat}

theorem processError_asks {m : MaxFrameSize} {header : Header} {buffer b : Bytes} {k : ErrorKind}
    {n : NonZeroU32} (he : header = Header.newError k header.channel header.id)
    (hb : 4 ≤ buffer.length) (h : processError m header buffer = .ok (.incomplete n, b)) :
    Asks (processError m header) (fun k b => (.incomplete k, b)) m.get buffer n := by
  have hm : 10 ≤ m.get := m.min_le
  have hkind : header.errorKind = .ok k := by
    rw [he]
    exact Header.newError_errorKind _ _ _
  by_cases hk : k = .other
  · subst hk
    obtain ⟨r, hr, hs⟩ := decodeVarint32_spec (buffer.drop 4)
    cases hs with
    | incomplete k hn hl =>
      have hwait : processError m header buffer = .ok (.incomplete k, buffer) := by
        simp only [processError, hkind, bind_ok, slice_header hb, hr, pure_eq_ok]
      cases Outcome.incomplete.inj (ok_pair (h.symm.trans hwait)).1
      rw [List.length_drop] at hl
      exact .single hn (by omega) hwait
    | fatal hl => simp [processError, hkind, slice_header hb, hr, errMsg] at h
    | success p h1 h5 hle hv =>
      simp only [processError, hkind, bind_ok, slice_header hb, hr, Header.size] at h
      split at h
      next => simp [errMsg] at h
      next hmax =>
        split at h
        next hlen =>
          rw [checkedSub_of_le hlen.le, bind_ok] at h
          obtain ⟨o, hneeds, h⟩ := bind_eq_ok.mp h
          obtain ⟨rfl, rfl⟩ := ok_pair h
          refine .upTo (Outcome.needs_get hneeds) (by omega) ?_
          intro e k hlt hk
          have hb' : 4 ≤ (buffer ++ e).length := by simp; omega
          simp only [processError, hkind, bind_ok, slice_header hb', decodeVarint32_drop hb hr e,
            Header.size, if_neg hmax, if_pos hlt, checkedSub_of_le hlt.le,
            Outcome.needs_eq hk, pure_eq_ok]
        next =>
          obtain ⟨_, _, h⟩ := bind_eq_ok.mp h
          obtain ⟨_, _, h⟩ := bind_eq_ok.mp h
          simp at h
  · have hout : processError m header buffer =
        .ok (.success (.errorReceived header none), buffer.drop 4) := by
      have hadv : advance buffer Header.size = .ok (buffer.drop 4) := advance_of_le hb
      cases k with
      | other => exact absurd rfl hk
      | _ => simp only [processError, hkind, bind_ok, hadv, pure_eq_ok]
    simp [h] at hout

theorem processFrame_header {self : JulietProtocol N} {buffer : Bytes} {header : Header}
    (h : frontHeader buffer = some header) (e : Bytes) :
    self.processFrame (buffer ++ e) = self.processHeader header (buffer ++ e) := by
  unfold frontHeader at h
  split at h
  next b0 b1 b2 b3 tail => simp only [processFrame, List.cons_append, h]
  next => simp at h

theorem frontHeader_cases {buffer : Bytes} {header : Header}
    (h : frontHeader buffer = some header) :
    (∃ k, header.isError = true ∧ header = Header.newError k header.channel header.id) ∨
      ∃ kind, header.isError = false ∧ header.kind = .ok kind := by
  unfold frontHeader at h
  split at h
  next =>
    cases he : header.isError with
    | true =>
      obtain ⟨k, hk⟩ := Header.parse_errorKind h he
      exact .inl ⟨k, rfl, hk⟩
    | false =>
      obtain ⟨kind, hkind⟩ := Header.parse_kind h he
      refine .inr ⟨kind, rfl, ?_⟩
      rw [hkind]
      exact Header.new_kind _ _ _
  next => simp at h

theorem processHeader_asks {self s : JulietProtocol N} {header : Header} {buffer b : Bytes}
    {n : NonZeroU32} (hv : self.Valid) (hf : frontHeader buffer = some header)
    (h : self.processHeader header buffer = .ok (some (.incomplete n), s, b)) :
    Asks (self.processHeader header) (fun k b => (some (.incomplete k), self, b))
      self.maxFrameSize.get buffer n := by
  have hb := frontHeader_length hf
  rcases frontHeader_cases hf with ⟨k, he, hk⟩ | ⟨kind, he, hkind⟩
  · simp only [processHeader, he, if_true] at h
    obtain ⟨⟨o, b'⟩, hx, h⟩ := bind_eq_ok.mp h
    obtain ⟨ho, _, _⟩ := ok_triple h
    cases Option.some.inj ho
    refine (processError_asks hk hb hx).pass ?_
    intro e k hwait
    simp only [processHeader, he, if_true, hwait, bind_ok, pure_eq_ok]
  · simp only [processHeader, he, Bool.false_eq_true, if_false] at h
    split at h
    next hc =>
      simp only [hkind, bind_ok] at h
      obtain ⟨⟨o, c, b'⟩, hx, h⟩ := bind_eq_ok.mp h
      obtain ⟨rfl, _, _⟩ := ok_triple h
      refine (Channel.processKind_asks (hv ⟨header.channel.get.toNat, hc⟩) hb hx).pass ?_
      intro e k hwait
      simp only [processHeader, he, Bool.false_eq_true, if_false, hc, dite_true, hkind,
        bind_ok, hwait, pure_eq_ok]
      simp [setChannel]
    next => simp [errMsg] at h

/-- An iteration that waits asks for what is missing of the frame at the front, no more. -/
theorem processFrame_asks {self s : JulietProtocol N} {buffer b : Bytes} {n : NonZeroU32}
    (hv : self.Valid) (h : self.processFrame buffer = .ok (some (.incomplete n), s, b)) :
    Asks self.processFrame (fun k b => (some (.incomplete k), self, b))
      self.maxFrameSize.get buffer n := by
  have hm : 10 ≤ self.maxFrameSize.get := self.maxFrameSize.min_le
  by_cases hlen : buffer.length < 4
  · have hshort : ∀ b : Bytes, b.length < 4 → self.processFrame b = (do
        let missing ← checkedSub Header.size b.length
        return (some (← Outcome.needs missing), self, b)) := by
      intro b hb
      unfold processFrame
      split
      next =>
        simp only [List.length_cons] at hb
        omega
      next => rfl
    rw [hshort buffer hlen,
      checkedSub_of_le (show buffer.length ≤ Header.size by simp only [Header.size]; omega),
      bind_ok] at h
    obtain ⟨o, hneeds, h⟩ := bind_eq_ok.mp h
    obtain ⟨ho, _, _⟩ := ok_triple h
    cases Option.some.inj ho
    refine .upTo (Outcome.needs_get hneeds) (by simp only [Header.size]; omega) ?_
    intro e k hlt hk
    rw [hshort _ hlt, checkedSub_of_le hlt.le, bind_ok, Outcome.needs_eq hk]
    rfl
  · cases hf : frontHeader buffer with
    | none =>
      -- the header cannot be read, and nothing is waited for
      unfold processFrame at h
      split at h
      next b0 b1 b2 b3 _ =>
        simp only [frontHeader] at hf
        simp [hf] at h
      next hshort =>
        rcases buffer with _ | ⟨b0, _ | ⟨b1, _ | ⟨b2, _ | ⟨b3, tail⟩⟩⟩⟩
        on_goal 5 => exact absurd rfl (hshort b0 b1 b2 b3 tail)
        all_goals simp at hlen
    | some header =>
      have h0 : self.processFrame buffer = self.processHeader header buffer := by
        simpa using processFrame_header hf []
      rw [h0] at h
      refine (processHeader_asks hv hf h).pass ?_
      intro e k hwait
      rw [processFrame_header hf, hwait]

/-- What `process_incoming` asks for is never too much. -/
theorem processIncoming_asks {p s : JulietProtocol N} (hr : Reachable p) {buffer b : Bytes}
    {n : NonZeroU32} (h : p.processIncoming buffer = .ok (.incomplete n, s, b)) :
    b.length + n.get ≤ s.maxFrameSize.get ∧ ∀ e : Bytes, e.length < n.get →
      ∃ k : NonZeroU32, k.get = n.get - e.length ∧ s.processIncoming (b ++ e) =
        .ok (.incomplete k, s, b ++ e) := by
  obtain ⟨s₀, b₀, hi, hp⟩ := processIncoming_inv hr.valid h
  have hv := hi.valid hr.valid
  obtain ⟨rfl, rfl⟩ := frameAttempt_stable.waits hv (frameAttempt_of hp)
  obtain ⟨hfits, hasks⟩ := processFrame_asks hv hp
  refine ⟨hfits, ?_⟩
  intro e he
  obtain ⟨k, hk, hwait⟩ := hasks e he
  exact ⟨k, hk, processIncoming_of_some hwait⟩

/-- Having read the length of a request of six bytes, the protocol asks for the five bytes of its
first frame; with two of them it asks for the other three. -/
theorem processIncoming_asks_segment : ∃ (s : JulietProtocol 1) (n k : NonZeroU32),
    smallBuilder.build.processIncoming ((Header.new .requestPl ⟨0⟩ ⟨1⟩).bytes ++ [6]) =
      .ok (.incomplete n, s, (Header.new .requestPl ⟨0⟩ ⟨1⟩).bytes ++ [6]) ∧ n.get = 5 ∧ k.get = 3 ∧
    s.processIncoming ((Header.new .requestPl ⟨0⟩ ⟨1⟩).bytes ++ [6] ++ [9, 9]) =
      .ok (.incomplete k, s, (Header.new .requestPl ⟨0⟩ ⟨1⟩).bytes ++ [6] ++ [9, 9]) := by
  have h : smallBuilder.build.processIncoming ((Header.new .requestPl ⟨0⟩ ⟨1⟩).bytes ++ [6]) =
      .ok (.incomplete ⟨5, by decide, by decide⟩, _,
        (Header.new .requestPl ⟨0⟩ ⟨1⟩).bytes ++ [6]) := rfl
  obtain ⟨_, hasks⟩ := processIncoming_asks (.build smallBuilder) h
  obtain ⟨k, hk, hwait⟩ := hasks [9, 9] (by decide)
  exact ⟨_, _, k, h, rfl, hk, hwait⟩

end JulietProtocol

end Juliet
