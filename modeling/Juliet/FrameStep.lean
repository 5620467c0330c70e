import Juliet.Incremental
import Juliet.ChannelStep

namespace Juliet

open Rust Incremental

theorem Accepted.consumes {max : Nat} {header : Header} {buffer rest : Bytes}
    {s s' : MultiframeReceiver} {frame : CompletedFrame}
    (h : Accepted max header buffer s (.success frame) s' rest) :
    ∃ k, 4 ≤ k ∧ k ≤ buffer.length ∧ rest = buffer.drop k := by
  cases h with
  | single _ _ k _ h4 hk _ => exact ⟨k, h4, hk, rfl⟩
  | first _ _ k h4 hk _ _ _ => exact ⟨k, h4, hk, rfl⟩
  | middle _ _ _ k h4 hk _ => exact ⟨k, h4, hk, rfl⟩
  | last _ _ _ k h4 hk _ => exact ⟨k, h4, hk, rfl⟩

/-- An accepted frame leaves the receiver ready or in a transfer of its own header or the old
one. -/
theorem Accepted.transfer {max : Nat} {header : Header} {buffer rest : Bytes}
    {s s' : MultiframeReceiver} {frame : CompletedFrame}
    (h : Accepted max header buffer s (.success frame) s' rest) {hd : Header} {p : Bytes} {t : Nat}
    (hs : s' = .inProgress hd p t) :
    s = .inProgress hd p t ∨ hd = header ∧ 0 < p.length ∧ p.length < t ∧
    (t ≤ max ∨ ∃ q, s = .inProgress hd q t) ∨
      hd = header ∧ p.length < t ∧ ∃ q seg, s = .inProgress hd q t ∧ p = q ++ seg := by
  cases h with
  | single _ _ _ _ _ _ _ => exact .inl hs
  | first _ _ _ _ _ hpos hlt hmax =>
    cases hs
    exact .inr (.inl ⟨rfl, hpos, hlt, .inl hmax⟩)
  | middle _ _ _ _ _ _ hlt =>
    cases hs
    exact .inr (.inr ⟨rfl, hlt, _, _, rfl, rfl⟩)
  | last _ _ _ _ _ _ _ => simp at hs

namespace Channel

variable {self : Channel} {header : Header} {buffer : Bytes} {i : Nat}

/-- Replacing the receiver by what an accepted frame leaves keeps the transfer bounds. -/
theorem Valid.withReceiver {max : Nat} {frame : CompletedFrame} {receiver : MultiframeReceiver}
    {rest : Bytes} (hv : self.Valid i) (hi : header.channel.get.toNat = i)
    (ha : Accepted max header buffer self.currentMultiframeReceiver (.success frame) receiver rest)
    (hk : header = Header.new .requestPl header.channel header.id ∧
      max = self.config.maxRequestPayloadSize.toNat ∨
      header = Header.new .responsePl header.channel header.id ∧
    max = self.config.maxResponsePayloadSize.toNat) :
    (self.withReceiver receiver).Valid i where
  incoming_le := hv.incoming_le
  outgoing_le := hv.outgoing_le
  allowance_le := hv.allowance_le
  transfer := by
    intro hd p t hr
    rcases ha.transfer hr with hs | ⟨rfl, hpos, hlt, hmax | ⟨q, hs⟩⟩ | ⟨rfl, hlt, q, seg, hs, rfl⟩
    · exact hv.transfer hs
    · refine ⟨hi, hpos, hlt, ?_⟩
      rcases hk with ⟨he, rfl⟩ | ⟨he, rfl⟩
      · exact .inl ⟨he, hmax⟩
      · exact .inr ⟨he, hmax⟩
    · obtain ⟨h1, _, _, h4⟩ := hv.transfer hs
      exact ⟨h1, hpos, hlt, h4⟩
    · obtain ⟨h1, h2, _, h4⟩ := hv.transfer hs
      exact ⟨h1, by simp; omega, hlt, h4⟩

theorem Valid.register (hv : self.Valid i)
    (hc : self.incomingRequests.card < self.config.requestLimit.toNat) (id : Id) :
    (self.register id).Valid i where
  incoming_le := by
    rw [register_incoming, register_config]
    exact (Finset.card_insert_le _ _).trans hc
  outgoing_le := by simpa using hv.outgoing_le
  allowance_le := by
    rw [register_allowance _ _ hv.allowance_le, register_config]
    exact min_le_right _ _
  transfer := by
    intro hd p t hr
    rw [register_config]
    exact hv.transfer (by simpa using hr)

theorem Valid.releaseOutgoing (hv : self.Valid i) (id : Id) :
    { self with outgoingRequests := self.outgoingRequests.erase id }.Valid i where
  incoming_le := hv.incoming_le
  outgoing_le := (Finset.card_erase_le).trans hv.outgoing_le
  allowance_le := hv.allowance_le
  transfer := hv.transfer

theorem Valid.releaseIncoming (hv : self.Valid i) (id : Id) :
    { self with incomingRequests := self.incomingRequests.erase id }.Valid i where
  incoming_le := (Finset.card_erase_le).trans hv.incoming_le
  outgoing_le := hv.outgoing_le
  allowance_le := hv.allowance_le
  transfer := hv.transfer

theorem Valid.spend (hv : self.Valid i) :
    { self with cancellationAllowance := self.cancellationAllowance - 1 }.Valid i where
  incoming_le := hv.incoming_le
  outgoing_le := hv.outgoing_le
  allowance_le := (Nat.sub_le _ _).trans hv.allowance_le
  transfer := hv.transfer

theorem Valid.cancelInProgress (hv : self.Valid i) (header : Header) :
    (self.cancelInProgress header).Valid i := by
  unfold Channel.cancelInProgress
  split
  next h _ =>
    split
    next =>
      refine ⟨?_, hv.outgoing_le, hv.allowance_le, by simp⟩
      exact (Finset.card_erase_le).trans hv.incoming_le
    next => exact hv
  next => exact hv

/-- Every step of a channel keeps its bounds. -/
theorem Valid.step {kind : Kind} {o : Option ReadOutcome} {c : Channel} {b : Bytes}
    (hv : self.Valid i) (hi : header.channel.get.toNat = i)
    (hk : header = Header.new kind header.channel header.id)
    (hs : ChannelStep header buffer self kind o c b) : c.Valid i := by
  cases hs with
  | wait _ _ => exact hv
  | refuse _ _ => exact hv
  | request hc _ => exact hv.register hc _
  | response _ => exact hv.releaseOutgoing _
  | requestPlRefused frame receiver rest err ha _ => exact hv.withReceiver hi ha (.inl ⟨hk, rfl⟩)
  | requestPlNew frame receiver rest ha _ hc _ =>
    exact (hv.withReceiver hi ha (.inl ⟨hk, rfl⟩)).register hc _
  | requestPlMore frame receiver rest ha _ => exact hv.withReceiver hi ha (.inl ⟨hk, rfl⟩)
  | responsePl frame receiver rest _ ha =>
    have hr := hv.withReceiver hi ha (.inr ⟨hk, rfl⟩)
    split
    next => exact hr.releaseOutgoing _
    next => exact hr
  | cancelReqLate _ _ => exact hv.spend.cancelInProgress _
  | cancelReq _ _ => exact hv.spend.cancelInProgress _
  | cancelResp _ => exact hv.releaseOutgoing _

end Channel

/-- Whether an outcome is a read, or lets the loop go on. -/
def Progress (o : Option ReadOutcome) : Prop := ∀ r ∈ o, ∃ read, r = .success read

theorem completedAs_progress (read : Option Bytes → CompletedRead) (frame : CompletedFrame) :
    Progress (completedAs read frame) := by
  intro r hr
  obtain ⟨payload, _, rfl⟩ := Option.map_eq_some_iff.mp hr
  exact ⟨_, rfl⟩

/-- A step that neither waits nor refuses takes at least the header off the buffer. -/
theorem ChannelStep.consumes {header : Header} {buffer b : Bytes} {self c : Channel} {kind : Kind}
    {o : Option ReadOutcome} (h : ChannelStep header buffer self kind o c b)
    (hb : 4 ≤ buffer.length) :
    (∃ n, o = some (.incomplete n) ∧ c = self ∧ b = buffer) ∨ (∃ err, o = some (.fatal err)) ∨
      Progress o ∧ ∃ k, 4 ≤ k ∧ k ≤ buffer.length ∧ b = buffer.drop k := by
  cases h with
  | wait _ n => exact .inl ⟨n, rfl, rfl, rfl⟩
  | refuse _ _ => exact .inr (.inl ⟨_, rfl⟩)
  | requestPlRefused _ _ _ _ _ _ => exact .inr (.inl ⟨_, rfl⟩)
  | requestPlNew _ _ _ ha _ _ _ => exact .inr (.inr ⟨completedAs_progress _ _, ha.consumes⟩)
  | requestPlMore _ _ _ ha _ => exact .inr (.inr ⟨completedAs_progress _ _, ha.consumes⟩)
  | responsePl _ _ _ _ ha => exact .inr (.inr ⟨completedAs_progress _ _, ha.consumes⟩)
  | request _ _ | response _ | cancelReqLate _ _ | cancelReq _ _ | cancelResp _ =>
    exact .inr (.inr ⟨by simp [Progress], 4, le_rfl, hb, rfl⟩)

namespace JulietProtocol

variable {N : Nat}

/-- The bounds of all channels. -/
def Valid (p : JulietProtocol N) : Prop := ∀ i : Fin N, (p.channels i).Valid i

theorem build_valid (b : ProtocolBuilder N) : b.build.Valid := fun i => Channel.new_valid i _

theorem Valid.setChannel {p : JulietProtocol N} (hv : p.Valid) {i : Fin N} {c : Channel}
    (hc : c.Valid i) :
    (p.setChannel i c).Valid := by
  intro j
  by_cases hj : j = i
  · subst hj
    simpa using hc
  · simpa [hj] using hv j

/-- The header at the front of a buffer. -/
def frontHeader : Bytes → Option Header
  | b0 :: b1 :: b2 :: b3 :: _ => Header.parse (b0, b1, b2, b3)
  | _ => none

/-- Everything one iteration of `process_incoming` can do. -/
inductive FrameStep (self : JulietProtocol N) (buffer : Bytes) :
    Option ReadOutcome → JulietProtocol N → Bytes → Prop
  | wait (n : NonZeroU32) : FrameStep self buffer (some (.incomplete n)) self buffer
  | refuse (err : OutgoingMessage) : err.header.isError = true →
      FrameStep self buffer (some (.fatal err)) self buffer
  | error (header : Header) (data : Option Bytes) (k : Nat) : frontHeader buffer = some header →
      header.isError = true → 4 ≤ k → k ≤ buffer.length →
      FrameStep self buffer (some (.success (.errorReceived header data))) self (buffer.drop k)
  | frame (header : Header) (kind : Kind) (i : Fin N) (o : Option ReadOutcome)
      (c : Channel) (b : Bytes) :
      frontHeader buffer = some header → header = Header.new kind header.channel header.id →
      header.channel.get.toNat = i → ChannelStep header buffer (self.channels i) kind o c b →
      FrameStep self buffer o (self.setChannel i c) b

theorem processError_spec {m : MaxFrameSize} {header : Header} {buffer : Bytes} {k : ErrorKind}
    (he : header = Header.newError k header.channel header.id) (hb : 4 ≤ buffer.length) :
    ∃ o b, processError m header buffer = .ok (o, b) ∧
      ((∃ n, o = .incomplete n ∧ b = buffer) ∨
        (∃ err, o = .fatal err ∧ err.header.isError = true ∧ b = buffer) ∨
        ∃ data k, o = .success (.errorReceived header data) ∧ 4 ≤ k ∧ k ≤ buffer.length ∧
          b = buffer.drop k) ∧
      ((∃ n, o = .incomplete n) ∨ ∀ rest, processError m header (buffer ++ rest) =
        .ok (o, b ++ rest)) := by
  have hm := m.lt
  have hkind : header.errorKind = .ok k := by
    rw [he]
    exact Header.newError_errorKind _ _ _
  have hb' : ∀ rest : Bytes, 4 ≤ (buffer ++ rest).length := fun rest => by simp; omega
  have hdrop : ∀ rest : Bytes, (buffer ++ rest).drop 4 = buffer.drop 4 ++ rest :=
    fun rest => List.drop_append_of_le_length hb
  by_cases hk : k = .other
  · subst hk
    simp only [processError, hkind, bind_ok, slice_header hb, slice_header (hb' _), hdrop]
    obtain ⟨r, hr, hs⟩ := decodeVarint32_spec (buffer.drop 4)
    cases hs with
    | incomplete n hn hl =>
      simp only [hr, bind_ok, pure_eq_ok]
      exact ⟨_, _, rfl, .inl ⟨n, rfl, rfl⟩, .inl ⟨n, rfl⟩⟩
    | fatal hl =>
      simp only [hr, decodeVarint32_append hr (by simp), bind_ok, pure_eq_ok]
      exact ⟨_, _, rfl, .inr (.inl ⟨_, rfl, Header.newError_isError _ _ _, rfl⟩), .inr fun _ => rfl⟩
    | success p h1 h5 hle hv =>
      simp only [hr, decodeVarint32_append hr (by simp), bind_ok]
      by_cases hmax : 4 + p.offset + p.value > m.get
      · simp only [Header.size, if_pos hmax, pure_eq_ok]
        exact ⟨_, _, rfl, .inr (.inl ⟨_, rfl, Header.newError_isError _ _ _, rfl⟩),
          .inr fun _ => rfl⟩
      · simp only [Header.size, if_neg hmax]
        by_cases hlen : buffer.length < 4 + p.offset + p.value
        · simp only [if_pos hlen, checkedSub_of_le hlen.le, bind_ok]
          rw [Outcome.needs_of (by omega) (by omega)]
          exact ⟨_, _, rfl, .inl ⟨_, rfl, rfl⟩, .inl ⟨_, rfl⟩⟩
        · have hlen' : ∀ rest : Bytes, ¬ (buffer ++ rest).length < 4 + p.offset + p.value :=
            fun rest => by
            simp only [List.length_append]
            omega
          have hadv : ∀ rest : Bytes, advance (buffer ++ rest) (4 + p.offset) =
              .ok (buffer.drop (4 + p.offset) ++ rest) := by
            intro rest
            rw [advance_of_le (by simp only [List.length_append]; omega),
              List.drop_append_of_le_length (by omega)]
          have hsplit : ∀ rest : Bytes, splitTo (buffer.drop (4 + p.offset) ++ rest) p.value =
              .ok ((buffer.drop (4 + p.offset)).take p.value,
                buffer.drop (4 + p.offset + p.value) ++ rest) := by
            intro rest
            have hin : p.value ≤ (buffer.drop (4 + p.offset)).length := by
              simp only [List.length_drop]
              omega
            rw [splitTo_of_le (by simp only [List.length_append]; omega),
              List.take_append_of_le_length hin, List.drop_append_of_le_length hin, List.drop_drop]
          have hadv0 := hadv []
          have hsplit0 := hsplit []
          simp only [List.append_nil] at hadv0 hsplit0
          simp only [if_neg hlen, if_neg (hlen' _), hadv, hsplit, hadv0, hsplit0,
            bind_ok, pure_eq_ok]
          exact ⟨_, _, rfl, .inr (.inr ⟨_, _, rfl, by omega, by omega, rfl⟩), .inr fun _ => rfl⟩
  · have hout : ∀ b : Bytes, 4 ≤ b.length →
        processError m header b = .ok (.success (.errorReceived header none), b.drop 4) := by
      intro b hb
      have hadv : advance b Header.size = .ok (b.drop 4) := advance_of_le hb
      cases k with
      | other => exact absurd rfl hk
      | _ => simp only [processError, hkind, bind_ok, hadv, pure_eq_ok]
    refine ⟨_, _, hout buffer hb, .inr (.inr ⟨none, 4, rfl, le_rfl, hb, rfl⟩), .inr fun rest => ?_⟩
    rw [hout _ (hb' rest), hdrop]

/-- No iteration panics on a valid protocol; it takes one of the listed steps, and it takes the same
step on every longer buffer unless it waits for data. -/
theorem processFrame_steps {self : JulietProtocol N} (hv : self.Valid) (buffer : Bytes) :
    ∃ o s b, self.processFrame buffer = .ok (o, s, b) ∧ FrameStep self buffer o s b ∧
      ((∃ n, o = some (.incomplete n)) ∨ ∀ rest, self.processFrame (buffer ++ rest) =
        .ok (o, s, b ++ rest)) := by
  match hbuf : buffer with
  | [] | [_] | [_, _] | [_, _, _] =>
    refine ⟨some (.incomplete ⟨4 - buffer.length, ?_, ?_⟩), self, buffer, ?_, ?_,
      .inl ⟨_, rfl⟩⟩ <;> subst hbuf
    · simp
    · simp; try omega
    · rfl
    · exact .wait _
  | b0 :: b1 :: b2 :: b3 :: tail =>
    rw [← hbuf]
    have hb : 4 ≤ buffer.length := by simp [hbuf]
    cases hp : Header.parse (b0, b1, b2, b3) with
    | none =>
      refine ⟨some
        (.fatal (OutgoingMessage.new (Header.newError .invalidHeader unknownChannel unknownId)
          none)), self,
        buffer, ?_, .refuse _ (Header.newError_isError _ _ _), .inr fun rest => ?_⟩
      · simp only [processFrame, hbuf, hp]
      · simp only [processFrame, hbuf, hp, List.cons_append]
    | some header =>
      have hfront : frontHeader buffer = some header := by simp [frontHeader, hbuf, hp]
      have hstep : ∀ rest : Bytes, self.processFrame (buffer ++ rest) =
          self.processHeader header (buffer ++ rest) := by
        intro rest
        simp only [processFrame, hbuf, hp, List.cons_append]
      have hstep0 := hstep []
      simp only [List.append_nil] at hstep0
      rw [hstep0]
      simp only [hstep]
      by_cases he : header.isError = true
      · obtain ⟨k, hk⟩ := Header.parse_errorKind hp he
        obtain ⟨o, b, ho, hcase, hx⟩ := processError_spec (m := self.maxFrameSize) hk hb
        simp only [processHeader, he, if_true, ho, bind_ok, pure_eq_ok]
        refine ⟨some o, self, b, rfl, ?_, ?_⟩
        · rcases hcase with ⟨n, rfl, rfl⟩ | ⟨err, rfl, herr, rfl⟩ | ⟨data, k, rfl, h4, hk, rfl⟩
          · exact .wait n
          · exact .refuse err herr
          · exact .error header data k hfront he h4 hk
        · rcases hx with ⟨n, rfl⟩ | hx
          · exact .inl ⟨n, rfl⟩
          · exact .inr fun rest => by rw [hx rest]; rfl
      · have hne : header.isError = false := by simpa using he
        obtain ⟨kind, hkind⟩ := Header.parse_kind hp hne
        have hk : header.kind = .ok kind := by
          rw [hkind]
          exact Header.new_kind _ _ _
        by_cases hc : header.channel.get.toNat < N
        · obtain ⟨o, c, b, ho, hcs, hx⟩ := Channel.processKind_steps
            (hv ⟨header.channel.get.toNat, hc⟩) hb header self.maxFrameSize kind
          simp only [processHeader, hne, Bool.false_eq_true, if_false, hc, dif_pos, hk,
            bind_ok, ho, pure_eq_ok]
          refine ⟨o, _, b, rfl, .frame header kind _ o c b hfront hkind rfl hcs, ?_⟩
          rcases hx with hx | hx
          · exact .inl hx
          · exact .inr fun rest => by rw [hx rest]; rfl
        · simp only [processHeader, hne, Bool.false_eq_true, if_false, hc,
            dif_neg, not_false_eq_true]
          exact ⟨_, _, _, rfl, .refuse _ (Header.newError_isError _ _ _), .inr fun _ => rfl⟩

theorem processFrame_inv {self s : JulietProtocol N} {buffer b : Bytes} {o : Option ReadOutcome}
    (hv : self.Valid) (h : self.processFrame buffer = .ok (o, s, b)) :
    FrameStep self buffer o s b := by
  obtain ⟨o', s', b', ho, hs, _⟩ := processFrame_steps hv buffer
  have he := Except.ok.inj (h.symm.trans ho)
  simp only [Prod.mk.injEq] at he
  obtain ⟨rfl, rfl, rfl⟩ := he
  exact hs

theorem frontHeader_length {buffer : Bytes} {header : Header}
    (h : frontHeader buffer = some header) :
    4 ≤ buffer.length := by
  unfold frontHeader at h
  split at h
  next => simp
  next => simp at h

theorem Valid.frameStep {self s : JulietProtocol N} {buffer b : Bytes} {o : Option ReadOutcome}
    (hv : self.Valid) (h : FrameStep self buffer o s b) : s.Valid := by
  cases h with
  | wait _ => exact hv
  | refuse _ _ => exact hv
  | error _ _ _ _ _ _ _ => exact hv
  | frame header kind i o c b hf hk hi hs => exact hv.setChannel ((hv i).step hi hk hs)

/-- An iteration that goes on, or that returns a read, takes at least the header off the buffer. -/
theorem FrameStep.consumes {self s : JulietProtocol N} {buffer b : Bytes} {o : Option ReadOutcome}
    (h : FrameStep self buffer o s b) :
    (∃ n, o = some (.incomplete n) ∧ s = self ∧ b = buffer) ∨ (∃ err, o = some (.fatal err)) ∨
      Progress o ∧ ∃ k, 4 ≤ k ∧ k ≤ buffer.length ∧ b = buffer.drop k := by
  cases h with
  | wait n => exact .inl ⟨n, rfl, rfl, rfl⟩
  | refuse err _ => exact .inr (.inl ⟨err, rfl⟩)
  | error _ _ k _ _ h4 hk => exact .inr (.inr ⟨by simp [Progress], k, h4, hk, rfl⟩)
  | frame header kind i o c b hf hk hi hs =>
    rcases hs.consumes (frontHeader_length hf) with ⟨n, rfl, rfl, rfl⟩ | h | h
    · refine .inl ⟨n, rfl, ?_, rfl⟩
      simp [setChannel]
    · exact .inr (.inl h)
    · exact .inr (.inr h)

/-- What is sent to a peer that violates the protocol is an error. -/
theorem FrameStep.fatal_isError {self s : JulietProtocol N} {buffer b : Bytes}
    {err : OutgoingMessage} (h : FrameStep self buffer (some (.fatal err)) s b) :
    err.header.isError = true := by
  cases h with
  | refuse _ herr => exact herr
  | frame header kind i o c b hf hk hi hs =>
    generalize ho : (some (.fatal err) : Option ReadOutcome) = o at hs
    cases hs with
    | refuse _ k | requestPlRefused _ _ _ k _ _ =>
      cases Outcome.fatal.inj (Option.some.inj ho)
      exact Header.newError_isError _ _ _
    | requestPlNew frame _ _ _ _ _ _ | requestPlMore frame _ _ _ _ | responsePl frame _ _ _ _ =>
      obtain ⟨read, hread⟩ := completedAs_progress _ frame _ ho.symm
      simp at hread
    | _ => simp at ho

end JulietProtocol

end Juliet
