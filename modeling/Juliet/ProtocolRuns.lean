import Juliet.LocalCalls

namespace Juliet

open Rust Incremental

/-- The outcome of an iteration as an attempt of an incremental parser. -/
def attempt : Option ReadOutcome → Attempt NonZeroU32 OutgoingMessage CompletedRead
  | none => .consumed none
  | some (.incomplete n) => .incomplete n
  | some (.fatal err) => .fatal err
  | some (.success read) => .consumed (some read)

namespace JulietProtocol

variable {N : Nat}

def frameAttempt (self : JulietProtocol N) (buffer : Bytes) :
    Checked (Attempt NonZeroU32 OutgoingMessage CompletedRead × JulietProtocol N × Bytes) :=
  (self.processFrame buffer).map fun (o, s, b) => (attempt o, s, b)

theorem frameAttempt_ok {self s : JulietProtocol N} {buffer b : Bytes}
    {r : Attempt NonZeroU32 OutgoingMessage CompletedRead}
    (h : self.frameAttempt buffer = .ok (r, s, b)) :
    ∃ o, self.processFrame buffer = .ok (o, s, b) ∧ r = attempt o := by
  unfold frameAttempt at h
  cases hp : self.processFrame buffer with
  | error p => simp [hp, Except.map] at h
  | ok v =>
    obtain ⟨o, s', b'⟩ := v
    simp only [hp, Except.map, Except.ok.injEq, Prod.mk.injEq] at h
    obtain ⟨rfl, rfl, rfl⟩ := h
    exact ⟨o, rfl, rfl⟩

theorem frameAttempt_of {self s : JulietProtocol N} {buffer b : Bytes} {o : Option ReadOutcome}
    (h : self.processFrame buffer = .ok (o, s, b)) :
    self.frameAttempt buffer = .ok (attempt o, s, b) := by
  simp [frameAttempt, h, Except.map]

theorem attempt_incomplete {o : Option ReadOutcome} {n : NonZeroU32}
    (h : attempt o = .incomplete n) :
    o = some (.incomplete n) := by
  match o with
  | none => simp [attempt] at h
  | some (.incomplete k) => simpa [attempt] using h
  | some (.fatal _) => simp [attempt] at h
  | some (.success _) => simp [attempt] at h

theorem attempt_fatal {o : Option ReadOutcome} {err : OutgoingMessage}
    (h : attempt o = .fatal err) :
    o = some (.fatal err) := by
  match o with
  | none => simp [attempt] at h
  | some (.incomplete _) => simp [attempt] at h
  | some (.fatal _) => simpa [attempt] using h
  | some (.success _) => simp [attempt] at h

theorem attempt_consumed {o : Option ReadOutcome} {out : Option CompletedRead}
    (h : attempt o = .consumed out) :
    o = none ∧ out = none ∨ ∃ read, o = some (.success read) ∧ out = some read := by
  match o with
  | none => exact .inl ⟨rfl, by simpa [attempt] using h.symm⟩
  | some (.incomplete _) => simp [attempt] at h
  | some (.fatal _) => simp [attempt] at h
  | some (.success read) => exact .inr ⟨read, rfl, by simpa [attempt] using h.symm⟩

theorem attempt_read (read : Option CompletedRead) :
    attempt (read.map .success) = .consumed read := by
  cases read <;> rfl

/-- The loop body of `process_incoming` decides on a prefix of the buffer. -/
theorem frameAttempt_stable : Stable (frameAttempt (N := N)) JulietProtocol.Valid where
  returns := by
    intro s b hv
    obtain ⟨o, s', b', h, _, _⟩ := processFrame_steps hv b
    exact ⟨_, frameAttempt_of h⟩
  keeps := by
    intro s b r s' b' hv h
    obtain ⟨o, hp, _⟩ := frameAttempt_ok h
    exact hv.frameStep (processFrame_inv hv hp)
  waits := by
    intro s b n s' b' hv h
    obtain ⟨o, hp, hr⟩ := frameAttempt_ok h
    have ho := attempt_incomplete hr.symm
    rcases (processFrame_inv hv hp).consumes with ⟨_, _, hs, hb⟩ | ⟨err, he⟩ | ⟨hgo, _⟩
    · exact ⟨hs, hb⟩
    · simp [ho] at he
    · obtain ⟨read, hread⟩ := hgo _ ho
      simp at hread
  extend := by
    intro s b r s' b' hv h hn rest
    obtain ⟨o, hp, rfl⟩ := frameAttempt_ok h
    obtain ⟨o', s₁, b₁, h₁, _, hx⟩ := processFrame_steps hv b
    have he := Except.ok.inj (hp.symm.trans h₁)
    simp only [Prod.mk.injEq] at he
    obtain ⟨rfl, rfl, rfl⟩ := he
    rcases hx with ⟨n, rfl⟩ | hx
    · exact absurd rfl (hn n)
    · exact frameAttempt_of (hx rest)
  consumes := by
    intro s b out s' b' hv h
    obtain ⟨o, hp, hr⟩ := frameAttempt_ok h
    rcases (processFrame_inv hv hp).consumes with ⟨n, ho, _, _⟩ | ⟨err, ho⟩ | ⟨_, k, h4, hk, hb⟩
    · simp [ho, attempt] at hr
    · simp [ho, attempt] at hr
    · rw [hb, List.length_drop]
      omega

theorem processFrame_keeps {self s : JulietProtocol N} {buffer b : Bytes} {o : Option ReadOutcome}
    (hv : self.Valid) (h : self.processFrame buffer = .ok (o, s, b)) : s.Valid :=
  hv.frameStep (processFrame_inv hv h)

/-- An iteration that goes on to the next one removes the header at least. -/
theorem processFrame_next {self s : JulietProtocol N} {buffer b : Bytes} (hv : self.Valid)
    (h : self.processFrame buffer = .ok (none, s, b)) :
    ∃ k, 4 ≤ k ∧ k ≤ buffer.length ∧ b = buffer.drop k := by
  rcases (processFrame_inv hv h).consumes with ⟨n, ho, _, _⟩ | ⟨err, ho⟩ | ⟨_, hk⟩
  · simp at ho
  · simp at ho
  · exact hk

/-- Any budget above the length of the buffer gives the same result. -/
theorem processLoop_budget {self : JulietProtocol N} (hv : self.Valid) (buffer : Bytes) {fuel : Nat}
    (hf : buffer.length < fuel) : processLoop fuel self buffer = self.processIncoming buffer := by
  induction hn : buffer.length using Nat.strongRecOn generalizing self buffer fuel with
  | ind n ih =>
    obtain ⟨fuel, rfl⟩ : ∃ k, fuel = k + 1 := ⟨fuel - 1, by omega⟩
    obtain ⟨o, s, b, h, _, _⟩ := processFrame_steps hv buffer
    cases o with
    | some outcome => simp only [processIncoming, processLoop, h, bind_ok]
    | none =>
      obtain ⟨k, h4, hk, rfl⟩ := processFrame_next hv h
      have hs := processFrame_keeps hv h
      have hl : (buffer.drop k).length < n := by
        rw [List.length_drop]
        omega
      simp only [processIncoming, processLoop, h, bind_ok]
      rw [ih _ hl hs (buffer.drop k) (by omega) rfl, ih _ hl hs (buffer.drop k) (by omega) rfl]

theorem processIncoming_of_none {self s : JulietProtocol N} {buffer b : Bytes} (hv : self.Valid)
    (h : self.processFrame buffer = .ok (none, s, b)) :
    self.processIncoming buffer = s.processIncoming b := by
  obtain ⟨k, h4, hk, rfl⟩ := processFrame_next hv h
  have hl : (buffer.drop k).length < buffer.length := by
    rw [List.length_drop]
    omega
  rw [← processLoop_budget (processFrame_keeps hv h) _ hl, processIncoming, processLoop, h, bind_ok]

theorem processIncoming_of_some {self s : JulietProtocol N} {buffer b : Bytes} {o : ReadOutcome}
    (h : self.processFrame buffer = .ok (some o, s, b)) :
    self.processIncoming buffer = .ok (o, s, b) := by
  simp only [processIncoming, processLoop, h, bind_ok, pure_eq_ok]

/-- The states in which a call of `process_incoming` begins an iteration of its loop. -/
inductive Iterates (self : JulietProtocol N) (buffer : Bytes) : JulietProtocol N → Bytes → Prop
  | start : Iterates self buffer self buffer
  | next {s s' : JulietProtocol N} {b b' : Bytes} : Iterates self buffer s b →
      s.processFrame b = .ok (none, s', b') → Iterates self buffer s' b'

theorem Iterates.valid {self s : JulietProtocol N} {buffer b : Bytes} (h : Iterates self buffer s b)
    (hv : self.Valid) : s.Valid := by
  induction h with
  | start => exact hv
  | next _ hp ih => exact processFrame_keeps ih hp

/-- A call of `process_incoming` returns, and what it returns comes from its last iteration. -/
theorem processIncoming_spec {self : JulietProtocol N} (hv : self.Valid) (buffer : Bytes) :
    ∃ o s b, self.processIncoming buffer = .ok (o, s, b) ∧
      ∃ s₀ b₀, Iterates self buffer s₀ b₀ ∧ s₀.processFrame b₀ = .ok (some o, s, b) := by
  suffices hgo : ∀ {s₀ : JulietProtocol N} {b₀ : Bytes}, Iterates self buffer s₀ b₀ →
      ∃ o s b, s₀.processIncoming b₀ = .ok (o, s, b) ∧
        ∃ s₁ b₁, Iterates self buffer s₁ b₁ ∧ s₁.processFrame b₁ =
          .ok (some o, s, b) from hgo .start
  intro s₀ b₀ hi
  induction hn : b₀.length using Nat.strongRecOn generalizing s₀ b₀ with
  | ind n ih =>
    have hv₀ := hi.valid hv
    obtain ⟨o, s, b, h, _, _⟩ := processFrame_steps hv₀ b₀
    cases o with
    | some outcome => exact ⟨outcome, s, b, processIncoming_of_some h, s₀, b₀, hi, h⟩
    | none =>
      obtain ⟨k, h4, hk, rfl⟩ := processFrame_next hv₀ h
      rw [processIncoming_of_none hv₀ h]
      exact ih _ (by rw [List.length_drop]; omega) (hi.next h) rfl

/-- What a call of `process_incoming` has done comes from its last iteration. -/
theorem processIncoming_inv {self s : JulietProtocol N} {buffer b : Bytes} {o : ReadOutcome}
    (hv : self.Valid) (h : self.processIncoming buffer = .ok (o, s, b)) :
    ∃ s₀ b₀, Iterates self buffer s₀ b₀ ∧ s₀.processFrame b₀ = .ok (some o, s, b) := by
  obtain ⟨o', s', b', h', s₀, b₀, hi, hp⟩ := processIncoming_spec hv buffer
  obtain ⟨rfl, rfl, rfl⟩ := ok_triple (h.symm.trans h')
  exact ⟨s₀, b₀, hi, hp⟩

theorem Valid.processIncoming {self s : JulietProtocol N} {buffer b : Bytes} {o : ReadOutcome}
    (hv : self.Valid) (h : self.processIncoming buffer = .ok (o, s, b)) : s.Valid := by
  obtain ⟨s₀, b₀, hi, hp⟩ := processIncoming_inv hv h
  exact processFrame_keeps (hi.valid hv) hp

theorem processIncoming_fatal {self s : JulietProtocol N} {buffer b : Bytes} {err : OutgoingMessage}
    (hv : self.Valid) (h : self.processIncoming buffer = .ok (.fatal err, s, b)) :
    err.header.isError = true := by
  obtain ⟨s₀, b₀, hi, hp⟩ := processIncoming_inv hv h
  exact (processFrame_inv (hi.valid hv) hp).fatal_isError

/-- The protocol states that calls of the public functions lead to from a built instance, whatever
bytes are processed and whether or not the calls succeed. -/
inductive Reachable : JulietProtocol N → Prop
  | build (b : ProtocolBuilder N) : Reachable b.build
  | createRequest {p p' : JulietProtocol N} {channel : ChannelId} {payload : Option Bytes}
      {r : Except LocalProtocolViolation OutgoingMessage} : Reachable p →
      p.createRequest channel payload = .ok (r, p') → Reachable p'
  | createResponse {p : JulietProtocol N} (channel : ChannelId) (id : Id)
      (payload : Option Bytes) : Reachable p →
      Reachable (p.createResponse channel id payload).2
  | cancelRequest {p : JulietProtocol N} (channel : ChannelId) (id : Id) : Reachable p →
      Reachable (p.cancelRequest channel id).2
  | cancelResponse {p : JulietProtocol N} (channel : ChannelId) (id : Id) : Reachable p →
      Reachable (p.cancelResponse channel id).2
  | processIncoming {p p' : JulietProtocol N} {buffer buffer' : Bytes}
      {o : ReadOutcome} : Reachable p →
      p.processIncoming buffer = .ok (o, p', buffer') → Reachable p'

theorem Reachable.valid {p : JulietProtocol N} (h : Reachable p) : p.Valid := by
  induction h with
  | build b => exact build_valid b
  | createRequest _ hc ih => exact ih.createRequest hc
  | createResponse channel id payload _ ih => exact ih.createResponse channel id payload
  | cancelRequest channel id _ ih =>
    rw [cancelRequest_state]
    exact ih
  | cancelResponse channel id _ ih => exact ih.cancelResponse channel id
  | processIncoming _ hp ih => exact ih.processIncoming hp

/-- On every reachable state and every buffer `process_incoming` returns, and each iteration of its
loop either returns or takes at least a header off the front of the buffer. -/
theorem processIncoming_total {p : JulietProtocol N} (h : Reachable p) (buffer : Bytes) :
    (∃ o p' b', p.processIncoming buffer = .ok (o, p', b')) ∧
      ∀ {s b}, Iterates p buffer s b → ∃ o s' b', s.processFrame b = .ok (o, s', b') ∧
        (o = none → ∃ k, Header.size ≤ k ∧ k ≤ b.length ∧ b' = b.drop k) := by
  constructor
  · obtain ⟨o, s, b, hr, _⟩ := processIncoming_spec h.valid buffer
    exact ⟨o, s, b, hr⟩
  · intro s b hi
    have hv := hi.valid h.valid
    obtain ⟨o, s', b', hp, _, _⟩ := processFrame_steps hv b
    refine ⟨o, s', b', hp, ?_⟩
    rintro rfl
    exact processFrame_next hv hp

/-- One channel with room for one request in each direction and frames of the least size. -/
def smallBuilder : ProtocolBuilder 1 := ⟨fun _ => ⟨1, 8, 8⟩, .smallest⟩

theorem processIncoming_total_small :
    ∃ o p' b', smallBuilder.build.processIncoming [0, 0, 1, 0, 4] = .ok (o, p', b') :=
  (processIncoming_total (.build smallBuilder) [0, 0, 1, 0, 4]).1

/-- What a peer can make a channel hold, in every reachable state. -/
theorem reachable_bounded {p : JulietProtocol N} (h : Reachable p) (i : Fin N) :
    (p.channels i).incomingRequests.card ≤ (p.channels i).config.requestLimit.toNat ∧
    (p.channels i).outgoingRequests.card ≤ (p.channels i).config.requestLimit.toNat ∧
    (p.channels i).cancellationAllowance ≤ (p.channels i).config.requestLimit.toNat ∧
    ∀ header payload total, (p.channels i).currentMultiframeReceiver =
      .inProgress header payload total →
      header.channel.get.toNat = i ∧ 1 ≤ payload.length ∧ payload.length < total ∧
        (header = Header.new .requestPl header.channel header.id ∧
            total ≤ (p.channels i).config.maxRequestPayloadSize.toNat ∨
          header = Header.new .responsePl header.channel header.id ∧
            total ≤ (p.channels i).config.maxResponsePayloadSize.toNat) := by
  have hv := h.valid i
  exact ⟨hv.incoming_le, hv.outgoing_le, hv.allowance_le, fun _ _ _ hr => hv.transfer hr⟩

/-- A state in which five of the six bytes of a request have been received. -/
theorem reachable_bounded_transferring : ∃ p : JulietProtocol 1, Reachable p ∧
    (p.channels 0).currentMultiframeReceiver = .inProgress (Header.new .requestPl ⟨0⟩ ⟨1⟩) [0, 0,
      0, 0, 0] 6 ∧
    (p.channels 0).incomingRequests.card ≤ (p.channels 0).config.requestLimit.toNat := by
  have h := @Reachable.processIncoming 1 _ _ ((Header.new .requestPl ⟨0⟩ ⟨1⟩).bytes ++ [6, 0, 0,
    0, 0, 0]) _ _
    (.build smallBuilder) rfl
  exact ⟨_, h, rfl, (reachable_bounded h 0).1⟩

end JulietProtocol

end Juliet
