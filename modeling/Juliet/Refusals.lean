import Juliet.ProtocolRuns

namespace Juliet

open Rust

/-- The messages that tell a peer about a violation: a header alone, of any error kind but
`Other`. -/
def OutgoingMessage.Plain (msg : OutgoingMessage) : Prop :=
  ∃ kind channel id, kind ≠ .other ∧
    msg = OutgoingMessage.new (Header.newError kind channel id) none

theorem plain_of_errMsg {τ : Type} {header : Header} {kind : ErrorKind} {err : OutgoingMessage}
    (h : (errMsg header kind : Outcome τ OutgoingMessage) = .fatal err) (hk : kind ≠ .other) :
    err.Plain := by
  cases Outcome.fatal.inj h
  exact ⟨kind, _, _, hk, rfl⟩

theorem Outcome.needs_ne_fatal {τ ε : Type} {remaining : Nat} {err : ε} :
    (Outcome.needs remaining : Checked (Outcome τ ε)) ≠ .ok (.fatal err) := by
  unfold Outcome.needs
  split <;> simp

theorem detectStartingSegment_plain {header : Header} {buffer : Bytes} {m : MaxFrameSize}
    {max : Nat} {kind : ErrorKind} {err : OutgoingMessage} (hk : kind ≠ .other)
    (h : detectStartingSegment header buffer m max kind = .ok (.fatal err)) : err.Plain := by
  unfold detectStartingSegment at h
  obtain ⟨segment, _, h⟩ := bind_eq_ok.mp h
  obtain ⟨decoded, _, h⟩ := bind_eq_ok.mp h
  cases decoded with
  | incomplete n => simp at h
  | fatal _ => exact plain_of_errMsg (Except.ok.inj h) (by simp)
  | success parsed =>
    dsimp only at h
    split at h
    next => exact plain_of_errMsg (Except.ok.inj h) hk
    next =>
      obtain ⟨room, _, h⟩ := bind_eq_ok.mp h
      split at h
      next =>
        obtain ⟨missing, _, h⟩ := bind_eq_ok.mp h
        exact absurd h Outcome.needs_ne_fatal
      next => simp at h

theorem extractSegment_ne_fatal {incoming stored stored' rest : Bytes} {total : Nat}
    {m : MaxFrameSize} {err : OutgoingMessage} :
    extractSegment incoming stored total m ≠ .ok (.fatal err, stored', rest) := by
  intro h
  unfold extractSegment at h
  obtain ⟨remaining, _, h⟩ := bind_eq_ok.mp h
  dsimp only at h
  split at h
  next =>
    obtain ⟨missing, _, h⟩ := bind_eq_ok.mp h
    obtain ⟨outcome, hneeds, h⟩ := bind_eq_ok.mp h
    obtain ⟨rfl, _, _⟩ := ok_triple h
    exact Outcome.needs_ne_fatal hneeds
  next =>
    obtain ⟨_, _, h⟩ := bind_eq_ok.mp h
    obtain ⟨_, _, h⟩ := bind_eq_ok.mp h
    obtain ⟨_, _, h⟩ := bind_eq_ok.mp h
    simp at h

theorem MultiframeReceiver.accept_plain {self s : MultiframeReceiver} {header : Header}
    {buffer b : Bytes} {m : MaxFrameSize} {max : Nat} {kind : ErrorKind} {err : OutgoingMessage}
    (hk : kind ≠ .other) (h : self.accept header buffer m max kind = .ok (.fatal err, s, b)) :
    err.Plain := by
  cases self with
  | ready =>
    simp only [accept] at h
    obtain ⟨detected, hd, h⟩ := bind_eq_ok.mp h
    cases detected with
    | incomplete n => simp at h
    | fatal e =>
      cases Outcome.fatal.inj (ok_triple h).1
      exact detectStartingSegment_plain hk hd
    | success d =>
      obtain ⟨_, _, h⟩ := bind_eq_ok.mp h
      obtain ⟨_, _, h⟩ := bind_eq_ok.mp h
      obtain ⟨_, _, h⟩ := bind_eq_ok.mp h
      split at h <;> simp at h
  | inProgress active payload total =>
    simp only [accept] at h
    split at h
    next =>
      obtain ⟨detected, hd, h⟩ := bind_eq_ok.mp h
      cases detected with
      | incomplete n => simp at h
      | fatal e =>
        cases Outcome.fatal.inj (ok_triple h).1
        exact detectStartingSegment_plain hk hd
      | success d =>
        obtain ⟨complete, _, h⟩ := bind_eq_ok.mp h
        split at h
        next =>
          obtain ⟨_, _, h⟩ := bind_eq_ok.mp h
          obtain ⟨_, _, h⟩ := bind_eq_ok.mp h
          simp at h
        next => exact plain_of_errMsg (ok_triple h).1 (by simp)
    next =>
      obtain ⟨⟨outcome, payload', rest⟩, hx, h⟩ := bind_eq_ok.mp h
      cases outcome with
      | incomplete n => simp at h
      | fatal e => exact absurd hx extractSegment_ne_fatal
      | success done => cases done <;> simp at h

namespace Channel

variable {self c : Channel} {header : Header} {buffer b : Bytes} {m : MaxFrameSize}
  {err : OutgoingMessage}

theorem recordRequestPl_plain {frame : CompletedFrame}
    (h : (self.recordRequestPl header frame).1 = some (.fatal err)) :
    err.Plain := by
  unfold recordRequestPl at h
  split at h
  next =>
    split at h
    next => exact plain_of_errMsg (Option.some.inj h) (by simp)
    next =>
      split at h
      next => exact plain_of_errMsg (Option.some.inj h) (by simp)
      next => simp at h
  next => simp at h

theorem recordResponsePl_ne_fatal (frame : CompletedFrame) :
    (self.recordResponsePl header frame).1 ≠ some (.fatal err) := by
  unfold recordResponsePl
  split <;> simp

theorem acceptWith_plain {max : Nat} {exceeded : ErrorKind}
    {record : Channel → CompletedFrame → Option ReadOutcome × Channel} (he : exceeded ≠ .other)
    (hrecord : ∀ chan frame, (record chan frame).1 = some (.fatal err) → err.Plain)
    (h : self.acceptWith m max exceeded record header buffer = .ok (some (.fatal err), c, b)) :
    err.Plain := by
  obtain ⟨⟨outcome, receiver, rest⟩, ha, h⟩ := bind_eq_ok.mp h
  cases outcome with
  | incomplete n => simp at h
  | fatal e =>
    cases Outcome.fatal.inj (Option.some.inj (ok_triple h).1)
    exact MultiframeReceiver.accept_plain he ha
  | success frame => exact hrecord _ frame (ok_triple h).1

/-- The errors that the arms of the frame kinds give rise to. -/
theorem processKind_plain {kind : Kind}
    (h : self.processKind m kind header buffer = .ok (some (.fatal err), c, b)) :
    err.Plain := by
  cases kind with
  | request =>
    simp only [processKind, processRequest] at h
    split at h
    next => exact plain_of_errMsg (Option.some.inj (ok_triple h).1) (by simp)
    next =>
      split at h
      next => exact plain_of_errMsg (Option.some.inj (ok_triple h).1) (by simp)
      next =>
        obtain ⟨_, _, h⟩ := bind_eq_ok.mp h
        simp at h
  | response =>
    simp only [processKind, processResponse] at h
    split at h
    next => exact plain_of_errMsg (Option.some.inj (ok_triple h).1) (by simp)
    next =>
      obtain ⟨_, _, h⟩ := bind_eq_ok.mp h
      simp at h
  | requestPl =>
    simp only [processKind, processRequestPl_eq] at h
    exact acceptWith_plain (by simp) (fun _ _ hr => recordRequestPl_plain hr) h
  | responsePl =>
    simp only [processKind] at h
    by_cases hid : header.id ∈ self.outgoingRequests
    · rw [processResponsePl_eq m hid] at h
      exact acceptWith_plain (by simp)
        (fun _ frame hr => absurd hr (recordResponsePl_ne_fatal frame)) h
    · rw [processResponsePl_unasked m hid] at h
      exact plain_of_errMsg (Option.some.inj (ok_triple h).1) (by simp)
  | cancelReq =>
    simp only [processKind, processCancelReq] at h
    split at h
    next => exact plain_of_errMsg (Option.some.inj (ok_triple h).1) (by simp)
    next =>
      obtain ⟨_, _, h⟩ := bind_eq_ok.mp h
      obtain ⟨_, _, h⟩ := bind_eq_ok.mp h
      split at h <;> simp at h
  | cancelResp =>
    simp only [processKind, processCancelResp] at h
    split at h
    next =>
      obtain ⟨_, _, h⟩ := bind_eq_ok.mp h
      simp at h
    next => exact plain_of_errMsg (Option.some.inj (ok_triple h).1) (by simp)

end Channel

namespace JulietProtocol

variable {N : Nat}

theorem processError_plain {m : MaxFrameSize} {header : Header} {buffer b : Bytes}
    {err : OutgoingMessage} (h : processError m header buffer = .ok (.fatal err, b)) :
    err.Plain := by
  unfold processError at h
  obtain ⟨kind, _, h⟩ := bind_eq_ok.mp h
  split at h
  next =>
    obtain ⟨tail, _, h⟩ := bind_eq_ok.mp h
    obtain ⟨decoded, _, h⟩ := bind_eq_ok.mp h
    cases decoded with
    | incomplete n => simp at h
    | fatal _ => exact plain_of_errMsg (ok_pair h).1 (by simp)
    | success parsed =>
      dsimp only at h
      split at h
      next => exact plain_of_errMsg (ok_pair h).1 (by simp)
      next =>
        split at h
        next =>
          obtain ⟨missing, _, h⟩ := bind_eq_ok.mp h
          obtain ⟨outcome, hneeds, h⟩ := bind_eq_ok.mp h
          obtain ⟨rfl, _⟩ := ok_pair h
          exact absurd hneeds Outcome.needs_ne_fatal
        next =>
          obtain ⟨_, _, h⟩ := bind_eq_ok.mp h
          obtain ⟨_, _, h⟩ := bind_eq_ok.mp h
          simp at h
  next =>
    obtain ⟨_, _, h⟩ := bind_eq_ok.mp h
    simp at h

theorem processFrame_plain {self s : JulietProtocol N} {buffer b : Bytes} {err : OutgoingMessage}
    (h : self.processFrame buffer = .ok (some (.fatal err), s, b)) : err.Plain := by
  unfold processFrame at h
  split at h
  next =>
    split at h
    next =>
      cases Outcome.fatal.inj (Option.some.inj (ok_triple h).1)
      exact ⟨.invalidHeader, _, _, by simp, rfl⟩
    next header _ =>
      unfold processHeader at h
      split at h
      next =>
        obtain ⟨⟨outcome, rest⟩, he, h⟩ := bind_eq_ok.mp h
        cases Option.some.inj (ok_triple h).1
        exact processError_plain he
      next =>
        split at h
        next =>
          obtain ⟨kind, _, h⟩ := bind_eq_ok.mp h
          obtain ⟨⟨outcome, chan, rest⟩, hk, h⟩ := bind_eq_ok.mp h
          obtain ⟨rfl, _, _⟩ := ok_triple h
          exact Channel.processKind_plain hk
        next => exact plain_of_errMsg (Option.some.inj (ok_triple h).1) (by simp)
  next =>
    obtain ⟨missing, _, h⟩ := bind_eq_ok.mp h
    obtain ⟨outcome, hneeds, h⟩ := bind_eq_ok.mp h
    cases Option.some.inj (ok_triple h).1
    exact absurd hneeds Outcome.needs_ne_fatal

/-- Whatever a peer has sent, what it is told about it is a plain error. -/
theorem processIncoming_plain {self s : JulietProtocol N} {buffer b : Bytes} {err : OutgoingMessage}
    (hv : self.Valid) (h : self.processIncoming buffer = .ok (.fatal err, s, b)) : err.Plain := by
  obtain ⟨s₀, b₀, _, hp⟩ := processIncoming_inv hv h
  exact processFrame_plain hp

end JulietProtocol

end Juliet
