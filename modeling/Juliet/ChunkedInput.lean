import Juliet.ProtocolRuns

namespace Juliet

open Rust Incremental

/-- Why repeated calls of `process_incoming` came to an end. -/
inductive Stopped (N : Nat)
  | fatal (err : OutgoingMessage)
  | waiting (n : NonZeroU32) (protocol : JulietProtocol N) (buffer : Bytes)

namespace JulietProtocol

variable {N : Nat}

/-- Calls `process_incoming` until it returns `Incomplete` or `Fatal`, collecting the reads. -/
def drain : Nat → JulietProtocol N → Bytes → Checked (List CompletedRead × Stopped N)
  | 0, _, _ => .error .diverges
  | fuel + 1, self, buffer => do
    match ← self.processIncoming buffer with
    | (.incomplete n, self, buffer) => return ([], .waiting n self buffer)
    | (.fatal err, _, _) => return ([], .fatal err)
    | (.success read, self, buffer) =>
      let (reads, stopped) ← drain fuel self buffer
      return (read :: reads, stopped)

def receive (self : JulietProtocol N) (buffer : Bytes) : Checked (List CompletedRead × Stopped N) :=
  drain (buffer.length + 1) self buffer

/-- Appends one chunk after the other to the buffer and receives after each. -/
def receiveChunks (self : JulietProtocol N) (buffer chunk : Bytes) :
    List Bytes → Checked (List CompletedRead × Stopped N)
  | [] => self.receive (buffer ++ chunk)
  | next :: chunks => do
    match ← self.receive (buffer ++ chunk) with
    | (reads, .fatal err) => return (reads, .fatal err)
    | (reads, .waiting _ self buffer) =>
      let (more, stopped) ← receiveChunks self buffer next chunks
      return (reads ++ more, stopped)

/-- How a run of single frames ended, forgetting what was left behind by a refused frame. -/
def stoppedAs : NonZeroU32 ⊕ OutgoingMessage → JulietProtocol N → Bytes → Stopped N
  | .inl n, self, buffer => .waiting n self buffer
  | .inr err, _, _ => .fatal err

theorem drain_of_runs {self s : JulietProtocol N} {buffer b : Bytes} {reads : List CompletedRead}
    {stop : NonZeroU32 ⊕ OutgoingMessage} (hv : self.Valid)
    (h : Runs frameAttempt self buffer reads stop s b) (fuel : Nat) (hf : buffer.length < fuel) :
    drain fuel self buffer = .ok (reads, stoppedAs stop s b) := by
  induction h generalizing fuel with
  | incomplete ha =>
    obtain ⟨fuel, rfl⟩ : ∃ k, fuel = k + 1 := ⟨fuel - 1, by omega⟩
    obtain ⟨o, hp, hr⟩ := frameAttempt_ok ha
    have ho := attempt_incomplete hr.symm
    subst ho
    simp only [drain, processIncoming_of_some hp, bind_ok, pure_eq_ok, stoppedAs]
  | fatal ha =>
    obtain ⟨fuel, rfl⟩ : ∃ k, fuel = k + 1 := ⟨fuel - 1, by omega⟩
    obtain ⟨o, hp, hr⟩ := frameAttempt_ok ha
    have ho := attempt_fatal hr.symm
    subst ho
    simp only [drain, processIncoming_of_some hp, bind_ok, pure_eq_ok, stoppedAs]
  | consumed ha _ ih =>
    have hl := frameAttempt_stable.consumes hv ha
    have hs := frameAttempt_stable.keeps hv ha
    obtain ⟨fuel, rfl⟩ : ∃ k, fuel = k + 1 := ⟨fuel - 1, by omega⟩
    obtain ⟨o, hp, hr⟩ := frameAttempt_ok ha
    rcases attempt_consumed hr.symm with ⟨rfl, rfl⟩ | ⟨read, rfl, rfl⟩
    · have hgo := ih hs (fuel + 1) (by omega)
      rw [Option.toList_none, List.nil_append]
      rwa [drain, processIncoming_of_none hv hp, ← drain]
    · simp only [drain, processIncoming_of_some hp, bind_ok, ih hs fuel (by omega), pure_eq_ok,
        Option.toList_some, List.singleton_append]

theorem receive_of_runs {self s : JulietProtocol N} {buffer b : Bytes} {reads : List CompletedRead}
    {stop : NonZeroU32 ⊕ OutgoingMessage} (hv : self.Valid)
    (h : Runs frameAttempt self buffer reads stop s b) :
    self.receive buffer = .ok (reads, stoppedAs stop s b) :=
  drain_of_runs hv h _ (Nat.lt_succ_self _)

theorem receiveChunks_of_valid (chunks : List Bytes) {self : JulietProtocol N} (hv : self.Valid)
    (buffer chunk : Bytes) :
    self.receiveChunks buffer chunk chunks =
      self.receive (buffer ++ (chunk :: chunks).flatten) := by
  induction chunks generalizing self buffer chunk with
  | nil => simp [receiveChunks]
  | cons next chunks ih =>
    obtain ⟨reads, stop, s, b, hr⟩ := frameAttempt_stable.runs_exists hv (buffer ++ chunk)
    have hsplit : buffer ++ (chunk :: next :: chunks).flatten =
        buffer ++ chunk ++ (next :: chunks).flatten := by
      simp
    rw [hsplit, receiveChunks, receive_of_runs hv hr, bind_ok]
    cases stop with
    | inr err => rw [receive_of_runs hv (frameAttempt_stable.runs_append_fatal hv hr)]; rfl
    | inl n =>
      have hs := frameAttempt_stable.runs_keeps hv hr
      obtain ⟨more, stop', s', b', hr'⟩ :=
        frameAttempt_stable.runs_exists hs (b ++ (next :: chunks).flatten)
      simp only [stoppedAs]
      rw [ih hs, receive_of_runs hs hr',
        receive_of_runs hv (frameAttempt_stable.runs_append hv hr hr'), bind_ok,
        pure_eq_ok]

/-- However a byte string is cut, receiving its pieces one after another yields the reads, and stops
for the reason and in the state, that receiving it as a whole does. -/
theorem receiveChunks_eq_receive {p : JulietProtocol N} (h : Reachable p) (buffer chunk : Bytes)
    (chunks : List Bytes) :
    ∃ reads stopped, p.receive (buffer ++ (chunk :: chunks).flatten) = .ok (reads, stopped) ∧
      p.receiveChunks buffer chunk chunks = .ok (reads, stopped) := by
  obtain ⟨reads, stop, s, b, hr⟩ :=
    frameAttempt_stable.runs_exists h.valid (buffer ++ (chunk :: chunks).flatten)
  have he := receive_of_runs h.valid hr
  refine ⟨_, _, he, ?_⟩
  rw [receiveChunks_of_valid chunks h.valid, he]

theorem receiveChunks_eq_receive_small : ∃ reads stopped,
    smallBuilder.build.receive [2, 0, 1, 0, 6, 0, 0, 0, 0, 0, 2, 0] = .ok (reads, stopped) ∧
      smallBuilder.build.receiveChunks [] [2, 0, 1] [[0, 6, 0, 0, 0], [],
        [0, 0, 2, 0]] = .ok (reads, stopped) :=
  receiveChunks_eq_receive (.build smallBuilder) [] [2, 0, 1] [[0, 6, 0, 0, 0], [], [0, 0, 2, 0]]

end JulietProtocol

end Juliet
