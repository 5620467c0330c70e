import Mathlib.Data.List.Infix
import Juliet.PendingError

namespace Juliet

open Rust

namespace IoCore

variable {N : Nat} {self c : IoCore N}

/-- Parsing that returns nothing leaves no error, or one with no item waiting behind it. -/
theorem ParseStep.emptied {outcome : Option ReadOutcome} (hs : ParseStep self outcome none c)
    (hnone : self.pendingError = none) : c.pendingError = none ∨ ∀ i, c.waitQueue i = [] := by
  cases hs with
  | skip _ => exact .inl hnone
  | incomplete _ _ _ _ => exact .inl hnone
  | fatal _ _ _ _ _ _ _ => exact .inr fun _ => rfl

theorem processWaitQueue_nil {channel : ChannelId} {i : Fin N} (hi : channel.get.toNat = i)
    (hq : self.waitQueue i = []) : self.processWaitQueue channel = .ok (.ok (), self) := by
  simp [processWaitQueue, channelIndex_of hi, hq, waitLoop]

end IoCore

namespace IoTask

variable {N : Nat} {t t' : IoTask N}

/-- How `next_event` may return once an error is to be sent: the peer is gone, the writer has failed
or is too slow, or the whole error frame has been written. -/
inductive ErrorExit (t' : IoTask N) (frame : OutgoingFrame) : IoAct → Exit → Prop
  | hungUp : ErrorExit t' frame .hangUp .closed
  | writeFailed : ErrorExit t' frame .writeFailed (.failed .writeFailed)
  | timeout : ErrorExit t' frame .timeout (.failed .errorWriteTimeout)
  | written (k : Nat) (whole : OutgoingFrame)
      (data : Option Bytes) : t'.begun.getLast? = some whole →
      whole.header = frame.header → whole.bytes <:+ t'.written →
      ErrorExit t' frame (.write k) (.failed (.remoteProtocolViolation frame.header data))

/-- A step does not return ahead of the error. -/
def ErrorFirst (t : IoTask N) (a : IoAct) (t' : IoTask N) : Prop :=
  ∀ frame exit, t.core.pendingError = some frame → (∀ exit, t.position ≠ .done exit) →
    t'.position = .done exit →
    ErrorExit t' frame a exit

/-- Whether handling the first item of the local queue is not a protocol violation of this side. -/
def admissible (t : IoTask N) (item : QueuedItem) (rest : List QueuedItem) : Bool :=
  match (t.dequeued rest).handleIncomingItem item with
  | .ok (.error _, _) => false
  | _ => true

/-- With an error pending, `recv` does not find the local queue empty and `try_recv` does not answer
`Disconnected`, neither yields an item that violates the protocol, and the reader does not fail. -/
def errorNotOvertaken (t : IoTask N) (a : IoAct) : Bool :=
  t.core.pendingError.isNone ||
    match a, t.core.receiver.queue with
    | .recv, [] => false
    | .recv, item :: rest => t.admissible item rest
    | .tryRecv, [] => t.core.receiver.handles
    | .tryRecv, item :: rest => t.admissible item rest
    | .tryRecvClosed, _ => false
    | .readFailed, _ => false
    | _, _ => true

/-- What has been written of the error ends the bytes written. -/
def ErrorPart (t : IoTask N) : Prop :=
  ∀ frame ∈ t.core.pendingError, 0 < frame.position → ∃ whole part, t.begun.getLast? = some whole ∧
    whole.header = frame.header ∧ whole.bytes = part ++ frame.bytes ∧ part <:+ t.written

theorem ErrorPart.begin {pending : OutgoingFrame} (h : ErrorPart t)
    (he : t.core.pendingError = some pending) :
    ∃ whole part, (begin t.begun pending).getLast? = some whole ∧ whole.header = pending.header ∧
      whole.bytes = part ++ pending.bytes ∧ part <:+ t.written := by
  rcases Nat.eq_zero_or_pos pending.position with h0 | h0
  · refine ⟨pending, [], ?_, rfl, rfl, List.nil_suffix⟩
    simp [Juliet.begin, h0]
  · have hne : pending.position ≠ 0 := by omega
    simpa [Juliet.begin, hne] using h pending he h0

theorem ErrorPart.step {a : IoAct} (h : ErrorPart t) (hst : Steady t) (hs : Step t a t') :
    ErrorPart t' := by
  rcases hst.error_cases hs with ⟨hp, hw, hb⟩ | hu | ⟨pending, k, he, h0, he', hw, hb, _⟩
  · rw [ErrorPart, hp, hw, hb]
    exact h
  · intro frame hf hpos
    have := hu frame hf
    omega
  · intro frame hf _
    rw [he'] at hf
    cases Option.some.inj hf
    obtain ⟨whole, part, hl, hhd, hbytes, hsuf⟩ := h.begin he
    rw [hb, hw]
    refine ⟨whole, part ++ pending.bytes.take k, hl, hhd.trans (header_advance _ _).symm, ?_, ?_⟩
    · rw [(hst.sound.pending pending he).1.bytes_advance, List.append_assoc,
        List.take_append_drop, hbytes]
    · exact (List.suffix_append_inj_of_length_eq rfl).mpr ⟨hsuf, rfl⟩

/-- Where an error is pending in the `select!`, nothing waits behind it. -/
def Emptied (t : IoTask N) : Prop :=
  t.position = .select → t.core.pendingError = none ∨ ∀ i, t.core.waitQueue i = []

theorem Emptied.step {a : IoAct} (h : Emptied t) (hs : Step t a t') : Emptied t' := by
  cases hs with
  | enqueue _ _ _ _ _ | dropHandles => exact h
  | event _ _ _ hp _ _ => simp [Emptied, hp]
  | selecting outcome core core' _ hnone hparse hready =>
    intro _
    obtain ⟨hwq, hpe⟩ := hready.keeps
    rw [hwq, hpe]
    exact hparse.emptied hnone
  | writeSome current k hp _ _ _ => exact fun _ => h hp
  | writeAll current core position r _ _ _ _ hpos =>
    subst hpos
    cases r <;> simp [Emptied]
  | writeSomeError pending data k hp _ _ _ => simp [Emptied, hp]
  | read bytes position hp _ _ _ => exact fun _ => h hp
  | _ => simp [Emptied]

/-- With an error pending, the end of the current frame does not end `next_event`. -/
theorem Emptied.sent {frame : OutgoingFrame} {current : CurrentFrame} {core : IoCore N} {k : Nat}
    {r : Except CoreError Unit} (h : Emptied t) (hst : Steady t)
    (he : t.core.pendingError = some frame) (hp : t.position = .select)
    (hc : t.core.currentFrame = some current)
    (hs : (t.currentWritten current k).core.SentStep
      { current with frame := current.frame.advance k } r core) :
    r = .ok () := by
  have hw : ∀ i, t.core.waitQueue i = [] := (h hp).resolve_left (by simp [he])
  cases hs with
  | error active herr =>
    obtain ⟨_, sent, hs, hhd⟩ := hst.sound.current current hc
    have hplain := (hst.sound.made sent (List.mem_of_getElem? hs)).header.1
    rw [header_advance, hhd, hplain] at herr
    simp at herr
  | scanned i c _ _ => rfl
  | violation i c err hi hq =>
    have hnil : ((t.currentWritten current k).core.cleared
        { current with frame := current.frame.advance k } i).waitQueue i =
        [] := hw i
    rw [IoCore.processWaitQueue_nil hi hnil] at hq
    simp at hq

/-- In every run whose steps let the error through, nothing is returned ahead of it. -/
theorem error_precedes_exit {builder : ProtocolBuilder N} {a : IoAct}
    (h : Reach builder errorNotOvertaken t) (hok : errorNotOvertaken t a = true)
    (hstep : t.step a = some t') : ErrorFirst t a t' := by
  have hinv : Steady t ∧ ErrorPart t ∧ Emptied t :=
    Reach.keeps (P := fun t => Steady t ∧ ErrorPart t ∧ Emptied t)
    ⟨Steady.new builder, by simp [ErrorPart, IoTask.new, IoCore.new], by simp [Emptied, IoTask.new]⟩
    (fun hP _ hs => ⟨hP.1.step hs, hP.2.1.step hP.1 hs, hP.2.2.step hs⟩) h
  obtain ⟨hst, hpart, hempty⟩ := hinv
  intro frame exit he hlive hdone
  cases step_steps hstep with
  | enqueue _ _ _ _ _ | dropHandles => exact absurd hdone (hlive exit)
  | panic _ _ | pending _ _ _ _ _ | taken _ _ _ _ _ _ _ _ | readDone _ _ | drained _ _ _ | drop _ =>
    simp at hdone
  | event _ _ _ _ hnone _ | failed _ _ _ _ hnone _ | selecting _ _ _ _ hnone _ _ =>
    simp [hnone] at he
  | writeSome current k hp _ _ _ => exact absurd hdone (hlive exit)
  | writeSomeError pending data k hp _ _ _ => exact absurd hdone (hlive exit)
  | writeAll current core position r hp hc _ hsent hpos =>
    rw [hempty.sent hst he hp hc hsent] at hpos
    subst hpos
    simp at hdone
  | writeAllPanic _ _ _ _ => simp at hdone
  | writeAllError pending data hp he' _ =>
    rw [he'] at he
    cases Option.some.inj he
    cases Position.done.inj hdone
    obtain ⟨whole, part, hl, hhd, hbytes, hsuf⟩ := hpart.begin he'
    refine .written _ whole data hl hhd ?_
    rw [List.take_of_length_le (hst.sound.pending frame he').1.bytes_length.le, hbytes]
    exact (List.suffix_append_inj_of_length_eq rfl).mpr ⟨hsuf, rfl⟩
  | writeFailed _ =>
    cases Position.done.inj hdone
    exact .writeFailed
  | read bytes position _ _ _ hpos =>
    rcases hpos with rfl | rfl <;> simp at hdone
  | readFailed _ => simp [errorNotOvertaken, he] at hok
  | hangUp _ =>
    cases Position.done.inj hdone
    exact .hungUp
  | rejected a item rest core violation ha _ hq hi =>
    rcases ha with rfl | rfl <;> simp [errorNotOvertaken, he, hq, admissible, hi] at hok
  | recvClosed _ hq _ => simp [errorNotOvertaken, he, hq] at hok
  | drainedClosed _ hq hh =>
    rcases hh with ⟨rfl, hh⟩ | ⟨rfl, _⟩
    · simp [errorNotOvertaken, he, hq, hh] at hok
    · simp [errorNotOvertaken, he] at hok
  | timeout data _ =>
    cases Position.done.inj hdone
    exact .timeout

/-- Four bytes that are no header. -/
def invalidInput : List IoAct := [.turn, .read [255, 0, 0, 0], .turn]

/-- Behind a fatal outcome the closed local queue ends `next_event` before the error is written. -/
theorem closed_queue_overtakes_error :
    ∃ t t', run JulietProtocol.smallBuilder anyStep invalidInput = some t ∧
      Reach JulietProtocol.smallBuilder anyStep t ∧ t.core.pendingError ≠ none ∧
      t.step .recv = some t' ∧ t'.position = .done .closed ∧ t'.written = [] ∧
      ¬ ErrorFirst t .recv t' := by
  have hrun : (run JulietProtocol.smallBuilder anyStep invalidInput).map
      (fun t => (t.core.pendingError.isSome, t.position,
        (t.step .recv).map fun t' => (t'.position, t'.written))) =
        some (true, .select, some (.done .closed, [])) := rfl
  obtain ⟨t, ht, he⟩ := Option.map_eq_some_iff.mp hrun
  simp only [Prod.mk.injEq] at he
  obtain ⟨hp, hpos, hnext⟩ := he
  obtain ⟨t', ht', he'⟩ := Option.map_eq_some_iff.mp hnext
  obtain ⟨hpos', hw⟩ := Prod.mk.inj he'
  obtain ⟨frame, hf⟩ := Option.isSome_iff_exists.mp hp
  refine ⟨t, t', ht, Transition.Reach.exec .start ht, by simp [hf], ht', hpos', hw, ?_⟩
  intro h
  cases h frame .closed hf (by simp [hpos]) hpos'

/-- An error that is enqueued is written as a whole before `next_event` returns. -/
theorem error_precedes_exit_enqueued :
    ∃ t t', run JulietProtocol.smallBuilder errorNotOvertaken
        [.enqueue (.error ⟨0⟩ ⟨0⟩ [9]), .turn, .recv, .tryRecv, .turn, .write 2] = some t ∧
      t.step (.write 4) = some t' ∧ ErrorFirst t (.write 4) t' := by
  have hrun : (run JulietProtocol.smallBuilder errorNotOvertaken
      [.enqueue (.error ⟨0⟩ ⟨0⟩ [9]), .turn, .recv, .tryRecv, .turn, .write 2]).map
        (fun t => (errorNotOvertaken t (.write 4), (t.step (.write 4)).isSome)) =
          some (true, true) := rfl
  obtain ⟨t, ht, he⟩ := Option.map_eq_some_iff.mp hrun
  obtain ⟨hok, hnext⟩ := Prod.mk.inj he
  obtain ⟨t', ht'⟩ := Option.isSome_iff_exists.mp hnext
  exact ⟨t, t', ht, ht', error_precedes_exit (Transition.Reach.exec .start ht) hok ht'⟩

end IoTask

end Juliet
