import Mathlib.Data.List.Infix
import Juliet.PendingError

namespace Juliet

open Rust

namespace IoTask

variable {N : Nat} {t t' : IoTask N}

/-- The bytes handed to the writer are whole frames and then a part of one more, and nothing follows
an error. -/
structure FrameAligned (t : IoTask N) : Prop where
  complete : (t.begun.dropLast.map OutgoingFrame.bytes).flatten <+: t.written
  partly : t.written <+: (t.begun.map OutgoingFrame.bytes).flatten
  last_error : ∀ frame ∈ t.begun.dropLast, frame.header.isError = false
  pending_error : ∀ frame ∈ t.core.pendingError, frame.header.isError = true

/-- The first bytes of an error are not written while another frame is written in part. -/
def errorOnBoundary (t : IoTask N) : IoAct → Bool
  | .write _ =>
    match t.position, t.core.pendingError, t.core.currentFrame with
    | .writingError _, some pending, some current =>
      pending.position ≠ 0 ∨ current.frame.position = 0
    | _, _, _ => true
  | _ => true

/-- What carries `FrameAligned` from step to step. -/
structure Aligned (t : IoTask N) : Prop where
  whole : t.written ++ (t.core.opened.map OutgoingFrame.bytes).getD [] =
    (t.begun.map OutgoingFrame.bytes).flatten
  tail : ∀ frame ∈ t.core.opened, ∃ last, t.begun.getLast? = some last ∧ frame.bytes <:+ last.bytes
  alone : ¬ t.core.ErrorUntouched → ∀ current ∈ t.core.currentFrame, current.frame.position = 0
  plain : (∀ exit, t.position ≠ .done exit) → t.core.ErrorUntouched → ∀ frame ∈ t.begun,
    frame.header.isError = false
  plain_init : ∀ frame ∈ t.begun.dropLast, frame.header.isError = false

namespace Aligned

theorem frameAligned (h : Aligned t) (hst : Steady t) : t.FrameAligned where
  complete := by
    have hwhole := h.whole
    rcases List.eq_nil_or_concat t.begun with hb | ⟨front, last, hb⟩
    · simp [hb]
    · cases ho : t.core.opened with
      | none =>
        rw [ho] at hwhole
        simp only [Option.map_none, Option.getD_none, List.append_nil] at hwhole
        rw [hwhole, hb]
        simp
      | some frame =>
        obtain ⟨last', hl, pre, hpre⟩ := h.tail frame ho
        have : last' = last := by simpa [hb] using hl.symm
        subst this
        rw [ho, hb] at hwhole
        simp only [Option.map_some, Option.getD_some, List.map_append, List.map_cons, List.map_nil,
          List.flatten_append, List.flatten_cons, List.flatten_nil, List.append_nil, ← hpre,
          List.concat_eq_append] at hwhole
        rw [← List.append_assoc] at hwhole
        rw [List.append_cancel_right hwhole, hb]
        simp
  partly := ⟨_, h.whole⟩
  last_error := h.plain_init
  pending_error := fun frame hf => (hst.sound.pending frame hf).2

/-- A step that writes nothing. -/
theorem quiet (h : Aligned t) (hw : t'.written = t.written) (hb : t'.begun = t.begun)
    (ho : t'.core.opened = t.core.opened ∨ t'.core.opened = none ∧
      ∀ frame ∈ t.core.opened, frame.bytes = [])
    (hal : ¬ t'.core.ErrorUntouched → ¬ t.core.ErrorUntouched ∧ t'.core.currentFrame =
      t.core.currentFrame)
    (hpl : (∀ exit, t'.position ≠ .done exit) → t'.core.ErrorUntouched →
      (∀ exit, t.position ≠ .done exit) ∧ t.core.ErrorUntouched) : Aligned t' where
  whole := by
    rw [hw, hb, ← h.whole]
    rcases ho with ho | ⟨ho, hnil⟩
    · rw [ho]
    · cases hop : t.core.opened with
      | none => simp [ho]
      | some frame => simp [ho, hnil frame hop]
  tail := by
    rw [hb]
    rcases ho with ho | ⟨ho, _⟩
    · rw [ho]
      exact h.tail
    · simp [ho]
  alone := by
    intro hn
    obtain ⟨hn, hc⟩ := hal hn
    rw [hc]
    exact h.alone hn
  plain := by
    intro hd hu
    rw [hb]
    exact h.plain (hpl hd hu).1 (hpl hd hu).2
  plain_init := by
    rw [hb]
    exact h.plain_init

/-- A step of the core, with no part of an error written. -/
theorem unwritten {core : IoCore N} {position : Position} {outcomes : List ReadOutcome}
    {events : List IoEvent} (h : Aligned t) (hu : t.core.ErrorUntouched)
    (hd : ∀ exit, t.position ≠ .done exit)
    (hc : core.ErrorUntouched ∧ core.opened = t.core.opened) :
    Aligned { t with core, position, outcomes, events } :=
  h.quiet rfl rfl (.inl hc.2) (fun hn => absurd hc.1 hn) (fun _ _ => ⟨hd, hu⟩)

/-- A step that changes nothing but where `next_event` stands. -/
theorem moved {position : Position} (h : Aligned t) (hd : ∀ exit, t.position ≠ .done exit) :
    Aligned { t with position } :=
  h.quiet rfl rfl (.inl rfl) (fun hn => ⟨hn, rfl⟩) (fun _ hu => ⟨hd, hu⟩)

/-- The frames begun once bytes of `frame` are added, which is the open frame or a new one. -/
theorem opening (h : Aligned t) {frame : OutgoingFrame}
    (hnew : frame.position = 0 → t.core.opened = none)
    (hopen : 0 < frame.position → t.core.opened = some frame) :
    t.written ++ frame.bytes = ((begin t.begun frame).map OutgoingFrame.bytes).flatten ∧
      ∃ last, (begin t.begun frame).getLast? = some last ∧ frame.bytes <:+ last.bytes := by
  have hwhole := h.whole
  rcases Nat.eq_zero_or_pos frame.position with h0 | h0
  · rw [hnew h0] at hwhole
    simp only [Option.map_none, Option.getD_none, List.append_nil] at hwhole
    simp [begin, h0, hwhole]
  · rw [hopen h0] at hwhole
    have hne : frame.position ≠ 0 := by omega
    simp only [begin, hne, if_false]
    exact ⟨by simpa using hwhole, h.tail frame (hopen h0)⟩

theorem begin_dropLast {begun : List OutgoingFrame} {frame : OutgoingFrame} :
    (begin begun frame).dropLast = if frame.position = 0 then begun else begun.dropLast := by
  unfold begin
  split <;> simp

theorem opened_current {current : CurrentFrame} (hu : t.core.ErrorUntouched)
    (hc : t.core.currentFrame = some current) :
    (current.frame.position = 0 → t.core.opened = none) ∧
      (0 < current.frame.position → t.core.opened = some current.frame) := by
  rw [IoCore.opened_of_untouched hu, hc]
  constructor
  · intro h0
    simp [h0]
  · intro h0
    simp [h0]

theorem currentWritten {current : CurrentFrame} {k : Nat} (h : Aligned t) (hst : Steady t)
    (hp : t.position = .select) (hc : t.core.currentFrame = some current) (h0 : 0 < k) :
    Aligned (t.currentWritten current k) := by
  have hu := hst.untouched (.inl hp)
  have hwf := (hst.sound.current current hc).1
  have hplain := h.plain (by simp [hp]) hu
  have hcur : current.frame.header.isError = false := by
    obtain ⟨_, sent, hs, hhd⟩ := hst.sound.current current hc
    rw [hhd]
    exact (hst.sound.made sent (List.mem_of_getElem? hs)).header.1
  obtain ⟨hnew, hopen⟩ := opened_current hu hc
  obtain ⟨hflat, last, hlast, hsuf⟩ := h.opening hnew hopen
  have ho : (t.currentWritten current k).core.opened = some (current.frame.advance k) :=
    (opened_current (t := t.currentWritten current k) hu rfl).2 (OutgoingFrame.advance_position h0)
  refine ⟨?_, ?_, fun hn => absurd hu hn, ?_, ?_⟩
  · rw [ho]
    simp only [Option.map_some, Option.getD_some, hwf.bytes_advance]
    simp only [IoTask.currentWritten, List.append_assoc, List.take_append_drop]
    exact hflat
  · intro frame hf
    rw [ho] at hf
    cases Option.some.inj hf
    rw [hwf.bytes_advance]
    exact ⟨last, hlast, (List.drop_suffix k _).trans hsuf⟩
  · intro _ _ frame hf
    simp only [IoTask.currentWritten, begin] at hf
    split at hf
    next =>
      rcases List.mem_append.mp hf with hf | hf
      · exact hplain frame hf
      · rw [List.mem_singleton.mp hf]
        exact hcur
    next => exact hplain frame hf
  · intro frame hf
    simp only [IoTask.currentWritten, begin_dropLast] at hf
    split at hf
    next => exact hplain frame hf
    next => exact h.plain_init frame hf

/-- When bytes of an error are written no other frame is open. -/
theorem opened_pending {pending : OutgoingFrame} {data : Option Bytes} {k : Nat} (h : Aligned t)
    (hok : errorOnBoundary t (.write k) = true) (hp : t.position = .writingError data)
    (he : t.core.pendingError = some pending) :
    (∀ current ∈ t.core.currentFrame, current.frame.position = 0) ∧
      (pending.position = 0 → t.core.opened = none) ∧
      (0 < pending.position → t.core.opened = some pending) := by
  have hcur : ∀ current ∈ t.core.currentFrame, current.frame.position = 0 := by
    rcases Nat.eq_zero_or_pos pending.position with h0 | h0
    · intro current hc
      simpa [errorOnBoundary, hp, he, Option.mem_def.mp hc, h0] using hok
    · refine h.alone ?_
      intro hu
      have := hu pending he
      omega
  have hnone : (t.core.currentFrame.map CurrentFrame.frame).filter
      (fun frame => 0 < frame.position) = none := by
    rw [Option.filter_eq_none_iff]
    intro frame hf
    obtain ⟨current, hc, rfl⟩ := Option.map_eq_some_iff.mp hf
    simp [hcur current hc]
  refine ⟨hcur, ?_, ?_⟩ <;> intro h0
  · simp [IoCore.opened, hnone, he, h0]
  · exact IoCore.opened_of_touched he h0

theorem pendingWritten {pending : OutgoingFrame} {data : Option Bytes} {k : Nat} (h : Aligned t)
    (hst : Steady t) (hok : errorOnBoundary t (.write k) = true)
    (hp : t.position = .writingError data) (he : t.core.pendingError = some pending) (h0 : 0 < k) :
    Aligned { t with
      written := t.written ++ pending.bytes.take k
      begun := begin t.begun pending
      core := { t.core with pendingError := some (pending.advance k) } } := by
  have hwf := (hst.sound.pending pending he).1
  obtain ⟨hcur, hnew, hopen⟩ := h.opened_pending hok hp he
  obtain ⟨hflat, last, hlast, hsuf⟩ := h.opening hnew hopen
  have hpos : 0 < (pending.advance k).position := OutgoingFrame.advance_position h0
  have ho : { t.core with pendingError := some (pending.advance k) }.opened =
      some (pending.advance k) :=
    IoCore.opened_of_touched rfl hpos
  refine ⟨?_, ?_, fun _ => hcur, ?_, ?_⟩
  · rw [ho]
    simp only [Option.map_some, Option.getD_some, hwf.bytes_advance, List.append_assoc,
      List.take_append_drop]
    exact hflat
  · intro frame hf
    rw [ho] at hf
    cases Option.some.inj hf
    rw [hwf.bytes_advance]
    exact ⟨last, hlast, (List.drop_suffix k _).trans hsuf⟩
  · intro _ hu
    have := hu (pending.advance k) rfl
    omega
  · intro frame hf
    simp only [begin_dropLast] at hf
    split at hf
    next hz =>
      refine h.plain (by simp [hp]) ?_ frame hf
      intro f hm
      rw [he] at hm
      cases Option.some.inj hm
      exact hz
    next => exact h.plain_init frame hf

theorem step {a : IoAct} (h : Aligned t) (hst : Steady t) (hok : errorOnBoundary t a = true)
    (hs : Step t a t') :
    Aligned t' := by
  cases hs with
  | enqueue item issued _ _ _ | dropHandles =>
    exact h.quiet rfl rfl (.inl rfl) (fun hn => ⟨hn, rfl⟩) (fun hd hu => ⟨hd, hu⟩)
  | panic a hp => exact h.moved (by rcases hp with hp | hp | hp <;> simp [hp])
  | pending frame data hp _ _ => exact h.moved (by simp [hp])
  | event outcome event core hp hnone hparse | failed outcome err core hp hnone hparse =>
    exact h.unwritten (by simp [IoCore.ErrorUntouched, hnone]) (by simp [hp])
      (Steady.parse hnone hparse)
  | selecting outcome core core' hp hnone hparse hready =>
    obtain ⟨hu, ho⟩ := Steady.parse hnone hparse
    obtain ⟨hu', ho'⟩ := hready.untouched hu
    exact h.unwritten (by simp [IoCore.ErrorUntouched, hnone]) (by simp [hp]) ⟨hu', ho'.trans ho⟩
  | writeSome current k hp hc h0 _ => exact h.currentWritten hst hp hc h0
  | writeAll current core position r hp hc h0 hsent hpos =>
    have hw := h.currentWritten hst hp hc h0
    have hu : (t.currentWritten current current.frame.remaining).core.ErrorUntouched :=
      hst.untouched (.inl hp)
    obtain ⟨hu', ho⟩ := hsent.untouched hu
    refine hw.quiet rfl rfl (.inr ⟨ho, ?_⟩) (fun hn => absurd hu' hn)
      (fun _ _ => ⟨by simp [IoTask.currentWritten, hp], hu⟩)
    intro frame hf
    have hwf := (hst.sound.current current hc).1
    rw [(opened_current (t := t.currentWritten current current.frame.remaining) hu rfl).2
      (OutgoingFrame.advance_position h0)] at hf
    cases Option.some.inj hf
    rw [hwf.bytes_advance, List.drop_of_length_le hwf.bytes_length.le]
  | writeAllPanic current hp hc h0 =>
    have hu : (t.currentWritten current current.frame.remaining).core.ErrorUntouched :=
      hst.untouched (.inl hp)
    exact (h.currentWritten hst hp hc h0).quiet rfl rfl (.inl rfl) (fun hn => absurd hu hn)
      (fun _ _ => ⟨by simp [IoTask.currentWritten, hp], hu⟩)
  | writeSomeError pending data k hp he h0 _ => exact h.pendingWritten hst hok hp he h0
  | writeAllError pending data hp he h0 =>
    have hw := h.pendingWritten hst hok hp he h0
    obtain ⟨hcur, _, _⟩ := h.opened_pending hok hp he
    have hnone : { t.core with pendingError := none }.ErrorUntouched := by
      simp [IoCore.ErrorUntouched]
    refine hw.quiet rfl rfl (.inr ⟨?_, ?_⟩) (fun hn => absurd hnone hn) (by simp)
    · rw [IoCore.opened_of_untouched hnone, Option.filter_eq_none_iff]
      intro frame hf
      obtain ⟨current, hc, rfl⟩ := Option.map_eq_some_iff.mp hf
      simp [hcur current hc]
    · have hwf := (hst.sound.pending pending he).1
      intro frame hf
      have hpos : 0 < (pending.advance pending.remaining).position :=
        OutgoingFrame.advance_position h0
      rw [IoCore.opened_of_touched rfl hpos] at hf
      cases Option.some.inj hf
      rw [hwf.bytes_advance, List.drop_of_length_le hwf.bytes_length.le]
  | read bytes position hp _ _ _ =>
    have hu := hst.untouched (.inl hp)
    exact h.unwritten hu (by simp [hp]) ⟨hu, rfl⟩
  | taken a item rest core _ hp _ hi | rejected a item rest core violation _ hp _ hi =>
    have hu := hst.untouched hp
    obtain ⟨hu', hc⟩ := hst.item hp hi
    refine h.unwritten hu (by rcases hp with hp | hp <;> simp [hp]) ⟨hu', ?_⟩
    rw [IoCore.opened_of_untouched hu, IoCore.opened_of_untouched hu', hc]
  | writeFailed hp | drop hp => exact h.moved (by rcases hp with hp | ⟨data, hp⟩ <;> simp [hp])
  | readDone hp _ | drained hp _ _ | drainedClosed hp _ _ | recvClosed hp _ _ | readFailed hp
  | hangUp hp =>
    exact h.moved (by simp [hp])
  | timeout data hp => exact h.moved (by simp [hp])

theorem new (builder : ProtocolBuilder N) : Aligned (IoTask.new builder) where
  whole := rfl
  tail := by simp [IoTask.new, IoCore.new, IoCore.opened]
  alone := by simp [IoTask.new, IoCore.new]
  plain := by simp [IoTask.new]
  plain_init := by simp [IoTask.new]

end Aligned

/-- In every run in which no error is begun behind a part of a frame, the bytes written are aligned
with the frames. -/
theorem written_frameAligned {builder : ProtocolBuilder N} (h : Reach builder errorOnBoundary t) :
    t.FrameAligned := by
  have hinv : Steady t ∧ Aligned t := Reach.keeps (P := fun t => Steady t ∧ Aligned t)
    ⟨Steady.new builder, Aligned.new builder⟩ (fun hP hok hs => ⟨hP.1.step hs,
      hP.2.step hP.1 hok hs⟩) h
  exact hinv.2.frameAligned hinv.1

/-- A request whose first byte has been written when an error is enqueued. -/
def interruptedRequest : List IoAct :=
  [.enqueue (.request ⟨0⟩ ⟨1⟩ (some [7, 8, 9])), .turn, .recv, .tryRecv, .turn, .write 1,
    .enqueue (.error ⟨0⟩ ⟨0⟩ []), .recv, .tryRecv, .turn, .write 5]

/-- The error frame follows the first byte of the request. -/
theorem error_inside_frame :
    ∃ t, run JulietProtocol.smallBuilder anyStep interruptedRequest = some t ∧
      Reach JulietProtocol.smallBuilder anyStep t ∧ t.written = [2, 128, 0, 0, 0, 0] ∧
      ¬ t.FrameAligned := by
  have hrun : (run JulietProtocol.smallBuilder anyStep interruptedRequest).map
      (fun t => (t.written, t.begun.map OutgoingFrame.bytes)) =
        some ([2, 128, 0, 0, 0, 0], [[2, 0, 1, 0, 3, 7, 8, 9], [128, 0, 0, 0, 0]]) := rfl
  obtain ⟨t, ht, he⟩ := Option.map_eq_some_iff.mp hrun
  obtain ⟨hw, hb⟩ := Prod.mk.inj he
  refine ⟨t, ht, Transition.Reach.exec .start ht, hw, ?_⟩
  intro h
  have hc := h.complete
  rw [hw, List.map_dropLast, hb] at hc
  revert hc
  decide

/-- The same request, written to its end before the error is taken up. -/
theorem written_frameAligned_error_last :
    ∃ t, run JulietProtocol.smallBuilder errorOnBoundary
        (interruptedRequest.take 6 ++ [.write 7, .turn] ++ interruptedRequest.drop 6) = some t ∧
      t.written = [2, 0, 1, 0, 3, 7, 8, 9, 128, 0, 0, 0, 0] ∧ t.FrameAligned := by
  have hrun : (run JulietProtocol.smallBuilder errorOnBoundary
      (interruptedRequest.take 6 ++ [.write 7, .turn] ++ interruptedRequest.drop 6)).map
      IoTask.written =
        some [2, 0, 1, 0, 3, 7, 8, 9, 128, 0, 0, 0, 0] := rfl
  obtain ⟨t, ht, hw⟩ := Option.map_eq_some_iff.mp hrun
  exact ⟨t, ht, hw, written_frameAligned (Transition.Reach.exec .start ht)⟩

end IoTask

end Juliet
