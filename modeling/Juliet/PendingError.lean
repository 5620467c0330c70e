import Juliet.IoSound

namespace Juliet

open Rust

namespace IoCore

variable {N : Nat} {self c : IoCore N}

/-- The pending error has not been written in part. -/
def ErrorUntouched (self : IoCore N) : Prop := ∀ frame ∈ self.pendingError, frame.position = 0

/-- The frame that has been written in part. -/
def opened (self : IoCore N) : Option OutgoingFrame :=
  (self.pendingError.filter fun frame => 0 < frame.position).or
    ((self.currentFrame.map CurrentFrame.frame).filter fun frame => 0 < frame.position)

theorem opened_of_untouched (h : self.ErrorUntouched) :
    self.opened = (self.currentFrame.map CurrentFrame.frame).filter
      fun frame => 0 < frame.position := by
  have hnone : self.pendingError.filter (fun frame => 0 < frame.position) = none := by
    rw [Option.filter_eq_none_iff]
    intro frame hf
    simp [h frame hf]
  rw [opened, hnone, Option.none_or]

theorem opened_of_touched {frame : OutgoingFrame} (he : self.pendingError = some frame)
    (h0 : 0 < frame.position) :
    self.opened = some frame := by
  simp [opened, he, h0]

theorem SendStep.pendingError {item : QueuedItem} {r : Except LocalProtocolViolation Unit}
    (hs : SendStep self item r c) (hne : ∀ channel id payload, item ≠ .error channel id payload) :
    c.pendingError = self.pendingError := by
  cases hs with
  | request | cancel | response | responseCancellation => simp
  | late | refused | oversized => rfl
  | error channel id payload frame _ _ => exact absurd rfl (hne channel id payload)

/-- Items that wait are not errors. -/
theorem SendStep.pendingError_eq {item : QueuedItem} {r : Except LocalProtocolViolation Unit}
    {j : Nat} (hs : SendStep self item r c) (hw : item.waitsOn j) :
    c.pendingError = self.pendingError := by
  refine hs.pendingError ?_
  rintro channel id payload rfl
  exact hw

theorem ScanStep.pendingError {i : Fin N} (hs : ScanStep i self c) (h : self.Sound) :
    c.pendingError = self.pendingError := by
  cases hs with
  | rotate _ _ _ _ _ => rfl
  | lose _ _ _ => rfl
  | promote item rest r c hq _ hs =>
    exact hs.pendingError_eq (h.waiting i item (hq ▸ List.mem_cons_self))

/-- Processing the wait queue injects no error. -/
theorem processWaitQueue_pendingError {channel : ChannelId} {r : Except LocalProtocolViolation Unit}
    (h : self.Sound) (hq : self.processWaitQueue channel = .ok (r, c)) :
    c.pendingError = self.pendingError :=
  h.scansKeep (P := fun c => c.pendingError = self.pendingError) hq rfl
    (fun hb ih hs => (hs.pendingError hb).trans ih)

theorem SendStep.untouched {item : QueuedItem} {r : Except LocalProtocolViolation Unit}
    (hs : SendStep self item r c) (h : self.ErrorUntouched) :
    c.ErrorUntouched ∧ c.currentFrame = self.currentFrame := by
  cases hs with
  | error channel id payload frame hf _ =>
    refine ⟨?_, rfl⟩
    intro f hm
    cases Option.some.inj hm
    exact hf.1
  | late _ _ _ | refused _ _ | oversized _ _ _ _ _ _ _ _ => exact ⟨h, rfl⟩
  | _ => simpa [ErrorUntouched] using h

theorem ScanStep.untouched {i : Fin N} (hs : ScanStep i self c) (h : self.ErrorUntouched) :
    c.ErrorUntouched ∧ c.currentFrame = self.currentFrame := by
  cases hs with
  | promote item rest r c _ _ hs => exact hs.untouched h
  | _ => exact ⟨h, rfl⟩

theorem processWaitQueue_untouched {channel : ChannelId} {r : Except LocalProtocolViolation Unit}
    (hq : self.processWaitQueue channel = .ok (r, c)) (h : self.ErrorUntouched) :
    c.ErrorUntouched ∧ c.currentFrame = self.currentFrame := by
  refine processWaitQueue_keeps
    (P := fun c => c.ErrorUntouched ∧ c.currentFrame = self.currentFrame) hq ⟨h, rfl⟩ ?_
  intro i b c ih hstep
  obtain ⟨hu, hc⟩ := hstep.untouched ih.1
  exact ⟨hu, hc.trans ih.2⟩

theorem ItemStep.untouched {item : QueuedItem} {r : Except LocalProtocolViolation Unit}
    (hs : ItemStep self item r c) (h : self.ErrorUntouched) :
    c.ErrorUntouched ∧ c.currentFrame = self.currentFrame := by
  cases hs with
  | send r c _ hs => exact hs.untouched h
  | _ => exact ⟨h, rfl⟩

theorem handleCompletedRead_frames (self : IoCore N) (read : CompletedRead) :
    (self.handleCompletedRead read).2.pendingError = self.pendingError ∧
      (self.handleCompletedRead read).2.currentFrame = self.currentFrame := by
  rcases self.handleCompletedRead_core read with he | ⟨key, he⟩
  · rw [he]
    exact ⟨rfl, rfl⟩
  · rw [he]
    exact ⟨rfl, rfl⟩

theorem ParseStep.untouched {outcome : Option ReadOutcome}
    {result : Option (Except CoreError IoEvent)} (hs : ParseStep self outcome result c)
    (h : self.ErrorUntouched) :
    c.ErrorUntouched ∧ c.currentFrame = self.currentFrame := by
  have hread : ∀ {c : IoCore N} {read}, c.ErrorUntouched ∧ c.currentFrame = self.currentFrame →
      (c.handleCompletedRead read).2.ErrorUntouched ∧
        (c.handleCompletedRead read).2.currentFrame = self.currentFrame := by
    rintro c read ⟨hu, hc⟩
    obtain ⟨hp, hf⟩ := c.handleCompletedRead_frames read
    refine ⟨?_, hf.trans hc⟩
    rw [ErrorUntouched, hp]
    exact hu
  cases hs with
  | skip _ => exact ⟨h, rfl⟩
  | incomplete n juliet buffer _ => exact ⟨h, rfl⟩
  | fatal errMsg juliet buffer frame _ hf _ =>
    refine ⟨?_, rfl⟩
    intro f hm
    cases Option.some.inj hm
    exact hf.1
  | event read juliet buffer _ _ => exact hread ⟨h, rfl⟩
  | response channel id payload juliet buffer c _ hq =>
    obtain ⟨hu, hc⟩ := processWaitQueue_untouched hq h
    exact hread ⟨hu, hc⟩
  | violation channel id payload juliet buffer err c _ hq =>
    obtain ⟨hu, hc⟩ := processWaitQueue_untouched hq h
    exact ⟨hu, hc⟩

theorem ReadyStep.untouched (hs : ReadyStep self c) (h : self.ErrorUntouched) :
    c.ErrorUntouched ∧ c.opened = self.opened := by
  have hfresh : ∀ {entry : ReadyEntry} {c : IoCore N} {isFinal : Bool}, self.currentFrame = none →
      c.pendingError = self.pendingError →
      c.currentFrame = some ⟨(entry.frames.nextOwned self.juliet.maxFrameSize).1,
        isFinal, entry.serial⟩ →
      c.ErrorUntouched ∧ c.opened = self.opened := by
    intro entry c isFinal hnone hp hc
    have hu : c.ErrorUntouched := by
      rw [ErrorUntouched, hp]
      exact h
    refine ⟨hu, ?_⟩
    rw [opened_of_untouched hu, opened_of_untouched h, hnone, hc]
    simp [FrameIter.nextOwned_position]
  cases hs with
  | busy _ _ => exact ⟨h, rfl⟩
  | empty _ _ => exact ⟨h, rfl⟩
  | more entry rest next hnone _ _ => exact hfresh hnone rfl rfl
  | final entry rest hnone _ _ => exact hfresh hnone rfl rfl

theorem SentStep.untouched {sent : CurrentFrame} {r : Except CoreError Unit}
    (hs : SentStep self sent r c) (h : self.ErrorUntouched) :
    c.ErrorUntouched ∧ c.opened = none := by
  have hclear : ∀ {i c r}, (self.cleared sent i).processWaitQueue sent.frame.header.channel =
      .ok (r, c) →
      c.ErrorUntouched ∧ c.opened = none := by
    intro i c r hq
    have hself : (self.cleared sent i).ErrorUntouched := h
    obtain ⟨hu, hc⟩ := processWaitQueue_untouched hq hself
    refine ⟨hu, ?_⟩
    rw [opened_of_untouched hu, hc]
    rfl
  cases hs with
  | error active _ => exact ⟨h, opened_of_untouched h⟩
  | scanned i c _ hq => exact hclear hq
  | violation i c err _ hq => exact hclear hq

end IoCore

namespace IoTask

variable {N : Nat} {t t' : IoTask N}

/-- Once bytes of an error have been written `next_event` does nothing but write the others. -/
structure Steady (t : IoTask N) : Prop where
  sound : t.core.Sound
  untouched : t.position = .select ∨ t.position = .draining → t.core.ErrorUntouched

namespace Steady

theorem new (builder : ProtocolBuilder N) : Steady (IoTask.new builder) where
  sound := IoCore.new_sound builder
  untouched := by simp [IoTask.new]

theorem item {item : QueuedItem} {rest : List QueuedItem} {core : IoCore N}
    {r : Except LocalProtocolViolation Unit} (h : Steady t)
    (hp : t.position = .select ∨ t.position = .draining)
    (hi : (t.dequeued rest).handleIncomingItem item = .ok (r, core)) :
    core.ErrorUntouched ∧ core.currentFrame = t.core.currentFrame := by
  have hu : (t.dequeued rest).ErrorUntouched := h.untouched hp
  exact (IoCore.handleIncomingItem_steps hi).untouched hu

theorem parse {outcome : Option ReadOutcome} {result : Option (Except CoreError IoEvent)}
    {core : IoCore N} (hnone : t.core.pendingError = none)
    (hs : t.core.ParseStep outcome result core) :
    core.ErrorUntouched ∧ core.opened = t.core.opened := by
  have hu : t.core.ErrorUntouched := by simp [IoCore.ErrorUntouched, hnone]
  obtain ⟨hu', hc⟩ := hs.untouched hu
  refine ⟨hu', ?_⟩
  rw [IoCore.opened_of_untouched hu, IoCore.opened_of_untouched hu', hc]

/-- A step leaves the error and the writer alone, or leaves no error written in part, or goes on
writing one. -/
theorem error_cases {a : IoAct} (h : Steady t) (hs : Step t a t') :
    t'.core.pendingError = t.core.pendingError ∧ t'.written = t.written ∧ t'.begun = t.begun ∨
      t'.core.ErrorUntouched ∨
      ∃ pending k, t.core.pendingError = some pending ∧ 0 < k ∧ t'.core.pendingError =
        some (pending.advance k) ∧
        t'.written = t.written ++ pending.bytes.take k ∧ t'.begun = begin t.begun pending ∧
        t'.position = t.position := by
  cases hs with
  | event outcome event core _ hnone hparse => exact .inr (.inl (parse hnone hparse).1)
  | failed outcome err core _ hnone hparse => exact .inr (.inl (parse hnone hparse).1)
  | selecting outcome core core' _ hnone hparse hready =>
    exact .inr (.inl (hready.untouched (parse hnone hparse).1).1)
  | writeSome current k hp _ _ _ => exact .inr (.inl (h.untouched (.inl hp)))
  | writeAll current core position r hp _ _ hsent _ =>
    have hu : (t.currentWritten current current.frame.remaining).core.ErrorUntouched :=
      h.untouched (.inl hp)
    exact .inr (.inl (hsent.untouched hu).1)
  | writeAllPanic current hp _ _ => exact .inr (.inl (h.untouched (.inl hp)))
  | writeSomeError pending data k _ he h0 _ =>
    exact .inr (.inr ⟨pending, k, he, h0, rfl, rfl, rfl, rfl⟩)
  | writeAllError pending data _ _ _ => exact .inr (.inl (by simp [IoCore.ErrorUntouched]))
  | taken a item rest core _ hp _ hi => exact .inr (.inl (h.item hp hi).1)
  | rejected a item rest core _ _ hp _ hi => exact .inr (.inl (h.item hp hi).1)
  | _ => exact .inl ⟨rfl, rfl, rfl⟩

theorem step {a : IoAct} (h : Steady t) (hs : Step t a t') : Steady t' where
  sound := hs.sound h.sound
  untouched := by
    cases hs with
    | enqueue _ _ _ _ _ | dropHandles => exact h.untouched
    | event outcome event core hp _ _ => simp [hp]
    | selecting outcome core core' _ hnone hparse hready =>
      exact fun _ => (hready.untouched (parse hnone hparse).1).1
    | writeSome current k hp _ _ _ => exact fun _ => h.untouched (.inl hp)
    | writeAll current core position r _ _ _ _ hpos =>
      subst hpos
      split <;> simp
    | writeSomeError pending data k hp _ _ _ => simp [hp]
    | read bytes position hp _ _ _ => exact fun _ => h.untouched (.inl hp)
    | taken a item rest core _ hp _ hi => exact fun _ => (h.item hp hi).1
    | _ => simp

end Steady

end IoTask

end Juliet
