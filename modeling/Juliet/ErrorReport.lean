import Juliet.Answers
import Juliet.CustomErrors
import Juliet.PendingError

namespace Juliet

open Rust

namespace OutgoingFrame

theorem advance_zero (f : OutgoingFrame) : f.advance 0 = f := by
  simp [advance]

theorem WellFormed.advance_add {f : OutgoingFrame} (h : f.WellFormed) (a b : Nat) :
    (f.advance a).advance b = f.advance (a + b) := by
  obtain ⟨_, hp⟩ := h
  unfold OutgoingFrame.advance
  by_cases ha : a ≤ f.preamble.len - f.position
  · simp only [if_pos ha]
    by_cases hb : b ≤ f.preamble.len - (f.position + a)
    · rw [if_pos hb, if_pos (by omega), Nat.add_assoc]
    · rw [if_neg hb, if_neg (by omega)]
      congr 2
      omega
  · simp only [if_neg ha, if_neg (show ¬ a + b ≤ f.preamble.len - f.position by omega),
      Nat.sub_self, Nat.le_zero]
    by_cases hb : b = 0
    · simp [hb]
    · rw [if_neg hb, List.drop_drop]
      congr 2
      omega

/-- What is reported along with an error depends on its header and on what is left of its
payload. -/
theorem errorData_congr {f g : OutgoingFrame} (hh : f.header = g.header)
    (hs : f.segment = g.segment) :
    f.errorData = g.errorData := by
  rw [errorData, errorData, hh, hs]

end OutgoingFrame

namespace IoCore

variable {N : Nat} {self c : IoCore N}

theorem SendStep.maxFrameSize {item : QueuedItem} {r : Except LocalProtocolViolation Unit}
    (hs : SendStep self item r c) :
    c.juliet.maxFrameSize = self.juliet.maxFrameSize := by
  cases hs with
  | request | cancel | response | responseCancellation => simp [JulietProtocol.answered]
  | late | refused | oversized | error => rfl

theorem processWaitQueue_maxFrameSize {channel : ChannelId} {r : Except LocalProtocolViolation Unit}
    (hq : self.processWaitQueue channel = .ok (r, c)) :
    c.juliet.maxFrameSize = self.juliet.maxFrameSize := by
  refine processWaitQueue_keeps
    (P := fun c => c.juliet.maxFrameSize = self.juliet.maxFrameSize) hq rfl ?_
  intro i b c ih hstep
  cases hstep with
  | rotate _ _ _ _ _ => exact ih
  | promote _ _ _ _ _ _ hs => exact hs.maxFrameSize.trans ih
  | lose _ _ _ => exact ih

theorem handleCompletedRead_juliet (self : IoCore N) (read : CompletedRead) :
    (self.handleCompletedRead read).2.juliet = self.juliet := by
  rcases self.handleCompletedRead_core read with he | ⟨key, he⟩ <;> rw [he]

theorem ParseStep.maxFrameSize {outcome : Option ReadOutcome}
    {result : Option (Except CoreError IoEvent)} (hs : ParseStep self outcome result c)
    (h : self.Sound) : c.juliet.maxFrameSize = self.juliet.maxFrameSize := by
  have hparse : ∀ {o juliet buffer}, self.juliet.processIncoming self.buffer =
      .ok (o, juliet, buffer) →
      juliet.maxFrameSize = self.juliet.maxFrameSize :=
    fun hp => (JulietProtocol.processIncoming_settles h.valid hp).maxFrameSize
  cases hs with
  | skip _ => rfl
  | incomplete n juliet buffer hp => exact hparse hp
  | fatal errMsg juliet buffer frame hp _ _ => exact hparse hp
  | event read juliet buffer hp _ =>
    rw [handleCompletedRead_juliet]
    exact hparse hp
  | response channel id payload juliet buffer c hp hq _ =>
    rw [handleCompletedRead_juliet]
    exact (processWaitQueue_maxFrameSize hq).trans (hparse hp)
  | violation channel id payload juliet buffer err c hp hq =>
    exact (processWaitQueue_maxFrameSize hq).trans (hparse hp)

/-- Parsing does not fail with an error that has been sent. -/
theorem ParseStep.not_reported {outcome : Option ReadOutcome}
    {result : Option (Except CoreError IoEvent)} {header : Header} {data : Option Bytes}
    (hs : ParseStep self outcome result c) :
    result ≠ some (.error (.remoteProtocolViolation header data)) := by
  have hread : ∀ (c : IoCore N) (read : CompletedRead),
      (c.handleCompletedRead read).1 ≠ .error (.remoteProtocolViolation header data) := by
    intro c read he
    rcases handleCompletedRead_error he with ⟨header, data, h⟩ | ⟨text, h⟩ <;> simp at h
  cases hs with
  | skip | incomplete | fatal | violation => simp
  | event read juliet buffer _ _ => simpa using hread _ read
  | response channel id payload juliet buffer c _ _ _ => simpa using hread c _

/-- The message that parsing passes to `inject_error`. -/
def fatalOutcome : Option ReadOutcome → Option OutgoingMessage
  | some (.fatal errMsg) => some errMsg
  | _ => none

/-- Parsing sets an error for a fatal outcome only, and then the frame made from it. -/
theorem parseIncoming_injects {outcome : Option ReadOutcome}
    {result : Option (Except CoreError IoEvent)} (h : self.Sound) (hnone : self.pendingError = none)
    (hp : self.parseIncoming = .ok (outcome, result, c)) :
    c.pendingError = (fatalOutcome outcome).map (errorFrame self.juliet.maxFrameSize) := by
  have hstep := parseIncoming_steps hp
  cases hstep with
  | skip _ => exact hnone
  | incomplete _ _ _ _ => exact hnone
  | event read juliet buffer _ _ =>
    exact ((self.parsed juliet buffer).handleCompletedRead_frames read).1.trans hnone
  | response channel id payload juliet buffer c hread hq _ =>
    have hsound := h.parsed (h.valid.processIncoming hread) buffer
    exact (c.handleCompletedRead_frames _).1.trans
      ((processWaitQueue_pendingError hsound hq).trans hnone)
  | violation channel id payload juliet buffer err c hread hq =>
    have hsound := h.parsed (h.valid.processIncoming hread) buffer
    exact (processWaitQueue_pendingError hsound hq).trans hnone
  | fatal errMsg juliet buffer frame hread _ _ =>
    unfold parseIncoming at hp
    split at hp
    next =>
      rw [hread, bind_ok] at hp
      obtain ⟨c', hinject, hp⟩ := bind_eq_ok.mp hp
      obtain ⟨_, _, hc⟩ := ok_triple hp
      rw [← hc, injectError_frame hinject,
        ← (JulietProtocol.processIncoming_settles h.valid hread).maxFrameSize]
      rfl
    next => simp at hp

/-- The message that handling an item passes to `inject_error`. -/
def itemError (juliet : JulietProtocol N) : QueuedItem → Option OutgoingMessage
  | .error channel id payload => (juliet.customError channel id payload).toOption
  | _ => none

theorem handleIncomingItem_injects {item : QueuedItem} {r : Except LocalProtocolViolation Unit}
    (hi : self.handleIncomingItem item = .ok (r, c)) :
    c.pendingError = ((itemError self.juliet item).map (errorFrame self.juliet.maxFrameSize)).or
      self.pendingError ∧
      c.juliet.maxFrameSize = self.juliet.maxFrameSize := by
  cases item with
  | error channel id payload =>
    simp only [handleIncomingItem_error, sendToReadyQueue] at hi
    cases hc : self.juliet.customError channel id payload with
    | error violation =>
      simp only [hc] at hi
      obtain ⟨rfl, rfl⟩ := ok_pair hi
      simp [itemError, hc, Except.toOption]
    | ok errMsg =>
      simp only [hc] at hi
      obtain ⟨c', hinject, hi⟩ := bind_eq_ok.mp hi
      obtain ⟨rfl, rfl⟩ := ok_pair hi
      rw [injectError_frame hinject]
      simp [itemError, hc, Except.toOption, erroring]
  | _ =>
    have hstep := handleIncomingItem_steps hi
    cases hstep with
    | refused | wait => exact ⟨rfl, rfl⟩
    | send r c _ hs => exact ⟨hs.pendingError (by simp), hs.maxFrameSize⟩

end IoCore

namespace IoTask

variable {N : Nat} {t t' : IoTask N}

/-- The message that a step passes to `inject_error`, if it does. -/
def injected (t : IoTask N) : IoAct → Option OutgoingMessage
  | .turn =>
    match t.core.pendingError, t.core.parseIncoming with
    | none, .ok (outcome, _, _) => IoCore.fatalOutcome outcome
    | _, _ => none
  | .recv => t.core.receiver.queue.head?.bind (IoCore.itemError t.core.juliet)
  | .tryRecv => t.core.receiver.queue.head?.bind (IoCore.itemError t.core.juliet)
  | _ => none

theorem turn_injects (h : t.core.Sound) (hnone : t.core.pendingError = none) :
    t.turn.position = .panicked ∨
    t.turn.core.pendingError = (t.injected .turn).map (errorFrame t.core.juliet.maxFrameSize) := by
  unfold turn injected
  rw [hnone]
  cases hp : t.core.parseIncoming with
  | error _ => exact .inl rfl
  | ok v =>
    obtain ⟨outcome, result, core⟩ := v
    have hset := IoCore.parseIncoming_injects h hnone hp
    cases result with
    | some result => cases result <;> exact .inr hset
    | none =>
      cases hr : core.readyIfIdle with
      | error _ =>
        left
        simp [hr]
      | ok core' =>
        right
        simp only [hr]
        exact (IoCore.readyIfIdle_steps hr).keeps.2.trans hset

/-- What `next_event` reports of the error that has been injected last: its header and, where its
kind has a payload, all of the payload that is on the wire. -/
def Reports (m : MaxFrameSize) (t : IoTask N) (last : Option OutgoingMessage) (header : Header)
    (data : Option Bytes) : Prop :=
  ∃ errMsg, last = some errMsg ∧ header = errMsg.header ∧
    (errorFrame m errMsg).bytes <:+ t.written ∧
    (errorFrame m errMsg).errorData = .ok data

/-- The error that is pending is what is left of the one that has been injected last. -/
structure Reporting (m : MaxFrameSize) (t : IoTask N) (last : Option OutgoingMessage) : Prop where
  frameSize : t.core.juliet.maxFrameSize = m
  pending : ∀ frame ∈ t.core.pendingError, ∃ errMsg k, last = some errMsg ∧
    frame = (errorFrame m errMsg).advance k ∧
    (0 < k → t.begun.getLast? = some (errorFrame m errMsg) ∧
      (errorFrame m errMsg).bytes.take k <:+ t.written)
  intact : t.position = .top → ∀ frame ∈ t.core.pendingError, ∀ errMsg ∈ last,
    frame.segment = (errorFrame m errMsg).segment
  data : ∀ data, t.position = .writingError data → ∃ errMsg, last = some errMsg ∧
    (errorFrame m errMsg).errorData = .ok data
  exit : ∀ header data, t.position = .done (.failed (.remoteProtocolViolation header data)) →
    t.Reports m last header data

/-- A call that is dropped has not written any of the payload of an error. -/
def errorPayloadIntact (t : IoTask N) : IoAct → Bool
  | .drop => t.core.pendingError.all fun frame =>
      frame.position == 0 || t.begun.getLast?.any fun whole => whole.segment == frame.segment
  | _ => true

namespace Reporting

variable {m : MaxFrameSize} {last : Option OutgoingMessage}

theorem new (builder : ProtocolBuilder N) :
    Reporting builder.maxFrameSize (IoTask.new builder) none where
  frameSize := rfl
  pending := by simp [IoTask.new, IoCore.new]
  intact := by simp [IoTask.new, IoCore.new]
  data := by simp [IoTask.new]
  exit := by simp [IoTask.new]

/-- An error of which nothing has been written is the whole error. -/
theorem whole {frame : OutgoingFrame} (h : Reporting m t last)
    (hf : t.core.pendingError = some frame) (h0 : frame.position = 0) :
    ∃ errMsg, last = some errMsg ∧ frame = errorFrame m errMsg := by
  obtain ⟨errMsg, k, hlast, rfl, _⟩ := h.pending frame hf
  rcases Nat.eq_zero_or_pos k with rfl | hk
  · exact ⟨errMsg, hlast, OutgoingFrame.advance_zero _⟩
  · have := OutgoingFrame.advance_position (f := errorFrame m errMsg) hk
    omega

/-- A step that leaves the error alone or injects one, while none has been written in part. -/
theorem untouched {i : Option OutgoingMessage} (h : Reporting m t last) (hu : t.core.ErrorUntouched)
    (hm : t'.core.juliet.maxFrameSize = t.core.juliet.maxFrameSize)
    (hp : t'.core.pendingError = (i.map (errorFrame m)).or t.core.pendingError)
    (hdata : ∀ data, t'.position ≠ .writingError data)
    (hexit : ∀ header data, t'.position ≠ .done (.failed (.remoteProtocolViolation header data))) :
    Reporting m t' (i.or last) := by
  have hwhole : ∀ frame ∈ t'.core.pendingError, ∃ errMsg, i.or last = some errMsg ∧
      frame = errorFrame m errMsg := by
    intro frame hf
    rw [hp] at hf
    cases i with
    | some errMsg =>
      cases Option.some.inj hf
      exact ⟨errMsg, rfl, rfl⟩
    | none => exact h.whole hf (hu frame hf)
  refine ⟨hm.trans h.frameSize, ?_, ?_, fun data hd => absurd hd (hdata data),
    fun header data he => absurd he (hexit header data)⟩
  · intro frame hf
    obtain ⟨errMsg, hlast, rfl⟩ := hwhole frame hf
    exact ⟨errMsg, 0, hlast, (OutgoingFrame.advance_zero _).symm, by simp⟩
  · intro _ frame hf errMsg he
    obtain ⟨errMsg', hlast, rfl⟩ := hwhole frame hf
    rw [hlast] at he
    cases Option.some.inj he
    rfl

theorem frameSize_step {a : IoAct} (hst : Steady t) (hs : Step t a t') :
    t'.core.juliet.maxFrameSize = t.core.juliet.maxFrameSize := by
  cases hs with
  | event outcome event core _ _ hparse => exact hparse.maxFrameSize hst.sound
  | failed outcome err core _ _ hparse => exact hparse.maxFrameSize hst.sound
  | selecting outcome core core' _ _ hparse hready =>
    have hkept : core'.juliet = core.juliet := by cases hready <;> rfl
    rw [hkept]
    exact hparse.maxFrameSize hst.sound
  | writeAll current core position r _ _ _ hsent _ =>
    cases hsent with
    | error _ _ => rfl
    | scanned i c _ hq | violation i c err _ hq =>
      have hkept := IoCore.processWaitQueue_maxFrameSize hq
      exact hkept
  | taken a item rest core _ _ _ hi => exact (IoCore.handleIncomingItem_injects hi).2
  | rejected a item rest core _ _ _ _ hi => exact (IoCore.handleIncomingItem_injects hi).2
  | _ => rfl

/-- The last byte of a frame of the queue does not end `next_event` with an error of the peer. -/
theorem sent {current : CurrentFrame} {core : IoCore N} {k : Nat} {r : Except CoreError Unit}
    (hst : Steady t) (hc : t.core.currentFrame = some current)
    (hs : (t.currentWritten current k).core.SentStep
      { current with frame := current.frame.advance k } r core) :
    core.pendingError = t.core.pendingError ∧
      ∀ header data, r ≠ .error (.remoteProtocolViolation header data) := by
  have hsound := sound_currentWritten hst.sound hc k
  cases hs with
  | error active he =>
    rw [header_advance, (hst.sound.current_channel hc).1] at he
    simp at he
  | scanned i c _ hq | violation i c err _ hq =>
    have hkept := IoCore.processWaitQueue_pendingError (hsound.cleared _ i) hq
    exact ⟨hkept, by simp⟩

/-- Bytes of the error are written. -/
theorem wrote {pending : OutgoingFrame} {k : Nat} (h : Reporting m t last)
    (hp : t.core.pendingError = some pending) (hk : 0 < k) :
    ∃ errMsg n, last = some errMsg ∧ 0 < n ∧ pending.advance k = (errorFrame m errMsg).advance n ∧
      (begin t.begun pending).getLast? = some (errorFrame m errMsg) ∧
      (errorFrame m errMsg).bytes.take n <:+ t.written ++ pending.bytes.take k ∧
      pending.bytes = (errorFrame m errMsg).bytes.drop (n - k) ∧ k ≤ n := by
  obtain ⟨errMsg, n, hlast, rfl, hbegun⟩ := h.pending pending hp
  have hwell := (errorFrame_fresh m errMsg).wellFormed
  refine ⟨errMsg, n + k, hlast, by omega, hwell.advance_add n k, ?_, ?_, by rw [hwell.bytes_advance,
    Nat.add_sub_cancel],
    by omega⟩
  · rcases Nat.eq_zero_or_pos n with rfl | hn
    · rw [OutgoingFrame.advance_zero]
      simp [Juliet.begin, (errorFrame_fresh m errMsg).1]
    · have hpos := OutgoingFrame.advance_position (f := errorFrame m errMsg) hn
      rw [Juliet.begin, if_neg (by omega)]
      exact (hbegun hn).1
  · rw [hwell.bytes_advance, List.take_add]
    refine (List.suffix_append_inj_of_length_eq rfl).mpr ⟨?_, rfl⟩
    rcases Nat.eq_zero_or_pos n with rfl | hn
    · exact List.nil_suffix
    · exact (hbegun hn).2

/-- With its last byte the error that was injected last is on the wire, whole. -/
theorem reports {pending : OutgoingFrame} {data : Option Bytes} (h : Reporting m t last)
    (hst : Steady t) (hp : t.position = .writingError data)
    (he : t.core.pendingError = some pending) (hpos : 0 < pending.remaining)
    (hw : t'.written = t.written ++ pending.bytes.take pending.remaining) :
    t'.Reports m last pending.header data := by
  obtain ⟨errMsg, n, hlast, _, hadvance, _, hwritten, hbytes, hle⟩ := h.wrote he hpos
  obtain ⟨errMsg', hlast', hdata⟩ := h.data data hp
  rw [hlast] at hlast'
  cases Option.some.inj hlast'
  have hheader : pending.header = errMsg.header := by
    rw [← header_advance pending pending.remaining, hadvance, header_advance, errorFrame_header]
  refine ⟨errMsg, hlast, hheader, ?_, hdata⟩
  -- what is written ends with the whole frame, as nothing of it is left
  have hlen := (hst.sound.pending pending he).1.bytes_length
  rw [hbytes, List.length_drop] at hlen
  rw [hw]
  rwa [List.take_of_length_le (by omega)] at hwritten

/-- A call that is dropped leaves the payload of the error as it was. -/
theorem resumes (h : Reporting m t last) (hok : errorPayloadIntact t .drop = true)
    {frame : OutgoingFrame} (hf : t.core.pendingError = some frame) {errMsg : OutgoingMessage}
    (he : last = some errMsg) :
    frame.segment = (errorFrame m errMsg).segment := by
  obtain ⟨errMsg', k, hlast, hframe, hbegun⟩ := h.pending frame hf
  rw [he] at hlast
  cases Option.some.inj hlast
  rcases Nat.eq_zero_or_pos k with rfl | hk
  · rw [hframe, OutgoingFrame.advance_zero]
  · have hpos := OutgoingFrame.advance_position (f := errorFrame m errMsg) hk
    rw [← hframe] at hpos
    have hne : frame.position ≠ 0 := by omega
    have hsame : (errorFrame m errMsg).segment = frame.segment := by
      simpa [errorPayloadIntact, hf, hne, (hbegun hk).1] using hok
    exact hsame.symm

theorem step {a : IoAct} (h : Reporting m t last) (hst : Steady t)
    (hok : errorPayloadIntact t a = true) (hstep : t.step a = some t') :
    t'.position = .panicked ∨ Reporting m t' ((t.injected a).or last) := by
  have hs := step_steps hstep
  have hm := frameSize_step hst hs
  -- a turn with no error pending
  have hturn : a = .turn → t.core.pendingError = none → (∀ data, t'.position ≠ .writingError data) →
      (∀ header data, t'.position ≠ .done (.failed (.remoteProtocolViolation header data))) →
      t'.position = .panicked ∨ Reporting m t' ((t.injected a).or last) := by
    rintro rfl hnone hdata hexit
    have he : t.turn = t' := by
      simp only [IoTask.step] at hstep
      split at hstep
      next => exact Option.some.inj hstep
      next => simp at hstep
    refine (turn_injects hst.sound hnone).imp (fun hp => he ▸ hp) ?_
    intro hp
    rw [he, h.frameSize] at hp
    exact h.untouched (by simp [IoCore.ErrorUntouched, hnone]) hm (by rw [hp, hnone,
      Option.or_none]) hdata hexit
  cases hs with
  | panic _ _ => exact .inl rfl
  | writeAllPanic _ _ _ _ _ => exact .inl rfl
  | event outcome event core htop hnone _ => exact hturn rfl hnone (by simp [htop]) (by simp [htop])
  | selecting outcome core core' _ hnone _ _ => exact hturn rfl hnone (by simp) (by simp)
  | failed outcome err core _ hnone hparse =>
    refine hturn rfl hnone (by simp) ?_
    rintro header data ⟨rfl⟩
    exact hparse.not_reported rfl
  | enqueue item issued _ _ _ => exact .inr ⟨h.frameSize, h.pending, h.intact, h.data, h.exit⟩
  | dropHandles => exact .inr ⟨h.frameSize, h.pending, h.intact, h.data, h.exit⟩
  | pending frame data htop hp hd =>
    have hnone : t.injected .turn = none := by simp [injected, hp]
    rw [hnone, Option.none_or]
    refine .inr ⟨h.frameSize, h.pending, by simp, ?_, by simp⟩
    intro data' hdata
    cases Position.writingError.inj hdata
    obtain ⟨errMsg, k, hlast, hframe, _⟩ := h.pending frame hp
    refine ⟨errMsg, hlast, ?_⟩
    rw [← hd]
    refine OutgoingFrame.errorData_congr ?_ (h.intact htop frame hp errMsg hlast).symm
    rw [hframe, header_advance]
  | writeSome current k hp _ _ _ =>
    exact .inr (h.untouched (i := none) (hst.untouched (.inl hp)) hm rfl
      (by simp [currentWritten, hp])
      (by simp [currentWritten, hp]))
  | writeAll current core position r hp hc _ hsent hpos =>
    obtain ⟨hkept, hother⟩ := sent hst hc hsent
    refine .inr (h.untouched (i := none) (hst.untouched (.inl hp)) hm hkept ?_ ?_)
    · subst hpos
      cases r <;> simp
    · subst hpos
      cases r with
      | error err => simpa using hother
      | ok _ => simp
  | writeSomeError pending data k hp he h0 _ =>
    obtain ⟨errMsg, n, hlast, hn, hadvance, hbegun, hwritten, _, _⟩ := h.wrote he h0
    refine .inr ⟨h.frameSize, ?_, by simp [hp], h.data, by simp [hp]⟩
    intro frame hf
    cases Option.some.inj hf
    exact ⟨errMsg, n, hlast, hadvance, fun _ => ⟨hbegun, hwritten⟩⟩
  | writeAllError pending data hp he hpos =>
    refine .inr ⟨h.frameSize, by simp, by simp, by simp, ?_⟩
    intro header data' hexit
    simp only [Position.done.injEq, Exit.failed.injEq,
      CoreError.remoteProtocolViolation.injEq] at hexit
    obtain ⟨rfl, rfl⟩ := hexit
    exact h.reports hst hp he hpos rfl
  | taken a item rest core ha hp hq hi | rejected a item rest core _ ha hp hq hi =>
    have hinject : t.injected a = IoCore.itemError t.core.juliet item := by
      rcases ha with rfl | rfl <;> simp [injected, hq]
    have hset := (IoCore.handleIncomingItem_injects hi).1
    refine .inr (h.untouched (hst.untouched hp) hm ?_ (by simp) (by simp))
    rw [hinject, ← h.frameSize]
    exact hset
  | drop hp =>
    exact .inr ⟨h.frameSize, h.pending, fun _ _ hf _ he => h.resumes hok hf he, by simp, by simp⟩
  | writeFailed _ | readFailed _ | hangUp _ | timeout _ _ => exact .inr ⟨h.frameSize,
    h.pending, by simp, by simp, by simp⟩
  | recvClosed _ hq _ =>
    have hnone : t.injected .recv = none := by simp [injected, hq]
    rw [hnone]
    exact .inr ⟨h.frameSize, h.pending, by simp, by simp, by simp⟩
  | drainedClosed _ hq ha =>
    have hnone : t.injected a = none := by
      rcases ha with ⟨rfl, _⟩ | ⟨rfl, _⟩ <;> simp [injected, hq]
    rw [hnone]
    exact .inr ⟨h.frameSize, h.pending, by simp, by simp, by simp⟩
  | drained hp hq _ =>
    have hnone : t.injected .tryRecv = none := by simp [injected, hq]
    rw [hnone]
    exact .inr (h.untouched (i := none) (hst.untouched (.inr hp)) hm rfl (by simp) (by simp))
  | readDone hp _ =>
    exact .inr (h.untouched (i := none) (hst.untouched (.inl hp)) hm rfl (by simp) (by simp))
  | read bytes position hp _ _ hpos =>
    refine .inr (h.untouched (i := none) (hst.untouched (.inl hp)) hm rfl ?_ ?_)
    · rcases hpos with rfl | rfl <;> simp
    · rcases hpos with rfl | rfl <;> simp

end Reporting

/-- A step together with the error message that has been injected last. -/
def stepInjecting (s : IoTask N × Option OutgoingMessage) (a : IoAct) :
    Option (IoTask N × Option OutgoingMessage) :=
  (s.1.step a).map fun t' => (t', (s.1.injected a).or s.2)

/-- The states of runs whose steps all meet a condition, with the error message injected last. -/
abbrev ReachInjecting (builder : ProtocolBuilder N) (ok : IoTask N → IoAct → Bool) :
    IoTask N × Option OutgoingMessage → Prop :=
  Transition.Reach stepInjecting (fun s a => ok s.1 a) (.new builder, none)

theorem Step.panicked {a : IoAct} (hs : Step t a t') (hp : t.position = .panicked) :
    t'.position = .panicked := by
  cases hs <;> simp_all

theorem ReachInjecting.reporting {builder : ProtocolBuilder N}
    {s : IoTask N × Option OutgoingMessage} (h : ReachInjecting builder errorPayloadIntact s) :
    Steady s.1 ∧ (s.1.position = .panicked ∨ Reporting builder.maxFrameSize s.1 s.2) := by
  refine Transition.Reach.invariant (P := fun s : IoTask N × Option OutgoingMessage =>
    Steady s.1 ∧ (s.1.position = .panicked ∨ Reporting builder.maxFrameSize s.1 s.2)) h
    ⟨Steady.new builder, .inr (.new builder)⟩ ?_
  rintro ⟨t, last⟩ s' a ⟨hst, hinv⟩ hok hstep
  obtain ⟨t', hs, rfl⟩ := Option.map_eq_some_iff.mp hstep
  refine ⟨hst.step (step_steps hs), ?_⟩
  rcases hinv with hp | hinv
  · exact .inl ((step_steps hs).panicked hp)
  · exact hinv.step hst hok hs

/-- In every run in which no call is dropped with a part of the payload of an error written, what is
returned when the error has been sent is the error that was injected. -/
theorem injected_reported {builder : ProtocolBuilder N} {t : IoTask N}
    {last : Option OutgoingMessage} {header : Header} {data : Option Bytes}
    (h : ReachInjecting builder errorPayloadIntact (t, last))
    (hexit : t.position = .done (.failed (.remoteProtocolViolation header data))) :
    ∃ errMsg, last = some errMsg ∧ header = errMsg.header ∧
      (errorFrame builder.maxFrameSize errMsg).bytes <:+ t.written ∧
      (header.isError = true ∧ header.errorKind = .ok .other →
        data = some (errorFrame builder.maxFrameSize errMsg).segment) ∧
      (¬ (header.isError = true ∧ header.errorKind = .ok .other) → data = none) := by
  obtain ⟨_, hinv⟩ := h.reporting
  have hreport := (hinv.resolve_left (by simp [hexit])).exit header data hexit
  obtain ⟨errMsg, hlast, rfl, hwritten, hdata⟩ := hreport
  refine ⟨errMsg, hlast, rfl, hwritten, ?_, ?_⟩
  · rintro ⟨herror, hkind⟩
    simp only [OutgoingFrame.errorData, errorFrame_header, herror, if_true, hkind, bind_ok] at hdata
    exact (Except.ok.inj hdata).symm
  · intro hnot
    unfold OutgoingFrame.errorData at hdata
    rw [errorFrame_header] at hdata
    split at hdata
    next herror =>
      obtain ⟨kind, hkind, hdata⟩ := bind_eq_ok.mp hdata
      split at hdata
      next hother => exact absurd ⟨herror, hother ▸ hkind⟩ hnot
      next => exact (Except.ok.inj hdata).symm
    next => exact (Except.ok.inj hdata).symm

/-- An error with a payload of three bytes, and its frame being written. -/
def injectedError : List IoAct :=
  [.enqueue (.error ⟨0⟩ ⟨0⟩ [7, 8, 9]), .turn, .recv, .tryRecv, .turn]

/-- Dropped once in the length of the payload, the call that goes on reports the whole payload. -/
theorem injected_reported_resumed : ∃ t last,
    ReachInjecting JulietProtocol.smallBuilder errorPayloadIntact (t, last) ∧
      t.position = .done
        (.failed (.remoteProtocolViolation (Header.newError .other ⟨0⟩ ⟨0⟩) (some [7, 8, 9]))) ∧
      ∃ errMsg, last = some errMsg ∧ (errorFrame .smallest errMsg).segment = [7, 8, 9] := by
  have hrun : (Transition.exec stepInjecting (fun s a => errorPayloadIntact s.1 a)
      (injectedError ++ [.write 5, .drop, .turn, .write 3])
      (.new JulietProtocol.smallBuilder, none)).map
        (fun s => s.1.position) =
      some (.done (.failed (.remoteProtocolViolation (Header.newError .other ⟨0⟩ ⟨0⟩)
        (some [7, 8, 9])))) := rfl
  obtain ⟨⟨t, last⟩, hs, hpos⟩ := Option.map_eq_some_iff.mp hrun
  have hreach : ReachInjecting JulietProtocol.smallBuilder errorPayloadIntact (t, last) :=
    Transition.Reach.exec .start hs
  obtain ⟨errMsg, hlast, _, _, hdata, _⟩ := injected_reported hreach hpos
  exact ⟨t, last, hreach, hpos, errMsg, hlast, (Option.some.inj (hdata ⟨rfl, rfl⟩)).symm⟩

/-- Dropped behind the first byte of the payload, the call that goes on reports the rest of the
payload only. -/
theorem resumed_error_truncated : ∃ t errMsg,
    ReachInjecting JulietProtocol.smallBuilder anyStep (t, some errMsg) ∧
      t.position =
        .done (.failed (.remoteProtocolViolation (Header.newError .other ⟨0⟩ ⟨0⟩) (some [8, 9]))) ∧
      (errorFrame .smallest errMsg).segment = [7, 8, 9] ∧
      t.written = (errorFrame .smallest errMsg).bytes := by
  have hrun : (Transition.exec stepInjecting (fun s a => anyStep s.1 a)
      (injectedError ++ [.write 6, .drop, .turn, .write 2])
      (.new JulietProtocol.smallBuilder, none)).map
        (fun s => (s.1.position, s.1.written, s.2)) =
      some (.done
        (.failed (.remoteProtocolViolation (Header.newError .other ⟨0⟩ ⟨0⟩) (some [8, 9]))),
        (Header.newError .other ⟨0⟩ ⟨0⟩).bytes ++ [3, 7, 8, 9],
        some (OutgoingMessage.new (Header.newError .other ⟨0⟩ ⟨0⟩) (some [7, 8, 9]))) := rfl
  obtain ⟨⟨t, last⟩, hs, he⟩ := Option.map_eq_some_iff.mp hrun
  simp only [Prod.mk.injEq] at he
  obtain ⟨hpos, hwritten, rfl⟩ := he
  exact ⟨t, _, Transition.Reach.exec .start hs, hpos, rfl, hwritten.trans rfl⟩

end IoTask

end Juliet
