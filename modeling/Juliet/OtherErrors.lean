import Juliet.ErrorReport
import Juliet.Isolation
import Juliet.Refusals

namespace Juliet

open Rust

/-- What `as_remote_other_err` and `as_local_other_err` do with the header and the data of an
error. -/
def asOtherErr (header : Header) (data : Option Bytes) : Checked (Option (Header × Bytes)) :=
  if header.isError then do
    if (← header.errorKind) = .other then
      debugAssert (data.isSome = true)
      return data.map fun data => (header, data)
    else return none
  else .ok none

namespace CoreError

def asRemoteOtherErr : CoreError → Checked (Option (Header × Bytes))
  | .remoteReportedError header data => asOtherErr header data
  | _ => .ok none

def asLocalOtherErr : CoreError → Checked (Option (Header × Bytes))
  | .remoteProtocolViolation header data => asOtherErr header data
  | _ => .ok none

end CoreError

/-- The header is that of an error, and there is data with it if and only if its kind is `Other`. -/
def Header.Carries (header : Header) (data : Option Bytes) : Prop :=
  header.isError = true ∧ ∃ kind, header.errorKind = .ok kind ∧ (kind = .other ↔ data.isSome = true)

theorem asOtherErr_of {header : Header} {data : Option Bytes} (h : header.Carries data) :
    asOtherErr header data = .ok (data.map fun data => (header, data)) := by
  obtain ⟨herror, kind, hkind, hdata⟩ := h
  simp only [asOtherErr, herror, if_true, hkind, bind_ok]
  by_cases hother : kind = .other
  · rw [if_pos hother, debugAssert_of (hdata.mp hother)]
    rfl
  · have hnone : data = none := by simpa [hother] using hdata
    rw [if_neg hother, hnone]
    rfl

theorem ChannelStep.not_error {header header' : Header} {buffer b : Bytes} {self c : Channel}
    {kind : Kind} {o : Option ReadOutcome} {data : Option Bytes}
    (h : ChannelStep header buffer self kind o c b) :
    o ≠ some (.success (.errorReceived header' data)) := by
  cases h <;> simp [completedAs, errMsg]

namespace JulietProtocol

variable {N : Nat}

theorem processError_carries {m : MaxFrameSize} {header header' : Header} {buffer b : Bytes}
    {data : Option Bytes} (herror : header.isError = true)
    (h : processError m header buffer = .ok (.success (.errorReceived header' data), b)) :
    header'.Carries data := by
  unfold processError at h
  obtain ⟨kind, hkind, h⟩ := bind_eq_ok.mp h
  split at h
  next =>
    obtain ⟨_, _, h⟩ := bind_eq_ok.mp h
    obtain ⟨parsed, _, h⟩ := bind_eq_ok.mp h
    split at h
    next => simp [pure_eq_ok] at h
    next => simp [pure_eq_ok, errMsg] at h
    next =>
      dsimp only at h
      split at h
      next => simp [pure_eq_ok, errMsg] at h
      next =>
        split at h
        next =>
          obtain ⟨_, _, h⟩ := bind_eq_ok.mp h
          obtain ⟨needed, hneeds, h⟩ := bind_eq_ok.mp h
          obtain ⟨rfl, _⟩ := ok_pair h
          unfold Outcome.needs at hneeds
          split at hneeds <;> simp at hneeds
        next =>
          obtain ⟨_, _, h⟩ := bind_eq_ok.mp h
          obtain ⟨_, _, h⟩ := bind_eq_ok.mp h
          obtain ⟨he, _⟩ := ok_pair h
          injection he with he
          injection he with hheader hdata
          subst hheader hdata
          exact ⟨herror, .other, hkind, by simp⟩
  next hother =>
    obtain ⟨_, _, h⟩ := bind_eq_ok.mp h
    obtain ⟨he, _⟩ := ok_pair h
    injection he with he
    injection he with hheader hdata
    subst hheader hdata
    exact ⟨herror, kind, hkind, by simpa using hother⟩

/-- Whatever a peer has sent, an error that is read has data if and only if its kind is `Other`. -/
theorem processIncoming_carries {self s : JulietProtocol N} {buffer b : Bytes} {header : Header}
    {data : Option Bytes} (hv : self.Valid)
    (h : self.processIncoming buffer = .ok (.success (.errorReceived header data), s, b)) :
    header.Carries data := by
  obtain ⟨s₀, b₀, hi, hp⟩ := processIncoming_inv hv h
  generalize ho : some (Outcome.success (CompletedRead.errorReceived header data)) = o at hp
  have hstep := processFrame_inv (hi.valid hv) hp
  cases hstep with
  | wait n => simp at ho
  | refuse err _ => simp at ho
  | error header' data' k hfront herror _ _ =>
    rw [processFrame_of_frontHeader hfront, processHeader, if_pos herror] at hp
    obtain ⟨⟨outcome, b'⟩, hprocess, hp⟩ := bind_eq_ok.mp hp
    obtain ⟨hout, _, _⟩ := ok_triple hp
    cases Option.some.inj hout
    cases Outcome.success.inj (Option.some.inj ho)
    exact processError_carries herror hprocess
  | frame header' kind i o c b' _ _ _ hstep =>
    exact absurd ho.symm hstep.not_error

end JulietProtocol

/-- The error with this header that is to be sent, if it is of the kind `Other`, has been enqueued,
with a payload that ends in this one. -/
def Header.Custom (as : List IoAct) (header : Header) (payload : Bytes) : Prop :=
  header.isError = true ∧ ∃ kind, header.errorKind = .ok kind ∧
    (kind = .other → ∃ whole, IoAct.enqueue (.error header.channel header.id whole) ∈ as ∧
      payload <:+ whole)

/-- The data that is reported with an error that has been sent is there if and only if its kind is
`Other`, and is of an error that has been enqueued. -/
def Header.Sent (as : List IoAct) (header : Header) (data : Option Bytes) : Prop :=
  header.Carries data ∧ ∀ payload ∈ data, header.Custom as payload

theorem Header.Custom.mono {as as' : List IoAct} {header : Header} {payload payload' : Bytes}
    (h : header.Custom as payload) (has : as ⊆ as') (hp : payload' <:+ payload) :
    header.Custom as' payload' := by
  obtain ⟨herror, kind, hkind, hother⟩ := h
  refine ⟨herror, kind, hkind, ?_⟩
  intro hk
  obtain ⟨whole, hin, hsuffix⟩ := hother hk
  exact ⟨whole, has hin, hp.trans hsuffix⟩

theorem Header.Sent.mono {as as' : List IoAct} {header : Header} {data : Option Bytes}
    (h : header.Sent as data) (has : as ⊆ as') : header.Sent as' data :=
  ⟨h.1, fun payload hp => (h.2 payload hp).mono has (List.suffix_refl _)⟩

theorem OutgoingFrame.advance_suffix (f : OutgoingFrame) (k : Nat) :
    (f.advance k).payload <:+ f.payload := by
  unfold advance
  split
  next => exact List.suffix_refl _
  next => exact List.drop_suffix _ _

/-- What is reported with an error that is pending. -/
theorem Header.Custom.sent {as : List IoAct} {frame : OutgoingFrame} {data : Option Bytes}
    (h : frame.header.Custom as frame.payload) (hdata : frame.errorData = .ok data) :
    frame.header.Sent as data := by
  have hcustom := h
  obtain ⟨herror, kind, hkind, _⟩ := h
  simp only [OutgoingFrame.errorData, herror, if_true, hkind, bind_ok] at hdata
  split at hdata
  next hother =>
    cases Except.ok.inj hdata
    refine ⟨⟨herror, kind, hkind, by simp [hother]⟩, ?_⟩
    intro payload hp
    cases Option.some.inj hp
    exact hcustom
  next hother =>
    cases Except.ok.inj hdata
    exact ⟨⟨herror, kind, hkind, by simp [hother]⟩, by simp⟩

namespace IoCore

variable {N : Nat} {self c : IoCore N}

theorem SendStep.queue {item : QueuedItem} {r : Except LocalProtocolViolation Unit}
    (hs : SendStep self item r c) :
    c.receiver.queue = self.receiver.queue := by
  cases hs with
  | request | cancel | response | responseCancellation => simp
  | late | refused | oversized | error => rfl

theorem processWaitQueue_queue {channel : ChannelId} {r : Except LocalProtocolViolation Unit}
    (hq : self.processWaitQueue channel = .ok (r, c)) : c.receiver.queue = self.receiver.queue := by
  refine processWaitQueue_keeps (P := fun c => c.receiver.queue = self.receiver.queue) hq rfl ?_
  intro i b c hb hstep
  cases hstep with
  | rotate | lose => exact hb
  | promote item rest r c _ _ hs => exact hs.queue.trans hb

theorem ItemStep.queue {item : QueuedItem} {r : Except LocalProtocolViolation Unit}
    (hs : ItemStep self item r c) :
    c.receiver.queue = self.receiver.queue := by
  cases hs with
  | refused | wait => rfl
  | send r c _ hs => exact hs.queue

/-- What parsing does to the local queue and to the error that is pending, and what it reports of an
error that is read. -/
theorem ParseStep.told {outcome : Option ReadOutcome} {result : Option (Except CoreError IoEvent)}
    (hsound : self.Sound) (hnone : self.pendingError = none)
    (hs : ParseStep self outcome result c) :
    c.receiver.queue = self.receiver.queue ∧ (∀ frame ∈ c.pendingError, ∃ kind, kind ≠ .other ∧
      frame.header = Header.newError kind frame.header.channel frame.header.id) ∧
    ∀ header data, outcome = some (.success (.errorReceived header data)) ↔
      result = some (.error (.remoteReportedError header data)) := by
  have hqueue : ∀ (core : IoCore N) (read : CompletedRead),
      (core.handleCompletedRead read).2.receiver.queue =
      core.receiver.queue := by
    intro core read
    rcases core.handleCompletedRead_core read with he | ⟨key, he⟩ <;> rw [he]
  cases hs with
  | skip _ => exact ⟨rfl, by simp [hnone], by simp⟩
  | incomplete _ _ _ _ => exact ⟨rfl, by simp [parsed, hnone], by simp⟩
  | fatal errMsg juliet buffer frame hread _ hheader =>
    refine ⟨rfl, ?_, by simp⟩
    intro frame' hf
    cases Option.some.inj hf
    obtain ⟨kind, channel, id, hk, rfl⟩ := JulietProtocol.processIncoming_plain hsound.valid hread
    refine ⟨kind, hk, ?_⟩
    rw [hheader]
    simp [OutgoingMessage.new]
  | event read juliet buffer _ hresp =>
    refine ⟨hqueue _ read, ?_, ?_⟩
    · rw [(handleCompletedRead_frames _ read).1]
      simp [parsed, hnone]
    · intro header data
      cases read with
      | receivedResponse channel id payload => exact absurd rfl (hresp channel id payload)
      | errorReceived header' data' => simp [handleCompletedRead]
      | responseCancellation channel id =>
        simp only [handleCompletedRead]
        split <;> simp
      | _ => simp [handleCompletedRead]
  | response channel id payload juliet buffer c hread hq _ =>
    have hsound' := hsound.parsed (hsound.valid.processIncoming hread) buffer
    have hscan := processWaitQueue_queue hq
    refine ⟨(hqueue c _).trans hscan, ?_, ?_⟩
    · rw [(handleCompletedRead_frames _ _).1, processWaitQueue_pendingError hsound' hq]
      simp [parsed, hnone]
    · intro header data
      simp only [handleCompletedRead]
      split <;> simp
  | violation channel id payload juliet buffer err c hread hq =>
    have hsound' := hsound.parsed (hsound.valid.processIncoming hread) buffer
    have hscan := processWaitQueue_queue hq
    refine ⟨hscan, ?_, by simp⟩
    rw [processWaitQueue_pendingError hsound' hq]
    simp [parsed, hnone]

end IoCore

namespace IoTask

variable {N : Nat} {t t' : IoTask N} {as : List IoAct}

/-- Where errors come from: those of the kind `Other` that are to be sent have been enqueued, and
one that is read ends the task. -/
structure Told (as : List IoAct) (t : IoTask N) : Prop where
  sound : t.core.Sound
  queued : ∀ item ∈ t.core.receiver.queue, .enqueue item ∈ as
  pending : ∀ frame ∈ t.core.pendingError, frame.header.Custom as frame.payload
  writing : ∀ data, t.position = .writingError data → ∃ frame ∈ t.core.pendingError,
    frame.header.Sent as data
  violation : ∀ header data, t.position = .done (.failed (.remoteProtocolViolation header data)) →
    header.Sent as data
  reported : ∀ header data, t.position = .done (.failed (.remoteReportedError header data)) →
    header.Carries data
  read : ∀ header data, .success (.errorReceived header data) ∈ t.outcomes ↔
    t.position = .done (.failed (.remoteReportedError header data))

namespace Told

theorem new (builder : ProtocolBuilder N) : Told [] (IoTask.new builder) where
  sound := IoCore.new_sound builder
  queued := by simp [IoTask.new, IoCore.new]
  pending := by simp [IoTask.new, IoCore.new]
  writing := by simp [IoTask.new]
  violation := by simp [IoTask.new]
  reported := by simp [IoTask.new]
  read := by simp [IoTask.new]

theorem mono {as' : List IoAct} (h : Told as t) (has : as ⊆ as') : Told as' t where
  sound := h.sound
  queued item hin := has (h.queued item hin)
  pending frame hf := (h.pending frame hf).mono has (List.suffix_refl _)
  writing data hp := by
    obtain ⟨frame, hf, hsent⟩ := h.writing data hp
    exact ⟨frame, hf, hsent.mono has⟩
  violation header data hp := (h.violation header data hp).mono has
  reported := h.reported
  read := h.read

/-- A step from one place of `next_event` to another. -/
theorem move {outcome : Option ReadOutcome} (h : Told as t) (hsound : t'.core.Sound)
    (ho : t'.outcomes = t.outcomes ++ outcome.toList)
    (hqueue : ∀ item ∈ t'.core.receiver.queue, item ∈ t.core.receiver.queue)
    (hpending : ∀ frame ∈ t'.core.pendingError, frame.header.Custom as frame.payload)
    (hwas : ∀ exit, t.position ≠ .done exit) (hwriting : ∀ data, t'.position ≠ .writingError data)
    (hviolation : ∀ header data,
      t'.position ≠ .done (.failed (.remoteProtocolViolation header data)))
    (hread : ∀ header data, outcome = some (.success (.errorReceived header data)) ↔
      t'.position = .done (.failed (.remoteReportedError header data)))
    (hcarries : ∀ header data, outcome = some (.success (.errorReceived header data)) →
      header.Carries data) :
    Told as t' where
  sound := hsound
  queued item hin := h.queued item (hqueue item hin)
  pending := hpending
  writing data hp := absurd hp (hwriting data)
  violation header data hp := absurd hp (hviolation header data)
  reported header data hp := hcarries header data ((hread header data).mpr hp)
  read header data := by
    have hbefore := h.read header data
    rw [ho, List.mem_append, Option.mem_toList, hbefore, hread]
    exact ⟨fun hp => hp.resolve_left (hwas _), .inr⟩

/-- What is read, if anything. -/
theorem parse {outcome : Option ReadOutcome} {result : Option (Except CoreError IoEvent)}
    {core : IoCore N} (h : Told as t) (htop : t.position = .top)
    (hnone : t.core.pendingError = none) (hparse : t.core.ParseStep outcome result core)
    (hsound : t'.core.Sound) (ho : t'.outcomes = t.outcomes ++ outcome.toList)
    (hqueue : t'.core.receiver = core.receiver)
    (hpending : t'.core.pendingError = core.pendingError)
    (hposition : (∃ err, result = some (.error err) ∧ t'.position = .done (.failed err)) ∨
      (∀ err, result ≠ some (.error err)) ∧ (t'.position = .top ∨ t'.position = .select)) :
    Told as t' := by
  obtain ⟨hsame, hplain, hread⟩ := hparse.told h.sound hnone
  have hviolation : ∀ header data, result ≠ some (.error (.remoteProtocolViolation header data)) :=
    fun _ _ => hparse.not_reported
  refine h.move hsound ho ?_ ?_ (by simp [htop]) ?_ ?_ ?_ ?_
  · rw [hqueue, hsame]
    exact fun _ hin => hin
  · rw [hpending]
    intro frame hf
    obtain ⟨kind, hk, hheader⟩ := hplain frame hf
    rw [hheader]
    exact ⟨Header.newError_isError _ _ _, kind, Header.newError_errorKind _ _ _,
      fun hother => absurd hother hk⟩
  · intro data
    rcases hposition with ⟨err, _, hp⟩ | ⟨_, hp | hp⟩ <;> simp [hp]
  · intro header data hexit
    rcases hposition with ⟨err, hr, hp⟩ | ⟨_, hp | hp⟩
    · rw [hp] at hexit
      injection hexit with hexit
      injection hexit with hexit
      exact hviolation header data (by rw [hr, hexit])
    all_goals simp [hp] at hexit
  · intro header data
    rw [hread]
    rcases hposition with ⟨err, hr, hp⟩ | ⟨hr, hp | hp⟩
    · simp [hr, hp]
    all_goals simp [hr, hp]
  · intro header data he
    cases hparse with
    | event read juliet buffer hin _ =>
      cases Outcome.success.inj (Option.some.inj he)
      exact JulietProtocol.processIncoming_carries h.sound.valid hin
    | _ => simp at he

/-- An item is taken from the local queue. -/
theorem item {item : QueuedItem} {rest : List QueuedItem} {core : IoCore N}
    {r : Except LocalProtocolViolation Unit} (h : Told as t)
    (hq : t.core.receiver.queue = item :: rest)
    (hi : (t.dequeued rest).handleIncomingItem item = .ok (r, core)) :
    (∀ item ∈ core.receiver.queue, item ∈ t.core.receiver.queue) ∧
      ∀ frame ∈ core.pendingError, frame.header.Custom as frame.payload := by
  have hqueue := (IoCore.handleIncomingItem_steps hi).queue
  refine ⟨?_, ?_⟩
  · intro item' hin
    rw [hqueue] at hin
    rw [hq]
    exact List.mem_cons_of_mem item hin
  · intro frame hf
    rw [(IoCore.handleIncomingItem_injects hi).1] at hf
    cases hitem : IoCore.itemError (t.dequeued rest).juliet item with
    | none =>
      rw [hitem] at hf
      exact h.pending frame hf
    | some errMsg =>
      rw [hitem] at hf
      cases Option.some.inj hf
      cases item with
      | error channel id payload =>
        rcases (t.dequeued rest).juliet.customError_cases channel id payload with
          ⟨_, he⟩ | ⟨hsingle, he⟩
        · simp [IoCore.itemError, he, Except.toOption] at hitem
        · have hmsg : errMsg = OutgoingMessage.new (Header.newError .other channel id)
              (some payload) := by
            simpa [IoCore.itemError, he, Except.toOption] using hitem.symm
          have hfits : errMsg.isMultiFrame (t.dequeued rest).juliet.maxFrameSize = false := by
            rw [hmsg]
            exact hsingle
          obtain ⟨_, _, _, _, _, hsegments, _, _⟩ :=
            OutgoingMessage.frameList_formulas errMsg (t.dequeued rest).juliet.maxFrameSize
          rw [errorFrame_of_single hfits] at hsegments
          have hpayload : (errorFrame (t.dequeued rest).juliet.maxFrameSize errMsg).payload =
              payload := by
            simpa [hmsg, OutgoingMessage.new, OutgoingFrame.segment] using hsegments
          rw [errorFrame_header, hpayload, hmsg]
          refine ⟨Header.newError_isError _ _ _, .other, Header.newError_errorKind _ _ _,
            fun _ => ⟨payload, ?_, ?_⟩⟩
          · simpa [OutgoingMessage.new] using h.queued _ (hq ▸ List.mem_cons_self)
          · exact List.suffix_refl _
      | _ => simp [IoCore.itemError] at hitem

theorem step {a : IoAct} (h : Told as t) (hs : Step t a t') : Told (as ++ [a]) t' := by
  have hsound := hs.sound h.sound
  have h : Told (as ++ [a]) t := h.mono (List.subset_append_left _ _)
  -- steps that leave the queue and the error alone
  have hquiet : ∀ (t' : IoTask N), t'.core.Sound → t'.outcomes = t.outcomes →
      t'.core.receiver.queue = t.core.receiver.queue →
      t'.core.pendingError = t.core.pendingError → (∀ exit, t.position ≠ .done exit) →
      (t'.position = .panicked ∨ t'.position = .top ∨ t'.position = .select ∨
        t'.position = .done .closed ∨
        ∃ err, t'.position = .done (.failed err) ∧
        (∀ header data, err ≠ .remoteReportedError header data) ∧
          ∀ header data, err ≠ .remoteProtocolViolation header data) → Told (as ++ [a]) t' := by
    intro t' hsound ho hq hp hwas hpos
    have hnothing : t'.outcomes = t.outcomes ++ (none : Option ReadOutcome).toList := by simp [ho]
    refine h.move hsound hnothing (by rw [hq]; exact fun _ hin => hin) (by rw [hp]; exact h.pending)
      hwas ?_ ?_ ?_ (by simp)
    all_goals rcases hpos with hpos | hpos | hpos | hpos | ⟨err, hpos, hreported, hviolation⟩
    all_goals simp_all
  have hsent : ∀ {core : IoCore N} {r : Except CoreError Unit} {current : CurrentFrame},
      t.core.currentFrame = some current →
      (t.currentWritten current current.frame.remaining).core.SentStep
        { current with frame := current.frame.advance current.frame.remaining } r core →
      core.receiver.queue = t.core.receiver.queue ∧ core.pendingError = t.core.pendingError ∧
        (r = .ok () ∨ ∃ violation, r = .error (.localProtocolViolation violation)) := by
    intro core r current hc hsent
    have hsound' := sound_currentWritten h.sound hc current.frame.remaining
    cases hsent with
    | error active he =>
      rw [header_advance, (h.sound.current_channel hc).1] at he
      simp at he
    | scanned i c _ hq =>
      have hscan := IoCore.processWaitQueue_queue hq
      have hkept := IoCore.processWaitQueue_pendingError (hsound'.cleared _ i) hq
      exact ⟨hscan, hkept, .inl rfl⟩
    | violation i c err _ hq =>
      have hscan := IoCore.processWaitQueue_queue hq
      have hkept := IoCore.processWaitQueue_pendingError (hsound'.cleared _ i) hq
      exact ⟨hscan, hkept, .inr ⟨err, rfl⟩⟩
  cases hs with
  | enqueue item issued _ _ _ =>
    refine ⟨hsound, ?_, h.pending, h.writing, h.violation, h.reported, h.read⟩
    intro item' hin
    rcases List.mem_append.mp hin with hin | hin
    · exact h.queued item' hin
    · rw [List.mem_singleton.mp hin]
      exact List.mem_append_right _ List.mem_cons_self
  | dropHandles => exact ⟨hsound, h.queued, h.pending, h.writing, h.violation, h.reported, h.read⟩
  | panic a hpos =>
    refine hquiet _ hsound rfl rfl rfl ?_ (.inl rfl)
    rcases hpos with hpos | hpos | hpos <;> simp [hpos]
  | pending frame data htop hp hdata =>
    refine ⟨hsound, h.queued, h.pending, ?_, by simp, by simp, ?_⟩
    · intro data' he
      cases he
      exact ⟨frame, hp, (h.pending frame hp).sent hdata⟩
    · intro header data'
      have hread := h.read header data'
      rw [htop] at hread
      simpa using hread
  | event outcome event core htop hnone hparse =>
    exact h.parse htop hnone hparse hsound rfl rfl rfl (.inr ⟨by simp, .inl htop⟩)
  | failed outcome err core htop hnone hparse =>
    exact h.parse htop hnone hparse hsound rfl rfl rfl (.inl ⟨err, rfl, rfl⟩)
  | selecting outcome core core' htop hnone hparse hready =>
    have hreceiver : core'.receiver = core.receiver := by cases hready <;> rfl
    exact h.parse htop hnone hparse hsound rfl hreceiver hready.keeps.2 (.inr ⟨by simp, .inr rfl⟩)
  | writeSome current k hpos _ _ _ =>
    exact hquiet _ hsound rfl rfl rfl (by simp [hpos]) (.inr (.inr (.inl hpos)))
  | writeAll current core position r hpos hc _ hstep hposition =>
    obtain ⟨hqueue, hpending, hr⟩ := hsent hc hstep
    subst hposition
    refine hquiet _ hsound rfl hqueue hpending (by simp [hpos]) ?_
    rcases hr with rfl | ⟨violation, rfl⟩
    · exact .inr (.inl rfl)
    · exact .inr (.inr (.inr (.inr ⟨_, rfl, by simp, by simp⟩)))
  | writeAllPanic current hpos _ _ _ =>
    exact hquiet _ hsound rfl rfl rfl (by simp [hpos]) (.inl rfl)
  | writeSomeError pending data k hpos hp _ _ =>
    obtain ⟨frame, hf, hdata⟩ := h.writing data hpos
    rw [hp] at hf
    cases Option.some.inj hf
    have hheader : (pending.advance k).header = pending.header := header_advance pending k
    refine ⟨hsound, h.queued, ?_, ?_, ?_, ?_, h.read⟩
    · intro frame hf
      cases Option.some.inj hf
      rw [hheader]
      exact (h.pending pending hp).mono (List.Subset.refl _) (pending.advance_suffix k)
    · intro data' he
      have he : data' = data := by simpa [hpos] using he.symm
      rw [he]
      exact ⟨_, rfl, by rw [hheader]; exact hdata⟩
    · intro header data' he
      simp [hpos] at he
    · intro header data' he
      simp [hpos] at he
  | writeAllError pending data hpos hp _ =>
    obtain ⟨frame, hf, hdata⟩ := h.writing data hpos
    rw [hp] at hf
    cases Option.some.inj hf
    refine ⟨hsound, h.queued, by simp, by simp, ?_, by simp, ?_⟩
    · intro header data' he
      simp only [Position.done.injEq, Exit.failed.injEq,
        CoreError.remoteProtocolViolation.injEq] at he
      obtain ⟨rfl, rfl⟩ := he
      exact hdata
    · intro header data'
      have hread := h.read header data'
      rw [hpos] at hread
      simpa using hread
  | writeFailed hpos =>
    refine hquiet _ hsound rfl rfl rfl ?_ (.inr (.inr (.inr (.inr ⟨_, rfl, by simp, by simp⟩))))
    rcases hpos with hpos | ⟨_, hpos⟩ <;> simp [hpos]
  | read bytes position hpos _ _ hposition =>
    exact hquiet _ hsound rfl rfl rfl (by simp [hpos])
      (hposition.elim (fun hp => .inr (.inl hp)) fun hp => .inr (.inr (.inl hp)))
  | readDone hpos _ => exact hquiet _ hsound rfl rfl rfl (by simp [hpos]) (.inr (.inl rfl))
  | readFailed hpos =>
    exact hquiet _ hsound rfl rfl rfl (by simp [hpos])
      (.inr (.inr (.inr (.inr ⟨_, rfl, by simp, by simp⟩))))
  | hangUp hpos | recvClosed hpos _ _ | drainedClosed hpos _ _ =>
    exact hquiet _ hsound rfl rfl rfl (by simp [hpos]) (.inr (.inr (.inr (.inl rfl))))
  | drained hpos _ _ => exact hquiet _ hsound rfl rfl rfl (by simp [hpos]) (.inr (.inl rfl))
  | timeout data hpos =>
    exact hquiet _ hsound rfl rfl rfl (by simp [hpos])
      (.inr (.inr (.inr (.inr ⟨_, rfl, by simp, by simp⟩))))
  | drop hpos =>
    refine hquiet _ hsound rfl rfl rfl ?_ (.inr (.inl rfl))
    rcases hpos with hpos | ⟨_, hpos⟩ <;> simp [hpos]
  | taken a item rest core _ hpos hq hi | rejected a item rest core _ _ hpos hq hi =>
    obtain ⟨hqueue, hpending⟩ := h.item hq hi
    have hnothing : t.outcomes = t.outcomes ++ (none : Option ReadOutcome).toList :=
      (List.append_nil _).symm
    refine h.move hsound hnothing hqueue hpending ?_ (by simp) (by simp) (by simp) (by simp)
    rcases hpos with hpos | hpos <;> simp [hpos]

end Told

theorem told_of_run {builder : ProtocolBuilder N} (h : run builder anyStep as = some t) :
    Told as t := by
  have htold := Transition.exec_history (P := Told) (.new builder)
    (fun hP _ hs => hP.step (step_steps hs)) h
  simpa using htold

/-- When `next_event` has returned an error, in any run and whatever the peer has sent,
`as_remote_other_err` and `as_local_other_err` do not fail their assertions: the one returns what
has been read if the error of the peer is a custom one, and the other one returns data only of a
custom error that has been enqueued. -/
theorem other_errors_told {builder : ProtocolBuilder N} {err : CoreError}
    (h : run builder anyStep as = some t) (hexit : t.position = .done (.failed err)) :
    (∃ remote, err.asRemoteOtherErr = .ok remote ∧ ∀ header data, remote = some (header, data) ↔
      .success (.errorReceived header (some data)) ∈ t.outcomes) ∧
    ∃ sent, err.asLocalOtherErr = .ok sent ∧ ∀ header data, sent = some (header, data) →
      header.errorKind = .ok .other ∧
        ∃ payload, .enqueue (.error header.channel header.id payload) ∈ as ∧ data <:+ payload := by
  have htold := told_of_run h
  have hread := fun header data => (htold.read header data).trans (by rw [hexit])
  refine ⟨?_, ?_⟩
  · cases err with
    | remoteReportedError header data =>
      refine ⟨_, asOtherErr_of (htold.reported header data hexit), ?_⟩
      intro header' data'
      rw [hread]
      cases data with
      | none => simp
      | some data => simp [Prod.ext_iff, eq_comm]
    | _ => exact ⟨none, rfl, fun header data => by simp [hread]⟩
  · cases err with
    | remoteProtocolViolation header data =>
      obtain ⟨hcarries, hcustom⟩ := htold.violation header data hexit
      refine ⟨_, asOtherErr_of hcarries, ?_⟩
      intro header' data' he
      obtain ⟨payload, hdata, hsame⟩ := Option.map_eq_some_iff.mp he
      cases hsame
      obtain ⟨_, kind, hkind, hother⟩ := hcarries
      obtain ⟨_, kind', hkind', hwhole⟩ := hcustom data' hdata
      have hk : kind = .other := hother.mpr (by simp [hdata])
      subst hk
      rw [hkind] at hkind'
      cases Except.ok.inj hkind'
      exact ⟨hkind, hwhole rfl⟩
    | _ => exact ⟨none, rfl, by simp⟩

theorem other_errors_told_remote : ∃ t err remote,
    run JulietProtocol.smallBuilder anyStep [.turn, .read [128, 0, 1, 0, 2, 7, 8], .turn] = some t ∧
    t.position = .done (.failed err) ∧ err.asRemoteOtherErr = .ok remote ∧
    remote = some (Header.newError .other ⟨0⟩ ⟨1⟩, [7, 8]) := by
  have hrun : (run JulietProtocol.smallBuilder anyStep [.turn,
      .read [128, 0, 1, 0, 2, 7, 8], .turn]).map
      (fun t => (t.position, t.outcomes.getLast?)) =
        some (.done (.failed (.remoteReportedError (Header.newError .other ⟨0⟩ ⟨1⟩) (some [7, 8]))),
          some (.success (.errorReceived (Header.newError .other ⟨0⟩ ⟨1⟩) (some [7, 8])))) := rfl
  obtain ⟨t, ht, he⟩ := Option.map_eq_some_iff.mp hrun
  obtain ⟨hexit, hlast⟩ := Prod.mk.inj he
  obtain ⟨remote, hremote, hiff⟩ := (other_errors_told ht hexit).1
  exact ⟨t, _, remote, ht, hexit, hremote, (hiff _ _).mpr (List.mem_of_getLast? hlast)⟩

end IoTask

end Juliet
