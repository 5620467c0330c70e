import Juliet.AnswerIds

namespace Juliet

open Rust

namespace IoCore

variable {N : Nat} {self c : IoCore N} {answered : List IoId}

/-- Whether processing the wait queue of the channel can hand out the id. -/
def reissues (core : IoCore N) (channel : ChannelId) (id : Id) : Bool :=
  if h : channel.get.toNat < N then
    id ∈ (core.juliet.channels ⟨channel.get.toNat, h⟩).upcoming
      (core.newRequests ⟨channel.get.toNat, h⟩)
  else false

theorem reissues_of {channel : ChannelId} {i : Fin N} (hi : channel.get.toNat = i) (core : IoCore N)
    (id : Id) :
    core.reissues channel id =
      decide (id ∈ (core.juliet.channels i).upcoming (core.newRequests i)) := by
  have hlt : channel.get.toNat < N := hi ▸ i.isLt
  have he : (⟨channel.get.toNat, hlt⟩ : Fin N) = i := Fin.ext hi
  simp only [reissues, hlt, dif_pos, he]

/-- Reading an answer settles a request that is in the map. -/
theorem Mapped.parsed {o : ReadOutcome} {juliet : JulietProtocol N} {buffer : Bytes}
    (h : Mapped answered self) (hsound : self.Sound) (hnone : self.pendingError = none)
    (hp : self.juliet.processIncoming self.buffer = .ok (o, juliet, buffer)) :
    Mapped answered (self.parsed juliet buffer) ∧ ∀ key, answeredBy (some o) = some key →
      ∃ (i : Fin N) (ioId : IoId), key.1.get.toNat = i ∧ (ioId, key) ∈ self.requestMap.pairs ∧
        self.Outstanding key ioId ∧ key.2 ∉ (juliet.channels i).outgoingRequests := by
  have hsettles := JulietProtocol.processIncoming_settles hsound.valid hp
  refine ⟨h.congr rfl rfl (fun hp => hp) ?_, ?_⟩
  · intro i
    have hout := (hsettles.channels i).2.2
    simp only [IoCore.parsed]
    split at hout
    next =>
      split at hout
      next =>
        rw [hout.2]
        exact Finset.erase_subset _ _
      next => rw [hout]
    next => rw [hout]
  · rintro ⟨channel, id⟩ ha
    have hlt := hsettles.known channel id ha
    have hout := (hsettles.channels ⟨channel.get.toNat, hlt⟩).2.2
    simp only [ha, if_true] at hout
    obtain ⟨ioId, hpair⟩ := h.outstanding hnone ⟨channel.get.toNat, hlt⟩ channel id rfl hout.1
    refine ⟨⟨channel.get.toNat, hlt⟩, ioId, rfl, hpair, ⟨h.owned ioId _ hpair, _, rfl, hout.1⟩, ?_⟩
    rw [hout.2]
    exact Finset.notMem_erase id _

/-- What parsing reports is about the request that has been answered. -/
theorem ParseStep.mapped {outcome : Option ReadOutcome} {result : Option (Except CoreError IoEvent)}
    (hs : ParseStep self outcome result c) (h : Mapped answered self) (hsound : self.Sound)
    (hone : ∀ ioId, self.copies ioId ≤ 1) (hnone : self.pendingError = none)
    (hkeeps : ∀ channel id payload juliet buffer,
      self.juliet.processIncoming self.buffer = .ok
    (.success (.receivedResponse channel id payload), juliet, buffer) →
      (self.parsed juliet buffer).reissues channel id = false) :
    (∃ event key ioId, result = some (.ok event) ∧ event.answerId = some ioId ∧
      answeredBy outcome = some key ∧
      self.Outstanding key ioId ∧ ioId ∉ answered ∧ Mapped (answered ++ [ioId]) c) ∨
    (∀ event, result = some (.ok event) → event.answerId = none) ∧
      (∀ text, result ≠ some (.error (.internalError text))) ∧ Mapped answered c := by
  cases hs with
  | skip _ => exact .inr ⟨by simp, by simp, h⟩
  | incomplete n juliet buffer hp =>
    exact .inr ⟨by simp, by simp, (h.parsed hsound hnone hp).1.idle rfl rfl rfl rfl⟩
  | fatal errMsg juliet buffer frame hp _ _ =>
    exact .inr ⟨by simp, by simp, (h.parsed hsound hnone hp).1.erroring frame⟩
  | event read juliet buffer hp _ =>
    obtain ⟨hmapped, hanswer⟩ := h.parsed hsound hnone hp
    cases ha : read.answered with
    | none =>
      obtain ⟨hcore, hevent, herr⟩ := handleCompletedRead_unanswered (self.parsed juliet buffer) ha
      rw [hcore]
      exact .inr ⟨fun event he => hevent event (Option.some.inj he),
        fun text he => herr text (Option.some.inj he), hmapped⟩
    | some key =>
      obtain ⟨i, ioId, hkey, hpair, hout, hid⟩ := hanswer key ha
      have hpair' : (ioId, key) ∈ (self.parsed juliet buffer).requestMap.pairs := hpair
      obtain ⟨event, hevent, he⟩ := handleCompletedRead_answered read ha hpair'
      rw [he]
      exact .inl ⟨event, key, ioId, rfl, hevent, ha, hout, fun hmem => h.gone ioId hmem key hpair,
        hmapped.answer hpair hkey hid⟩
  | violation channel id payload juliet buffer err c hp hq =>
    have hmapped := (h.parsed hsound hnone hp).1
    have hsound' := hsound.parsed (hsound.valid.processIncoming hp) buffer
    exact .inr ⟨by simp, by simp, (hmapped.processWaitQueue hsound' hone hq).1⟩
  | response channel id payload juliet buffer c hp hq =>
    obtain ⟨hmapped, hanswer⟩ := h.parsed hsound hnone hp
    obtain ⟨i, ioId, hkey, hpair, hout, hid⟩ := hanswer (channel, id) rfl
    have hsound' := hsound.parsed (hsound.valid.processIncoming hp) buffer
    obtain ⟨hmapped', hkept⟩ := hmapped.processWaitQueue hsound' hone hq
    -- the id has not been handed out again
    have hfree : id ∉ (c.juliet.channels i).outgoingRequests := by
      intro hmem
      have hnot := hkeeps channel id payload juliet buffer hp
      rw [reissues_of hkey, decide_eq_false_iff_not] at hnot
      exact (processWaitQueue_outgoing hkey hsound' hq hmem).elim hid hnot
    have hpair' := (hkept i ioId (channel, id) hkey hpair).resolve_right hfree
    obtain ⟨event, hevent, he⟩ :=
      handleCompletedRead_answered (.receivedResponse channel id payload) rfl hpair'
    rw [he]
    exact .inl ⟨event, (channel, id), ioId, rfl, hevent, rfl, hout,
      fun hmem => h.gone ioId hmem _ hpair, hmapped'.answer hpair' hkey hfree⟩

end IoCore

namespace IoTask

variable {N : Nat} {t t' : IoTask N}

def answerIds (t : IoTask N) : List IoId := t.events.filterMap IoEvent.answerId

theorem answerIds_of {event : IoEvent} (h : t'.events = t.events ++ [event]) :
    t'.answerIds = t.answerIds ++ event.answerId.toList := by
  unfold answerIds
  rw [h, List.filterMap_append, List.filterMap_cons]
  cases event.answerId <;> rfl

/-- The answer that a step reports carries the id of the request that was outstanding with the
channel and id that have been answered. -/
def ReportsOutstanding (before after : IoTask N) : Prop :=
  ∀ event ioId, after.events = before.events ++ [event] → event.answerId = some ioId →
    ∃ read key, after.outcomes = before.outcomes ++ [.success read] ∧ read.answered = some key ∧
      before.core.Outstanding key ioId

/-- When an answer is read, none of the requests that wait on its channel can get the answered
id. -/
def keepsAnsweredId (t : IoTask N) (a : IoAct) : Bool :=
  match a, t.core.juliet.processIncoming t.core.buffer with
  | .turn, .ok (.success (.receivedResponse channel id _), juliet, buffer) =>
    !(t.core.parsed juliet buffer).reissues channel id
  | _, _ => true

/-- What carries the correspondence of requests and answers from step to step. -/
structure Matching (t : IoTask N) : Prop where
  sound : t.core.Sound
  unique : t.Unique
  once : t.answerIds.Nodup
  external : ∀ text, t.position ≠ .done (.failed (.internalError text))
  mapped : (∀ exit, t.position ≠ .done exit) → t.core.Mapped t.answerIds

theorem Matching.new (builder : ProtocolBuilder N) : Matching (IoTask.new builder) where
  sound := IoCore.new_sound builder
  unique := Unique.new builder
  once := List.nodup_nil
  external := by simp [IoTask.new]
  mapped := by
    intro _
    refine ⟨?_, ?_, ?_, ?_⟩ <;>
      simp [IoTask.new, IoCore.new, BiMap.empty, answerIds, ProtocolBuilder.build, Channel.new]

theorem Step.not_done {a : IoAct} (hs : Step t a t') (h : ∀ exit, t'.position ≠ .done exit) :
    ∀ exit, t.position ≠ .done exit := by
  intro exit he
  cases hs <;> simp_all

theorem keepsAnsweredId_turn (hok : keepsAnsweredId t .turn = true) (channel : ChannelId) (id : Id)
    (payload : Option Bytes) (juliet : JulietProtocol N) (buffer : Bytes)
    (hp : t.core.juliet.processIncoming t.core.buffer =
      .ok (.success (.receivedResponse channel id payload), juliet, buffer)) :
    (t.core.parsed juliet buffer).reissues channel id = false := by
  simpa [keepsAnsweredId, hp] using hok

namespace Matching

variable {core : IoCore N} {outcome : Option ReadOutcome}

/-- A turn of the loop that parses, from a task that has not failed. -/
theorem parse {result : Option (Except CoreError IoEvent)} (h : Matching t)
    (htop : t.position = .top) (hnone : t.core.pendingError = none)
    (hok : keepsAnsweredId t .turn = true) (hs : t.core.ParseStep outcome result core) :
    (∃ event key ioId, result = some (.ok event) ∧ event.answerId = some ioId ∧
      answeredBy outcome = some key ∧
      t.core.Outstanding key ioId ∧ ioId ∉ t.answerIds ∧ core.Mapped (t.answerIds ++ [ioId])) ∨
    (∀ event, result = some (.ok event) → event.answerId = none) ∧
      (∀ text, result ≠ some (.error (.internalError text))) ∧ core.Mapped t.answerIds :=
  hs.mapped (h.mapped (by simp [htop])) h.sound h.unique.copies_le hnone (keepsAnsweredId_turn hok)

theorem item {item : QueuedItem} {rest : List QueuedItem} {r : Except LocalProtocolViolation Unit}
    (h : Matching t) (hlive : ∀ exit, t.position ≠ .done exit)
    (hq : t.core.receiver.queue = item :: rest) (hs : (t.dequeued rest).ItemStep item r core) :
    core.Mapped t.answerIds := by
  have hm : (t.dequeued rest).Mapped t.answerIds :=
    (h.mapped hlive).idle rfl rfl rfl rfl
  cases hs with
  | refused _ _ => exact hm
  | wait channel i _ _ => exact hm.setWaitQueue i _
  | send r c _ hs =>
    refine hm.sendStep hs ?_
    intro ioId hio
    exact IoCore.unused_of_copies hio (h.unique.copies_le ioId) (copies_dequeued hq ioId)

theorem written {current : CurrentFrame} {r : Except CoreError Unit} (h : Matching t)
    (hlive : ∀ exit, t.position ≠ .done exit) (hc : t.core.currentFrame = some current) (k : Nat)
    (hs : (t.currentWritten current k).core.SentStep
      { current with frame := current.frame.advance k } r core) :
    core.Mapped t.answerIds := by
  have hm := h.mapped hlive
  cases hs with
  | error active _ => exact hm.idle rfl rfl rfl rfl
  | scanned i c _ hq | violation i c err _ hq =>
    have hcleared : ((t.currentWritten current k).core.cleared
        { current with frame := current.frame.advance k } i).Mapped t.answerIds :=
      hm.idle rfl rfl rfl rfl
    exact (hcleared.processWaitQueue ((sound_currentWritten h.sound hc k).cleared _ i)
      h.unique.copies_le hq).1

theorem step {a : IoAct} (h : Matching t) (hok : keepsAnsweredId t a = true) (hs : Step t a t') :
    Matching t' where
  sound := hs.sound h.sound
  unique := h.unique.step hs
  once := by
    have honce := h.once
    cases hs with
    | event outcome event core htop hnone hparse =>
      rw [answerIds_of rfl]
      rcases h.parse htop hnone hok hparse with ⟨_, key, ioId, he, hid, _, _,
        hfresh, _⟩ | ⟨hquiet, _, _⟩
      · cases Except.ok.inj (Option.some.inj he)
        rw [hid]
        exact honce.append (List.nodup_singleton ioId) (List.disjoint_singleton.mpr hfresh)
      · rw [hquiet event rfl]
        simpa using honce
    | _ => exact honce
  external := by
    have hext := h.external
    cases hs with
    | failed outcome err core htop hnone hparse =>
      rcases h.parse htop hnone hok hparse with ⟨_, _, _, he, _⟩ | ⟨_, herr, _⟩
      · simp at he
      · intro text he
        cases Exit.failed.inj (Position.done.inj he)
        exact herr text rfl
    | writeAll current core position r _ hc _ hsent hpos =>
      subst hpos
      cases hsent <;> simp
    | writeSome current k _ _ _ _ => exact hext
    | read bytes position _ _ _ hpos => rcases hpos with rfl | rfl <;> simp
    | _ => simp_all
  mapped := by
    intro hdone
    have hlive := hs.not_done hdone
    have hm := h.mapped hlive
    cases hs with
    | enqueue item issued _ _ _ => exact hm.idle rfl rfl rfl rfl
    | dropHandles => exact hm.idle rfl rfl rfl rfl
    | event outcome event core htop hnone hparse =>
      rw [answerIds_of rfl]
      rcases h.parse htop hnone hok hparse with ⟨_, key, ioId, he, hid, _, _, _,
        hmapped⟩ | ⟨hquiet, _, hmapped⟩
      · cases Except.ok.inj (Option.some.inj he)
        rw [hid]
        exact hmapped
      · rw [hquiet event rfl]
        simpa using hmapped
    | failed outcome err core _ _ _ => exact absurd rfl (hdone _)
    | selecting outcome core core' htop hnone hparse hready =>
      rcases h.parse htop hnone hok hparse with ⟨_, _, _, he, _⟩ | ⟨_, _, hmapped⟩
      · simp at he
      · cases hready <;> exact hmapped.idle rfl rfl rfl rfl
    | writeSome current k _ _ _ _ => exact hm.idle rfl rfl rfl rfl
    | writeAll current core position r _ hc _ hsent _ => exact h.written hlive hc _ hsent
    | writeAllPanic current _ hc _ => exact hm.idle rfl rfl rfl rfl
    | writeSomeError pending data k _ hp _ _ =>
      exact hm.congr rfl rfl (by simp) (fun _ => Finset.Subset.refl _)
    | writeAllError pending data _ _ _ => exact absurd rfl (hdone _)
    | read bytes position _ _ _ _ => exact hm.idle rfl rfl rfl rfl
    | taken a item rest core _ _ hq hi => exact h.item hlive hq (IoCore.handleIncomingItem_steps hi)
    | rejected a item rest core _ _ _ hq hi =>
      exact h.item hlive hq (IoCore.handleIncomingItem_steps hi)
    | _ => exact hm

end Matching

/-- Of the steps only a turn that has parsed an answer reports one. -/
theorem Matching.reports {a : IoAct} (h : Matching t) (hok : keepsAnsweredId t a = true)
    (hs : Step t a t') :
    ReportsOutstanding t t' := by
  intro event ioId hevents hid
  cases hs with
  | event outcome event' core htop hnone hparse =>
    have he : event' = event := by simpa using hevents
    subst he
    rcases h.parse htop hnone hok hparse with ⟨_, key, ioId', he, hid', hans, hout,
      _, _⟩ | ⟨hquiet, _, _⟩
    · cases Except.ok.inj (Option.some.inj he)
      cases Option.some.inj (hid.symm.trans hid')
      cases outcome with
      | none => simp [answeredBy] at hans
      | some o =>
        cases o with
        | success read => exact ⟨read, key, rfl, hans, hout⟩
        | _ => simp [answeredBy] at hans
    · rw [hquiet event' rfl] at hid
      simp at hid
  | _ => simp [currentWritten] at hevents

/-- In every run in which no answer is read while a request waits that would get the answered id,
every answer is reported for the request that it answers and once only, and none is missing from
the request map. -/
theorem answers_reported {builder : ProtocolBuilder N} {a : IoAct}
    (h : Reach builder keepsAnsweredId t) (hok : keepsAnsweredId t a = true)
    (hs : t.step a = some t') :
    ReportsOutstanding t t' ∧ t'.answerIds.Nodup ∧
    ∀ text, t'.position ≠ .done (.failed (.internalError text)) := by
  have hm : Matching t := Reach.keeps (Matching.new builder) (fun hP hok hs => hP.step hok hs) h
  have hstep := step_steps hs
  have hm' := hm.step hok hstep
  exact ⟨hm.reports hok hstep, hm'.once, hm'.external⟩

end IoTask

end Juliet
