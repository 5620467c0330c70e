import Juliet.Accounting
import Juliet.IoNet
import Juliet.Tally

namespace Juliet

open Rust

namespace IoCore

variable {N : Nat} {self c : IoCore N} {answered : List IoId} {hole : Option (ChannelId × Id)}

/-- The requests created and not answered are those of the request map, and these are outstanding,
but for the one that is being answered. -/
structure Remembers (answered : List IoId) (hole : Option (ChannelId × Id)) (core : IoCore N) :
    Prop where
  made : ∀ sent ∈ core.history, ∀ ioId, sent.item.isRequest ioId = true →
    ioId ∈ answered ∨ ∃ key, (ioId, key) ∈ core.requestMap.pairs
  awaited : ∀ ioId key, (ioId, key) ∈ core.requestMap.pairs →
    some key = hole ∧ ioId ∈ answered ∨ core.awaits key = true

namespace Remembers

theorem idle (h : Remembers answered hole self) (hh : c.history = self.history)
    (hm : c.requestMap = self.requestMap)
    (ho : ∀ i, (c.juliet.channels i).outgoingRequests = (self.juliet.channels i).outgoingRequests) :
    Remembers answered hole c where
  made := by
    rw [hh, hm]
    exact h.made
  awaited := by
    intro ioId key hp
    rw [awaits_congr ho]
    exact h.awaited ioId key (hm ▸ hp)

/-- Messages that carry no request. -/
theorem created {i : Fin N} {item : QueuedItem} {msg : OutgoingMessage} {juliet : JulietProtocol N}
    (h : Remembers answered hole self) (hitem : ∀ ioId, item.isRequest ioId = false)
    (ho : ∀ i, (juliet.channels i).outgoingRequests = (self.juliet.channels i).outgoingRequests) :
    Remembers answered hole (self.created i item msg juliet self.requestMap) where
  made := by
    intro sent hs ioId hr
    rw [created_history, List.mem_append, List.mem_singleton] at hs
    rw [created_requestMap]
    rcases hs with hs | rfl
    · exact h.made sent hs ioId hr
    · simp [hitem ioId] at hr
  awaited := by
    intro ioId key hp
    rw [created_requestMap] at hp
    have hsame : (self.created i item msg juliet self.requestMap).awaits key = self.awaits key :=
      awaits_congr (fun j => by rw [created_juliet, ho]) key
    rw [hsame]
    exact h.awaited ioId key hp

/-- A request takes an id that no other one has, unless it is the one that is being answered. -/
theorem withRequest {i : Fin N} {channel : ChannelId} {ioId : IoId} {payload : Option Bytes}
    {id : Id} (h : Remembers answered hole self) (hi : channel.get.toNat = i)
    (hid : (self.juliet.channels i).Generates id)
    (hunmapped : ∀ key, (ioId, key) ∉ self.requestMap.pairs) :
    Remembers answered hole (self.created i (.request channel ioId payload)
      (Channel.requestMessage channel id payload)
      (self.juliet.setChannel i ((self.juliet.channels i).withRequest id))
        (self.requestMap.insert ioId (channel, id))) := by
  have hfree : self.awaits (channel, id) = false := by
    rw [awaits_of hi, decide_eq_false_iff_not]
    exact hid.free
  refine ⟨?_, ?_⟩
  · intro sent hs ioId' hr
    rw [created_history, List.mem_append, List.mem_singleton] at hs
    rw [created_requestMap]
    rcases hs with hs | rfl
    · rcases h.made sent hs ioId' hr with ha | ⟨key, hp⟩
      · exact .inl ha
      · by_cases hkey : key = (channel, id)
        · rcases h.awaited ioId' key hp with ⟨_, ha⟩ | hw
          · exact .inl ha
          · simp [hkey, hfree] at hw
        · refine .inr ⟨key, BiMap.mem_insert.mpr (.inr ⟨hp, ?_, hkey⟩)⟩
          rintro rfl
          exact hunmapped key hp
    · have he : ioId = ioId' := by simpa [QueuedItem.isRequest] using hr
      exact .inr ⟨(channel, id), BiMap.mem_insert.mpr (.inl (by rw [he]))⟩
  · intro ioId' key hp
    rw [created_requestMap, BiMap.mem_insert] at hp
    rw [awaits_withRequest hi]
    rcases hp with hp | ⟨hp, _, _⟩
    · refine .inr ?_
      simp [(Prod.mk.inj hp).2]
    · refine (h.awaited ioId' key hp).imp_right ?_
      intro hw
      simp [hw]

theorem sendStep {item : QueuedItem} {r : Except LocalProtocolViolation Unit}
    (h : Remembers answered hole self) (hs : SendStep self item r c) (hp : c.pendingError = none)
    (hunmapped : ∀ ioId, item.isRequest ioId = true → ∀ key, (ioId, key) ∉ self.requestMap.pairs) :
    Remembers answered hole c := by
  cases hs with
  | request channel ioId payload i id hi _ _ hid =>
    exact h.withRequest hi hid (hunmapped ioId (by simp [QueuedItem.isRequest]))
  | cancel ioId channel i id _ _ _ => exact h.created (by simp [QueuedItem.isRequest]) fun _ => rfl
  | response channel id payload i _ _ _ =>
    exact h.created (by simp [QueuedItem.isRequest])
      fun j => JulietProtocol.answered_outgoing _ i j id
  | responseCancellation channel id i _ _ =>
    exact h.created (by simp [QueuedItem.isRequest])
      fun j => JulietProtocol.answered_outgoing _ i j id
  | late _ _ _ => exact h
  | refused _ _ => exact h
  | oversized channel id payload i _ _ _ _ =>
    exact h.idle rfl rfl fun j => JulietProtocol.answered_outgoing _ i j id
  | error channel id payload frame _ _ => simp [erroring] at hp

theorem processWaitQueue {channel : ChannelId} {r : Except LocalProtocolViolation Unit}
    (h : Remembers answered hole self) {answered' : List IoId} (hm : self.Mapped answered')
    (hsound : self.Sound) (hone : ∀ ioId, self.copies ioId ≤ 1) (hp : self.pendingError = none)
    (hq : self.processWaitQueue channel = .ok (r, c)) : Remembers answered hole c := by
  have hall : Remembers answered hole c ∧ c.Mapped answered' ∧ (∀ ioId, c.copies ioId ≤ 1) ∧
      c.pendingError = none := by
    refine hsound.scansKeep
      (P := fun c => Remembers answered hole c ∧ c.Mapped answered' ∧ (∀ ioId, c.copies ioId ≤ 1) ∧
      c.pendingError = none) hq ⟨h, hm, hone, hp⟩ ?_
    rintro i b c hb ⟨hr, hm, hle, hp⟩ hstep
    have hp' := (hstep.pendingError hb).trans hp
    refine ⟨?_, (hm.scanStep hb hle hstep).1, fun ioId => hstep.copies_le.trans (hle ioId), hp'⟩
    cases hstep with
    | rotate _ _ _ _ _ => exact hr.idle rfl rfl fun _ => rfl
    | lose _ _ _ => exact hr.idle rfl rfl fun _ => rfl
    | promote item rest r c hq _ hs =>
      have hset : Remembers answered hole (b.setWaitQueue i rest) := hr.idle rfl rfl fun _ => rfl
      refine hset.sendStep hs hp' ?_
      intro ioId hio
      exact ((hm.setWaitQueue i rest).unused
        (unused_of_copies hio (hle ioId) (copies_unqueued hq))).1
  exact hall.1

/-- A call of `process_incoming` that answers nothing. -/
theorem parsed {o : ReadOutcome} {juliet : JulietProtocol N} {buffer : Bytes}
    (h : Remembers answered none self) (hv : self.juliet.Valid)
    (hp : self.juliet.processIncoming self.buffer = .ok (o, juliet, buffer))
    (ha : answeredBy (some o) = none) : Remembers answered none (self.parsed juliet buffer) where
  made := h.made
  awaited := by
    intro ioId key hpair
    rw [awaits_parsed hv hp, ha]
    simpa using h.awaited ioId key hpair

/-- A call of `process_incoming` that reads an answer. -/
theorem answers {o : ReadOutcome} {juliet : JulietProtocol N} {buffer : Bytes} {ioId : IoId}
    {key : ChannelId × Id} (h : Remembers answered none self) (hv : self.juliet.Valid)
    (hp : self.juliet.processIncoming self.buffer = .ok (o, juliet, buffer))
    (ha : answeredBy (some o) = some key) (hpair : (ioId, key) ∈ self.requestMap.pairs) :
    Remembers (answered ++ [ioId]) (some key) (self.parsed juliet buffer) where
  made := by
    intro sent hs ioId' hr
    exact (h.made sent hs ioId' hr).imp_left (List.mem_append_left _)
  awaited := by
    intro ioId' key' hpair'
    rw [awaits_parsed hv hp]
    by_cases hkey : key' = key
    · subst hkey
      refine .inl ⟨rfl, ?_⟩
      rw [BiMap.left_unique _ hpair' hpair]
      simp
    · refine .inr ?_
      have hne : answeredBy (some o) ≠ some key' := by
        rw [ha]
        exact fun he => hkey (Option.some.inj he).symm
      simpa [hne] using h.awaited ioId' key' hpair'

/-- The request that has been answered leaves the map. -/
theorem remove {key : ChannelId × Id} (h : Remembers answered (some key) self)
    (hfree : self.awaits key = false) :
    Remembers answered none { self with requestMap := (self.requestMap.removeByRight key).2 } where
  made := by
    intro sent hs ioId hr
    rcases h.made sent hs ioId hr with ha | ⟨key', hpair⟩
    · exact .inl ha
    · by_cases hkey : key' = key
      · subst hkey
        rcases h.awaited ioId key' hpair with ⟨_, ha⟩ | hw
        · exact .inl ha
        · simp [hfree] at hw
      · exact .inr ⟨key', BiMap.removeByRight_mem.mpr ⟨hpair, hkey⟩⟩
  awaited := by
    intro ioId key' hpair
    obtain ⟨hpair, hne⟩ := BiMap.removeByRight_mem.mp hpair
    rcases h.awaited ioId key' hpair with ⟨he, _⟩ | hw
    · exact absurd (Option.some.inj he) hne
    · exact .inr hw

end Remembers

theorem SendStep.noError {item : QueuedItem} {r : Except LocalProtocolViolation Unit}
    (hs : SendStep self item r c) (hp : c.pendingError = none) : self.pendingError = none := by
  cases hs with
  | request | cancel | response | responseCancellation => simpa using hp
  | late | refused | oversized => exact hp
  | error channel id payload frame _ _ => simp [erroring] at hp

theorem ItemStep.noError {item : QueuedItem} {r : Except LocalProtocolViolation Unit}
    (hs : ItemStep self item r c) (hp : c.pendingError = none) : self.pendingError = none := by
  cases hs with
  | refused _ _ => exact hp
  | wait _ _ _ _ => exact hp
  | send r c _ hs => exact hs.noError hp

theorem SendStep.receiver {item : QueuedItem} {r : Except LocalProtocolViolation Unit}
    (hs : SendStep self item r c) (hp : c.pendingError = none) : c.receiver = self.receiver := by
  cases hs with
  | request | cancel | response | responseCancellation => simp
  | late | refused | oversized => rfl
  | error channel id payload frame _ _ => simp [erroring] at hp

theorem ItemStep.receiver {item : QueuedItem} {r : Except LocalProtocolViolation Unit}
    (hs : ItemStep self item r c) (hp : c.pendingError = none) : c.receiver = self.receiver := by
  cases hs with
  | refused _ _ => rfl
  | wait _ _ _ _ => rfl
  | send r c _ hs => exact hs.receiver hp

theorem processWaitQueue_receiver {channel : ChannelId} {r : Except LocalProtocolViolation Unit}
    (hsound : self.Sound) (hp : self.pendingError = none)
    (hq : self.processWaitQueue channel = .ok (r, c)) : c.receiver = self.receiver := by
  have hall : c.receiver = self.receiver ∧ c.pendingError = none := by
    refine hsound.scansKeep (P := fun c => c.receiver = self.receiver ∧ c.pendingError = none) hq
      ⟨rfl, hp⟩ ?_
    rintro i b c hb ⟨hr, hp⟩ hstep
    have hp' := (hstep.pendingError hb).trans hp
    refine ⟨?_, hp'⟩
    cases hstep with
    | rotate _ _ _ _ _ => exact hr
    | lose _ _ _ => exact hr
    | promote item rest r c _ _ hs => exact (hs.receiver hp').trans hr
  exact hall.1

theorem ParseStep.receiver {outcome : Option ReadOutcome}
    {result : Option (Except CoreError IoEvent)} (hs : ParseStep self outcome result c)
    (hsound : self.Sound) (hnone : self.pendingError = none) (hp : c.pendingError = none) :
    c.receiver = self.receiver := by
  have hread : ∀ (core : IoCore N) (read : CompletedRead),
      (core.handleCompletedRead read).2.receiver = core.receiver := by
    intro core read
    rcases core.handleCompletedRead_core read with he | ⟨key, he⟩ <;> rw [he]
  cases hs with
  | skip _ => rfl
  | incomplete n juliet buffer _ => rfl
  | fatal errMsg juliet buffer frame _ _ _ => simp [erroring] at hp
  | event read juliet buffer _ _ => exact hread _ _
  | response channel id payload juliet buffer c hin hq =>
    have hsound' := hsound.parsed (hsound.valid.processIncoming hin) buffer
    have hscan := processWaitQueue_receiver hsound' hnone hq
    exact (hread _ _).trans hscan
  | violation channel id payload juliet buffer err c hin hq =>
    have hsound' := hsound.parsed (hsound.valid.processIncoming hin) buffer
    have hscan := processWaitQueue_receiver hsound' hnone hq
    exact hscan

/-- The requests that the result of parsing answers. -/
def answeredIn : Option (Except CoreError IoEvent) → List IoId
  | some (.ok event) => event.answerId.toList
  | _ => []

theorem ParseStep.remembers {outcome : Option ReadOutcome}
    {result : Option (Except CoreError IoEvent)} (hs : ParseStep self outcome result c)
    (h : Remembers answered none self) (hm : self.Mapped answered) (hsound : self.Sound)
    (hone : ∀ ioId, self.copies ioId ≤ 1) (hnone : self.pendingError = none)
    (hkeeps : ∀ channel id payload juliet buffer,
      self.juliet.processIncoming self.buffer = .ok
    (.success (.receivedResponse channel id payload), juliet, buffer) →
      (self.parsed juliet buffer).reissues channel id = false) (hp : c.pendingError = none)
    (hok : ∀ err, result ≠ some (.error err)) :
    Remembers (answered ++ answeredIn result) none c := by
  cases hs with
  | skip _ => simpa [answeredIn] using h
  | incomplete n juliet buffer hin =>
    have hparsed := h.parsed hsound.valid hin rfl
    rw [show answeredIn none = [] from rfl, List.append_nil]
    exact hparsed.idle rfl rfl fun _ => rfl
  | fatal errMsg juliet buffer frame hin _ _ => simp [erroring] at hp
  | violation channel id payload juliet buffer err c hin hq => exact absurd rfl (hok _)
  | event read juliet buffer hin _ =>
    cases ha : read.answered with
    | none =>
      obtain ⟨hcore, hevent, _⟩ := handleCompletedRead_unanswered (self.parsed juliet buffer) ha
      have hempty : answeredIn (some ((self.parsed juliet buffer).handleCompletedRead read).1) =
          [] := by
        cases hr : ((self.parsed juliet buffer).handleCompletedRead read).1 with
        | error err => rfl
        | ok event => simp [answeredIn, hevent event hr]
      rw [hcore, hempty, List.append_nil]
      exact h.parsed hsound.valid hin ha
    | some key =>
      obtain ⟨i, ioId, _, hpair, _, _⟩ := (hm.parsed hsound hnone hin).2 key ha
      have hpair' : (ioId, key) ∈ (self.parsed juliet buffer).requestMap.pairs := hpair
      obtain ⟨event, hevent, he⟩ := handleCompletedRead_answered read ha hpair'
      have hfree : (self.parsed juliet buffer).awaits key = false := by
        rw [awaits_parsed hsound.valid hin]
        simp [answeredBy, ha]
      rw [he]
      simp only [answeredIn, hevent]
      exact (h.answers hsound.valid hin ha hpair).remove hfree
  | response channel id payload juliet buffer c hin hq =>
    obtain ⟨hmapped, hanswer⟩ := hm.parsed hsound hnone hin
    obtain ⟨i, ioId, hkey, hpair, _, hid⟩ := hanswer (channel, id) rfl
    have hsound' := hsound.parsed (hsound.valid.processIncoming hin) buffer
    have hleft := (h.answers hsound.valid hin rfl hpair).processWaitQueue hmapped
      hsound' hone hnone hq
    have hfree : id ∉ (c.juliet.channels i).outgoingRequests := by
      intro hmem
      have hnot := hkeeps channel id payload juliet buffer hin
      rw [reissues_of hkey, decide_eq_false_iff_not] at hnot
      exact (processWaitQueue_outgoing hkey hsound' hq hmem).elim hid hnot
    have hpair' := ((hmapped.processWaitQueue hsound' hone hq).2 i ioId (channel, id) hkey
      hpair).resolve_right hfree
    obtain ⟨event, hevent, he⟩ :=
      handleCompletedRead_answered (.receivedResponse channel id payload) rfl hpair'
    have hunawaited : c.awaits (channel, id) = false := by
      rw [awaits_of hkey, decide_eq_false_iff_not]
      exact hfree
    rw [he]
    simp only [answeredIn, hevent]
    exact hleft.remove hunawaited

end IoCore

namespace IoTask

variable {N : Nat} {t t' : IoTask N}

/-- No error is to be sent, and `next_event` has not returned for good. -/
def Live (t : IoTask N) : Prop :=
  t.core.pendingError = none ∧ t.position ≠ .panicked ∧ ∀ exit, t.position ≠ .done exit

/-- What is live has been live from the start. -/
theorem Step.live {a : IoAct} (hs : Step t a t') (hsound : t.core.Sound) (h : t'.Live) :
    t.Live := by
  obtain ⟨hp, hpanic, hdone⟩ := h
  refine ⟨?_, ?_, hs.not_done hdone⟩
  · cases hs with
    | event _ _ _ _ hnone _ => exact hnone
    | failed _ _ _ _ hnone _ => exact hnone
    | selecting _ _ _ _ hnone _ _ => exact hnone
    | writeAll current core position r _ hc _ hsent _ =>
      have hsound' := sound_currentWritten hsound hc current.frame.remaining
      cases hsent with
      | error active _ => exact hp
      | scanned i c _ hq | violation i c err _ hq =>
        exact (IoCore.processWaitQueue_pendingError (hsound'.cleared _ i) hq).symm.trans hp
    | writeSomeError _ _ _ _ _ _ _ => simp at hp
    | writeAllError _ _ _ _ _ => exact absurd rfl (hdone _)
    | taken a item rest core _ _ _ hi | rejected a item rest core _ _ _ _ hi =>
      exact (IoCore.handleIncomingItem_steps hi).noError hp
    | _ => exact hp
  · intro he
    cases hs <;> simp_all

/-- What a live step moves between the places of the items. -/
theorem Step.held_moved {a : IoAct} (hs : Step t a t') (he : Emitting t) (h : t'.Live) :
    t'.core.held + t.droppedBy a = t.core.held + t.takenBy a := by
  have hstart : Accounted t ⟨t.core.held.toList, []⟩ := by
    rw [Accounted, Multiset.coe_toList, Multiset.coe_nil, add_zero]
  have hmoved : ((t.core.held.toList ++ t.takenBy a : List QueuedItem) : Multiset QueuedItem) =
      t'.core.held + ([] ++ t.droppedBy a : List QueuedItem) :=
    hstart.step he hs h.1 (fun err => h.2.2 _) h.2.1
  rw [← Multiset.coe_add, Multiset.coe_toList, List.nil_append] at hmoved
  exact hmoved.symm

/-- What is taken from the local queue stood at its front, and what is added stands at its end. -/
theorem Step.queue_moved {a : IoAct} (hs : Step t a t') (hsound : t.core.Sound) (h : t'.Live) :
    t.core.receiver.queue ++ a.enqueues = t.takenBy a ++ t'.core.receiver.queue := by
  have hp := (hs.live hsound h).1
  have hsame : a.enqueues = [] → t.takenBy a = [] → t'.core.receiver = t.core.receiver →
      t.core.receiver.queue ++ a.enqueues = t.takenBy a ++ t'.core.receiver.queue := by
    intro hadd htake hr
    rw [hadd, htake, hr, List.append_nil, List.nil_append]
  cases hs with
  | enqueue item issued _ _ _ => rfl
  | dropHandles => exact List.append_nil _
  | panic _ _ => exact absurd rfl h.2.1
  | event outcome event core _ _ hparse => exact hsame rfl rfl (hparse.receiver hsound hp h.1)
  | failed outcome err core _ _ hparse => exact absurd rfl (h.2.2 _)
  | selecting outcome core core' _ _ hparse hready =>
    have hready' : core'.receiver = core.receiver := by cases hready <;> rfl
    exact hsame rfl rfl (hready'.trans (hparse.receiver hsound hp (hready.keeps.2.symm.trans h.1)))
  | writeAll current core position r _ hc _ hsent hpos =>
    have hsound' := sound_currentWritten hsound hc current.frame.remaining
    cases hsent with
    | error active _ => exact hsame rfl rfl rfl
    | scanned i c _ hq | violation i c err _ hq =>
      have hscan := IoCore.processWaitQueue_receiver (hsound'.cleared _ i) hp hq
      exact hsame rfl rfl hscan
  | taken a item rest core ha _ hq hi =>
    have hreceiver := (IoCore.handleIncomingItem_steps hi).receiver h.1
    rcases ha with rfl | rfl <;> simp [IoAct.enqueues, takenBy, hq, hreceiver, dequeued]
  | rejected a item rest core violation _ _ _ _ => exact absurd rfl (h.2.2 _)
  | recvClosed _ _ _ => exact absurd rfl (h.2.2 _)
  | drained _ hq _ => exact hsame rfl (by simp [takenBy, hq]) rfl
  | drainedClosed _ _ _ => exact absurd rfl (h.2.2 _)
  | _ => exact hsame rfl rfl rfl

theorem countP_requests (ioId : IoId) (items : List QueuedItem) :
    (items : Multiset QueuedItem).countP (fun item => item.isRequest ioId = true) =
      requestsOf ioId items := by
  simp [requestsOf]

theorem copies_held (core : IoCore N) (ioId : IoId) :
    core.copies ioId = core.held.countP (fun item => item.isRequest ioId = true) +
      requestsOf ioId core.receiver.queue := by
  have hsum : (∑ i, (core.waitQueue i : Multiset QueuedItem)).countP
      (fun item => item.isRequest ioId = true) =
      ∑ i, requestsOf ioId (core.waitQueue i) := by
    rw [← Multiset.coe_countPAddMonoidHom, map_sum]
    exact Finset.sum_congr rfl fun i _ => countP_requests ioId _
  rw [IoCore.held, Multiset.countP_add, hsum, countP_requests, IoCore.copies]
  omega

/-- A live step loses no request and makes no second one. -/
theorem Step.copies_live {a : IoAct} (hs : Step t a t') (he : Emitting t) (h : t'.Live)
    (ioId : IoId) :
    t'.core.copies ioId = t.core.copies ioId + requestsOf ioId a.enqueues := by
  have hheld := congrArg (Multiset.countP fun item => item.isRequest ioId = true)
    (hs.held_moved he h)
  have hqueue := congrArg (requestsOf ioId) (hs.queue_moved he.sound h)
  have hdrops : ((t.droppedBy a : List QueuedItem) : Multiset QueuedItem).countP
      (fun item => item.isRequest ioId = true) = 0 := by
    rw [Multiset.countP_eq_zero]
    intro item hin
    simp [droppedBy_mem (Multiset.mem_coe.mp hin) ioId]
  rw [Multiset.countP_add, Multiset.countP_add, hdrops, countP_requests] at hheld
  rw [requestsOf_append, requestsOf_append] at hqueue
  rw [copies_held, copies_held]
  omega

/-- What carries the places of the requests from step to step. -/
structure Attended (t : IoTask N) : Prop where
  matching : Matching t
  emitting : t.Live → Emitting t
  single : t.Live → ∀ ioId, t.core.copies ioId = if ioId ∈ t.issued then 1 else 0
  remembers : t.Live → t.core.Remembers t.answerIds none

theorem Attended.new (builder : ProtocolBuilder N) : Attended (IoTask.new builder) where
  matching := .new builder
  emitting _ := .new builder
  single _ ioId := by simp [IoTask.new, IoCore.new, IoCore.copies]
  remembers _ := ⟨by simp [IoTask.new, IoCore.new], by simp [IoTask.new, IoCore.new, BiMap.empty]⟩

theorem Step.issued {a : IoAct} (hs : Step t a t') (h : t'.Live) (ioId : IoId) :
    (if ioId ∈ t'.issued then 1 else 0) = (if ioId ∈ t.issued then 1 else 0) +
      requestsOf ioId a.enqueues := by
  cases hs with
  | enqueue item issued _ hnew hissued =>
    subst hissued
    cases item with
    | request channel ioId' payload =>
      by_cases he : ioId' = ioId
      · subst he
        simp [IoAct.enqueues, requestsOf, QueuedItem.isRequest, hnew channel ioId' payload rfl]
      · have hne : ioId ≠ ioId' := fun h => he h.symm
        simp [IoAct.enqueues, requestsOf, QueuedItem.isRequest, he, hne]
    | _ => simp [IoAct.enqueues, requestsOf, QueuedItem.isRequest]
  | taken a _ _ _ ha _ _ _ | rejected a _ _ _ _ ha _ _ _ =>
    rcases ha with rfl | rfl <;> simp [IoAct.enqueues]
  | panic a _ => exact absurd rfl h.2.1
  | drainedClosed _ _ _ => exact absurd rfl (h.2.2 _)
  | _ => rfl

namespace Attended

theorem remembered {a : IoAct} (h : Attended t) (hok : keepsAnsweredId t a = true)
    (hs : Step t a t') (hlive : t'.Live) :
    t'.core.Remembers t'.answerIds none := by
  have hwas := hs.live h.matching.sound hlive
  have hr := h.remembers hwas
  have hm := h.matching.mapped hwas.2.2
  have hsound := h.matching.sound
  have hone := h.matching.unique.copies_le
  cases hs with
  | event outcome event core _ hnone hparse =>
    have hparsed := hparse.remembers hr hm hsound hone hnone
      (keepsAnsweredId_turn hok) hlive.1 (by simp)
    rwa [answerIds_of rfl]
  | failed outcome err core _ _ _ => exact absurd rfl (hlive.2.2 _)
  | selecting outcome core core' _ hnone hparse hready =>
    have hp : core.pendingError = none := hready.keeps.2.symm.trans hlive.1
    have hparsed := hparse.remembers hr hm hsound hone hnone (keepsAnsweredId_turn hok) hp (by simp)
    rw [show IoCore.answeredIn none = [] from rfl, List.append_nil] at hparsed
    have hmap : core'.requestMap = core.requestMap := by cases hready <;> rfl
    exact hparsed.idle hready.rest.2.1 hmap fun i => by rw [hready.rest.2.2]
  | writeAll current core position r _ hc _ hsent _ =>
    have hsound' := sound_currentWritten hsound hc current.frame.remaining
    cases hsent with
    | error active _ => exact hr.idle rfl rfl fun _ => rfl
    | scanned i c _ hq | violation i c err _ hq =>
      refine IoCore.Remembers.processWaitQueue ?_ (show IoCore.Mapped t.answerIds _ from ?_)
        (hsound'.cleared _ i) hone
        hwas.1 hq
      · exact hr.idle rfl rfl fun _ => rfl
      · exact hm.idle rfl rfl rfl rfl
  | writeAllError _ _ _ _ _ => exact absurd rfl (hlive.2.2 _)
  | taken a item rest core _ _ hq hi =>
    have hdeq : (t.dequeued rest).Remembers t.answerIds none := hr.idle rfl rfl fun _ => rfl
    have hmdeq : (t.dequeued rest).Mapped t.answerIds := hm.idle rfl rfl rfl rfl
    cases IoCore.handleIncomingItem_steps hi with
    | wait channel i _ _ => exact hdeq.idle rfl rfl fun _ => rfl
    | send _ _ _ hsend =>
      refine hdeq.sendStep hsend hlive.1 ?_
      intro ioId hio
      exact (hmdeq.unused (IoCore.unused_of_copies hio (hone ioId) (copies_dequeued hq ioId))).1
  | rejected a item rest core violation _ _ _ _ => exact absurd rfl (hlive.2.2 _)
  | _ => exact hr.idle rfl rfl fun _ => rfl

theorem step {a : IoAct} (h : Attended t) (hok : keepsAnsweredId t a = true) (hs : Step t a t') :
    Attended t' where
  matching := h.matching.step hok hs
  emitting hlive := (h.emitting (hs.live h.matching.sound hlive)).step hs hlive.1
  single hlive ioId := by
    have hwas := hs.live h.matching.sound hlive
    rw [hs.copies_live (h.emitting hwas) hlive, h.single hwas, hs.issued hlive]
  remembers hlive := h.remembered hok hs hlive

/-- While a task is live, a request that has been enqueued is in one place, and what is in the
request map is outstanding. -/
theorem in_one_place (h : Attended t) (hlive : t.Live) (ioId : IoId) :
    (requestsOf ioId t.core.receiver.queue + ∑ i, requestsOf ioId (t.core.waitQueue i) +
      (t.core.requestMap.pairs.map Prod.fst).count ioId + t.answerIds.count ioId =
        if ioId ∈ t.issued then 1 else 0) ∧
    ∀ key, (ioId, key) ∈ t.core.requestMap.pairs → t.core.Outstanding key ioId := by
  have hm := h.matching.mapped hlive.2.2
  have hr := h.remembers hlive
  refine ⟨?_, ?_⟩
  · have hcopies := h.single hlive ioId
    rw [IoCore.copies] at hcopies
    suffices hsame : (t.core.requestMap.pairs.map Prod.fst).count ioId + t.answerIds.count ioId =
        requestsOf ioId (t.core.history.map Sent.item) by omega
    have hmem : ioId ∈ t.core.requestMap.pairs.map Prod.fst ↔
        ∃ key, (ioId, key) ∈ t.core.requestMap.pairs := by
      simp
    have hmap := List.nodup_iff_count_le_one.mp t.core.requestMap.left_nodup ioId
    have hans := List.nodup_iff_count_le_one.mp h.matching.once ioId
    have hle : requestsOf ioId (t.core.history.map Sent.item) ≤ 1 := by
      split at hcopies <;> omega
    by_cases hmade : requestsOf ioId (t.core.history.map Sent.item) = 0
    · obtain ⟨hunmapped, hunanswered⟩ := hm.unused hmade
      have hzero : (t.core.requestMap.pairs.map Prod.fst).count ioId = 0 := by
        rw [List.count_eq_zero, hmem, not_exists]
        exact hunmapped
      rw [hmade, hzero, List.count_eq_zero.mpr hunanswered]
    · obtain ⟨item, hin, hreq⟩ := List.countP_pos_iff.mp (Nat.pos_of_ne_zero hmade)
      obtain ⟨sent, hsent, rfl⟩ := List.mem_map.mp hin
      rcases hr.made sent hsent ioId hreq with hanswered | ⟨key, hp⟩
      · have hpos := List.count_pos_iff.mpr hanswered
        have hzero : (t.core.requestMap.pairs.map Prod.fst).count ioId = 0 := by
          rw [List.count_eq_zero, hmem, not_exists]
          exact hm.gone ioId hanswered
        omega
      · have hpos := List.count_pos_iff.mpr (hmem.mpr ⟨key, hp⟩)
        have hzero : t.answerIds.count ioId = 0 := by
          rw [List.count_eq_zero]
          exact fun hanswered => hm.gone ioId hanswered key hp
        omega
  · intro key hp
    rcases hr.awaited ioId key hp with ⟨he, _⟩ | hw
    · simp at he
    · refine ⟨hm.owned ioId key hp, ?_⟩
      by_cases hlt : key.1.get.toNat < N
      · rw [IoCore.awaits_of (i := ⟨_, hlt⟩) rfl, decide_eq_true_iff] at hw
        exact ⟨⟨_, hlt⟩, rfl, hw⟩
      · simp [IoCore.awaits_unknown hlt] at hw

end Attended

/-- A request that has been enqueued is in the local queue, waits, is outstanding and in the request
map, or has been answered, in every run in which no answer is read while a request waits that can
get its id: it is in one of these places, and no other request is, as long as no error is to be sent
and `next_event` has not returned for good. -/
theorem request_in_one_place {builder : ProtocolBuilder N} (h : Reach builder keepsAnsweredId t)
    (hlive : t.Live) (ioId : IoId) :
    (requestsOf ioId t.core.receiver.queue + ∑ i, requestsOf ioId (t.core.waitQueue i) +
      (t.core.requestMap.pairs.map Prod.fst).count ioId + t.answerIds.count ioId =
        if ioId ∈ t.issued then 1 else 0) ∧
    ∀ key, (ioId, key) ∈ t.core.requestMap.pairs → t.core.Outstanding key ioId := by
  have ha : Attended t := Reach.keeps (Attended.new builder) (fun hP hok hs => hP.step hok hs) h
  exact ha.in_one_place hlive ioId

/-- The first request is outstanding and the second one waits for it. -/
def secondWaits : List IoAct :=
  [.enqueue (.request ⟨0⟩ ⟨1⟩ none), .turn, .recv, .enqueue (.request ⟨0⟩ ⟨2⟩ none), .tryRecv]

theorem request_in_one_place_second :
    ∃ t, Reach JulietProtocol.smallBuilder keepsAnsweredId t ∧ t.Live ∧
    (∑ i, requestsOf ⟨2⟩ (t.core.waitQueue i)) = 1 ∧ t.core.Outstanding (⟨0⟩, ⟨1⟩) ⟨1⟩ := by
  have hrun : (run JulietProtocol.smallBuilder keepsAnsweredId secondWaits).map
      (fun t => (t.core.pendingError, t.position,
      ∑ i, requestsOf ⟨2⟩ (t.core.waitQueue i), t.core.requestMap.pairs)) =
        some (none, .draining, 1, [(⟨1⟩, (⟨0⟩, ⟨1⟩))]) := rfl
  obtain ⟨t, ht, he⟩ := Option.map_eq_some_iff.mp hrun
  simp only [Prod.mk.injEq] at he
  obtain ⟨hp, hpos, hwaits, hmap⟩ := he
  have hreach : Reach JulietProtocol.smallBuilder keepsAnsweredId t :=
    Transition.Reach.exec .start ht
  have hlive : t.Live := ⟨hp, by simp [hpos], by simp [hpos]⟩
  exact ⟨t, hreach, hlive, hwaits, (request_in_one_place hreach hlive ⟨1⟩).2 _ (by rw [hmap]; simp)⟩

end IoTask

end Juliet
