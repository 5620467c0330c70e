import Juliet.AnswerOwners
import Juliet.Backpressure

namespace Juliet

open Rust

namespace IoTask

variable {N : Nat} {t t' : IoTask N}

/-- Polling a core gives out no ids. -/
theorem Step.issued_of_polls {a : IoAct} (hs : Step t a t') (ha : a.polls = true) :
    t'.issued = t.issued := by
  cases hs with
  | enqueue _ _ _ _ _ => simp [IoAct.polls] at ha
  | _ => rfl

theorem keepsAnsweredId_of_waits {a : IoAct} (ha : a.polls = false) :
    keepsAnsweredId t a = true := by
  cases a <;> first | rfl | simp [IoAct.polls] at ha

/-- What steps keep holds after a run of them. -/
theorem exec_keeps {P : IoTask N → Prop} {acts : List IoAct} (hP : P t)
    (hstep : ∀ {t t' a}, P t → keepsAnsweredId t a = true → Step t a t' → P t')
    (hacts : ∀ a ∈ acts, a.polls = false) (h : Transition.exec step anyStep acts t = some t') :
    P t' := by
  induction acts generalizing t with
  | nil =>
    cases Option.some.inj h
    exact hP
  | cons a acts ih =>
    obtain ⟨t₁, hs, he⟩ := Option.bind_eq_some_iff.mp h
    have ha := hacts a List.mem_cons_self
    exact ih (hstep hP (keepsAnsweredId_of_waits ha) (step_steps hs))
      (fun b hb => hacts b (List.mem_cons_of_mem a hb)) he

/-- An id that has been answered has been given out. -/
def AnsweredIssued (t : IoTask N) : Prop := ∀ ioId ∈ t.answerIds, ioId ∈ t.issued

theorem AnsweredIssued.step {a : IoAct} (h : AnsweredIssued t) (hm : Matching t')
    (hs : Step t a t') : AnsweredIssued t' := by
  have hsame : t'.events = t.events → (∀ ioId ∈ t.issued, ioId ∈ t'.issued) →
      AnsweredIssued t' := by
    intro he hi ioId hin
    rw [answerIds, he] at hin
    exact hi ioId (h ioId hin)
  cases hs with
  | enqueue item issued _ _ hissued =>
    refine hsame rfl ?_
    intro ioId hin
    cases item with
    | request _ ioId' _ => exact hissued ▸ Finset.mem_insert_of_mem hin
    | _ => exact hissued ▸ hin
  | event outcome event core htop _ _ =>
    intro ioId hin
    have hmapped := hm.mapped (by simp [htop])
    obtain ⟨sent, hsent, hreq⟩ := hmapped.made ioId hin
    have hpos : 0 < requestsOf ioId (core.history.map Sent.item) :=
      List.countP_pos_iff.mpr ⟨sent.item, List.mem_map_of_mem hsent, hreq⟩
    have hcopies := hm.unique ioId
    by_contra hne
    rw [if_neg hne, IoCore.copies] at hcopies
    dsimp only at hcopies
    omega
  | _ => exact hsame rfl fun _ hin => hin

theorem Offered.mem_issued {items : List QueuedItem} (h : Offered items t t') (ioId : IoId) :
    ioId ∈ t'.issued ↔ ioId ∈ t.issued ∨ 0 < requestsOf ioId items := by
  have hi := h.issued ioId
  by_cases hnew : ioId ∈ t'.issued <;> by_cases hold : ioId ∈ t.issued <;> simp [hnew,
    hold] at hi ⊢ <;> omega

theorem Offered.answerIds {items : List QueuedItem} (h : Offered items t t') :
    t'.answerIds = t.answerIds := by
  rw [IoTask.answerIds, IoTask.answerIds, h.events]

end IoTask

namespace RpcTask

variable {t t' : RpcTask}

theorem Leads.one {a : RpcAct} (hs : t.step a = some t') : Leads t t' :=
  Transition.Reach.start.step rfl hs

theorem Leads.custody (h : Leads t t') (hc : Custody t) (hl : LeftNothing t) :
    Custody t' ∧ LeftNothing t' :=
  Transition.Reach.invariant (P := fun t => Custody t ∧ LeftNothing t) h ⟨hc, hl⟩
    fun hP _ hs => ⟨hP.1.step (step_steps hs), hP.2.step (step_steps hs)⟩

theorem settle_pending {ioId ioId' : IoId} {value : Except RequestError (Option Bytes)}
    (h : ioId' ∈ (t.settle ioId value).pending) : ioId' ∈ t.pending ∧ ioId' ≠ ioId := by
  unfold settle at h
  split at h
  next hnone =>
    refine ⟨h, ?_⟩
    rintro rfl
    exact AList.lookup_eq_none.mp hnone h
  next =>
    obtain ⟨hne, hin⟩ := AList.mem_erase.mp h
    exact ⟨hin, hne⟩

theorem step_event_pending {event : IoEvent} {ioId : IoId} (h : t.step (.event event) = some t')
    (hin : ioId ∈ t'.pending) : ioId ∈ t.pending ∧ event.answerId ≠ some ioId := by
  simp only [step] at h
  split at h
  next =>
    cases Option.some.inj h
    cases event with
    | newRequest | requestCancelled => exact ⟨hin, by simp [IoEvent.answerId]⟩
    | receivedResponse ioId' payload | receivedCancellationResponse ioId' =>
      obtain ⟨hwas, hne⟩ := settle_pending hin
      exact ⟨hwas, fun he => hne (Option.some.inj he).symm⟩
  next => simp at h

end RpcTask

namespace RpcNode

variable {N : Nat} {builder : RpcBuilder N} {s s' : RpcNode N}

/-- When an answer is read, none of the requests that wait on its channel can get the answered
id. -/
def keepsAnsweredId (s : RpcNode N) : NodeAct → Bool
  | .poll a => s.io.keepsAnsweredId a
  | _ => true

/-- What every step of a core keeps is kept by the steps of its node. -/
theorem Step.io_keeps {P : IoTask N → Prop} {a : NodeAct} (hs : Step builder s a s') (hP : P s.io)
    (hstep : ∀ {t t' a}, P t → IoTask.keepsAnsweredId t a = true → IoTask.Step t a t' → P t')
    (hok : s.keepsAnsweredId a = true) : P s'.io := by
  have hoffered : ∀ {items io}, IoTask.Offered items s.io io → P io := by
    intro items io ho
    obtain ⟨acts, _, hwaits, he⟩ := ho.run
    exact IoTask.exec_keeps hP hstep hwaits he
  cases hs with
  | reserve | queue | dropTicket | drop => exact hP
  | serve _ _ _ _ _ _ _ ho | answer _ _ _ _ _ _ _ _ _ ho | customError _ _ _ _ _ ho =>
    exact hoffered ho
  | poll a deadline io rpc _ _ hio _ => exact hstep hP hok (IoTask.step_steps hio)

/-- What polling the core has told the server. -/
theorem polled {a : IoAct} {io : IoTask N} {rpc : RpcTask} (hio : IoTask.Step s.io a io)
    (hrpc : returned (s.told io) (io.events.drop s.io.events.length) io.position = some rpc) :
    (io.events = s.io.events ∧
      (rpc = s.told io ∨ ∃ err, (s.told io).step (.coreEnds err) = some rpc)) ∨
      ∃ event, io.events = s.io.events ++ [event] ∧ (s.told io).step (.event event) = some rpc := by
  rcases hio.events with he | ⟨event, he, _⟩
  · left
    rw [he, List.drop_length] at hrpc
    refine ⟨he, ?_⟩
    unfold returned at hrpc
    split at hrpc
    next hcons => simp at hcons
    next exit _ => exact .inr ⟨_, hrpc⟩
    next => exact .inl (Option.some.inj hrpc).symm
  · right
    rw [he, List.drop_left] at hrpc
    exact ⟨event, he, hrpc⟩

theorem told_leads (s : RpcNode N) (io : IoTask N) : RpcTask.Leads s.rpc (s.told io) := by
  unfold told
  split
  next => exact .one (a := .coreCloses) rfl
  next => exact .start

/-- A node takes its server along the server's own steps. -/
theorem Step.leads {a : NodeAct} (hs : Step builder s a s') : RpcTask.Leads s.rpc s'.rpc := by
  cases hs with
  | reserve | dropTicket | answer | customError => exact .start
  | queue _ _ _ _ _ _ _ hrpc => exact .one hrpc
  | serve _ b _ _ _ hrpc _ _ => exact .one hrpc
  | drop hpos => exact .one (a := .drop) (if_neg hpos)
  | poll a deadline io rpc _ _ hio hrpc =>
    rcases polled (IoTask.step_steps hio) hrpc with ⟨_, rfl | ⟨err, hends⟩⟩ | ⟨event, _, hevent⟩
    · exact s.told_leads io
    · exact Transition.Reach.trans (s.told_leads io) (RpcTask.Leads.one hends)
    · exact Transition.Reach.trans (s.told_leads io) (RpcTask.Leads.one hevent)

/-- What a server and its core have in common: a request that has been taken up has been sent to the
core, under an id that is used once, and is pending until the core has reported its answer. -/
structure Shared (s : RpcNode N) : Prop where
  opened : s.rpc.position ≠ .dropped → s.rpc.coreClosed = false → s.io.core.receiver.closed = false
  issued : ∀ ioId ∈ s.io.issued, ioId ∈ s.rpc.issued
  fresh : ∀ new ∈ s.rpc.newRequests, new.ticket.ioId ∉ s.io.issued
  pending : ∀ ioId ∈ s.rpc.pending, ioId ∈ s.io.issued ∧ ioId ∉ s.io.answerIds
  events : s.rpc.events = s.io.events

namespace Shared

/-- The permits are no part of it. -/
theorem afresh {free : Fin N → Nat} (h : Shared s) : Shared { s with free } :=
  ⟨h.opened, h.issued, h.fresh, h.pending, h.events⟩

/-- Items that are no requests. -/
theorem offered {items : List QueuedItem} {io : IoTask N} {incoming : List IncomingRequest}
    (h : Shared s) (ho : IoTask.Offered items s.io io)
    (hitems : ∀ ioId, requestsOf ioId items = 0) : Shared { s with io, incoming } := by
  have hissued : ∀ ioId, ioId ∈ io.issued ↔ ioId ∈ s.io.issued := by
    intro ioId
    simp [ho.mem_issued, hitems]
  refine ⟨?_, ?_, ?_, ?_, ?_⟩
  · intro hpos hopen
    rw [ho.core]
    exact h.opened hpos hopen
  · exact fun ioId hin => h.issued ioId ((hissued ioId).mp hin)
  · exact fun new hnew hin => h.fresh new hnew ((hissued _).mp hin)
  · intro ioId hin
    obtain ⟨hi, ha⟩ := h.pending ioId hin
    exact ⟨(hissued ioId).mpr hi, ho.answerIds ▸ ha⟩
  · exact h.events.trans ho.events.symm

theorem queued {ticket : RequestTicket} {payload : Option Bytes} {rpc : RpcTask}
    {tickets : List RequestTicket} (h : Shared s) (hq : RpcTask.Queues ticket payload s.rpc rpc)
    (hp : rpc.pending = s.rpc.pending) : Shared { s with rpc, tickets } := by
  refine ⟨?_, ?_, ?_, ?_, ?_⟩
  · intro hpos hopen
    exact h.opened (hq.position ▸ hpos) (hq.coreClosed ▸ hopen)
  · intro ioId hin
    rw [hq.issued]
    exact Finset.mem_insert_of_mem (h.issued ioId hin)
  · intro new hnew hin
    rcases hq.requests with hsame | ⟨expires, hmore⟩
    · exact h.fresh new (hsame ▸ hnew) hin
    · rw [hmore, List.mem_append, List.mem_singleton] at hnew
      rcases hnew with hnew | rfl
      · exact h.fresh new hnew hin
      · exact hq.unused (h.issued _ hin)
  · intro ioId hin
    exact h.pending ioId (hp ▸ hin)
  · exact hq.events.trans h.events

/-- What the server sends to a core that is open arrives there. -/
theorem arriving_of_open (h : Shared s) (hpos : s.rpc.position ≠ .dropped)
    (hopen : s.rpc.coreClosed = false) (items : List QueuedItem) : s.arriving items = items := by
  rw [arriving, isOpen, h.opened hpos hopen]
  simp [hpos]

/-- The server takes up a request. -/
theorem takes {new : NewOutgoingRequest} {rpc : RpcTask} {io : IoTask N} {items : List QueuedItem}
    (h : Shared s) (hc : s.rpc.Custody) (hl : s.rpc.LeftNothing)
    (hm : RpcTask.Moves items s.rpc rpc) (ho : IoTask.Offered (s.arriving items) s.io io)
    (hanswered : s.io.AnsweredIssued) (hnew : s.rpc.newRequests = new :: rpc.newRequests)
    (hitems : items =
      if s.rpc.coreClosed then [] else [.request new.ticket.channel new.ticket.ioId new.payload])
    (hpending : rpc.pending = if s.rpc.coreClosed then s.rpc.pending
      else s.rpc.pending.insert new.ticket.ioId new.guard) :
    Shared { s with rpc, io } := by
  have hpos : s.rpc.position ≠ .dropped := by
    intro hd
    rw [(hl hd).2.1] at hnew
    simp at hnew
  have hwaits : (new.guard, new.ticket.ioId) ∈ s.rpc.places :=
    List.mem_append_left _ (List.mem_map.mpr ⟨new, hnew ▸ List.mem_cons_self, rfl⟩)
  have hissued : ∀ ioId, ioId ∈ io.issued ↔ ioId ∈ s.io.issued ∨ s.rpc.coreClosed = false ∧
      ioId = new.ticket.ioId := by
    intro ioId
    rw [ho.mem_issued]
    refine or_congr Iff.rfl ?_
    cases hclosed : s.rpc.coreClosed with
    | true => simp [hitems, hclosed, arriving, requestsOf]
    | false =>
      rw [h.arriving_of_open hpos hclosed, hitems, hclosed]
      by_cases he : new.ticket.ioId = ioId
      · simp [requestsOf, QueuedItem.isRequest, he]
      · have hne : ioId ≠ new.ticket.ioId := fun h => he h.symm
        simp [requestsOf, QueuedItem.isRequest, he, hne]
  refine ⟨?_, ?_, ?_, ?_, ?_⟩
  · intro hpos' hopen
    rw [ho.core]
    exact h.opened hpos (hm.coreClosed ▸ hopen)
  · intro ioId hin
    rw [hm.issued]
    rcases (hissued ioId).mp hin with hin | ⟨_, rfl⟩
    · exact h.issued ioId hin
    · exact hc.issued _ (List.mem_filter.mp (hc.places.subset hwaits)).1
  · intro other hother hin
    rcases (hissued _).mp hin with hin | ⟨_, he⟩
    · exact h.fresh other (hnew ▸ List.mem_cons_of_mem new hother) hin
    · have hapart := hc.ids_apart
      simp only [RpcTask.places, hnew, List.map_cons, List.map_append,
        List.map_map, List.cons_append, List.nodup_cons] at hapart
      exact hapart.1 (he ▸ List.mem_append_left _ (List.mem_map.mpr ⟨other, hother, rfl⟩))
  · intro ioId hin
    rw [ho.answerIds]
    have hold : ioId ∈ s.rpc.pending → ioId ∈ io.issued ∧ ioId ∉ s.io.answerIds := by
      intro hwas
      obtain ⟨hi, ha⟩ := h.pending ioId hwas
      exact ⟨(hissued ioId).mpr (.inl hi), ha⟩
    change ioId ∈ rpc.pending at hin
    rw [hpending] at hin
    split at hin
    next => exact hold hin
    next hopen =>
      rcases (AList.mem_insert _).mp hin with rfl | hwas
      · refine ⟨(hissued _).mpr (.inr ⟨by simpa using hopen, rfl⟩), ?_⟩
        exact fun ha => h.fresh new (hnew ▸ List.mem_cons_self) (hanswered _ ha)
      · exact hold hwas
  · exact (hm.events.trans h.events).trans ho.events.symm

theorem serves {a : NodeAct} {b : RpcAct} {rpc : RpcTask} {io : IoTask N} (h : Shared s)
    (hc : s.rpc.Custody) (hl : s.rpc.LeftNothing) (hanswered : s.io.AnsweredIssued)
    (hb : RpcNode.serves a = some b) (hrpc : s.rpc.step b = some rpc)
    (ho : IoTask.Offered (s.arriving (s.newItems rpc)) s.io io) : Shared { s with rpc, io } := by
  obtain ⟨items, hm⟩ := RpcTask.moves_of_serves hb hrpc
  have hitems : s.newItems rpc = items := by rw [newItems, hm.enqueued, List.drop_left]
  rw [hitems] at ho
  rcases hm.requests with ⟨new, hnew, hsent, hpending⟩ | ⟨hnew, hcancels, hpending⟩
  · exact h.takes hc hl hm ho hanswered hnew hsent hpending
  · have hnone : ∀ ioId, requestsOf ioId (s.arriving items) = 0 := by
      intro ioId
      refine Nat.le_zero.mp ((s.countP_arriving_le items _).trans (Nat.le_zero.mpr ?_))
      rw [List.countP_eq_zero]
      intro item hin
      obtain ⟨ioId', rfl⟩ := hcancels item hin
      simp [QueuedItem.isRequest]
    have hshared : Shared { s with io, incoming := s.incoming } := h.offered ho hnone
    refine ⟨?_, ?_, ?_, ?_, ?_⟩
    · intro hpos hopen
      exact hshared.opened (fun hd => hpos (hm.dropped.mpr hd)) (hm.coreClosed ▸ hopen)
    · exact fun ioId hin => hm.issued ▸ hshared.issued ioId hin
    · exact fun new hin => hshared.fresh new (hnew ▸ hin)
    · exact fun ioId hin => hshared.pending ioId (hpending ioId hin)
    · exact hm.events.trans hshared.events

/-- What the server is told of its core changes nothing that they share. -/
theorem told {io : IoTask N} (h : Shared s) (hi : io.issued = s.io.issued)
    (he : io.events = s.io.events) :
    Shared { s with rpc := s.told io, io } := by
  have hsame : (s.told io).issued = s.rpc.issued ∧ (s.told io).newRequests = s.rpc.newRequests ∧
      (s.told io).pending = s.rpc.pending ∧ (s.told io).events = s.rpc.events := by
    unfold RpcNode.told
    split <;> exact ⟨rfl, rfl, rfl, rfl⟩
  obtain ⟨hissued, hnew, hpending, hevents⟩ := hsame
  refine ⟨?_, ?_, ?_, ?_, ?_⟩
  · intro _ hopen
    cases hclosed : io.core.receiver.closed with
    | true => simp [RpcNode.told, hclosed] at hopen
    | false => rfl
  · exact fun ioId hin => hissued ▸ h.issued ioId (hi ▸ hin)
  · exact fun new hin hin' => h.fresh new (hnew ▸ hin) (hi ▸ hin')
  · intro ioId hin
    obtain ⟨hissued', hunanswered⟩ := h.pending ioId (hpending ▸ hin)
    exact ⟨hi ▸ hissued', by rwa [IoTask.answerIds, he]⟩
  · exact (hevents.trans h.events).trans he.symm

theorem polls {a : IoAct} {deadline : Nat} {io : IoTask N} {rpc : RpcTask}
    {incoming : List IncomingRequest} (h : Shared s) (hselect : s.rpc.position = .select deadline)
    (ha : a.polls = true) (hio : IoTask.Step s.io a io)
    (hrpc : returned (s.told io) (io.events.drop s.io.events.length) io.position = some rpc) :
    Shared { s with io, rpc, incoming } := by
  have hissued := hio.issued_of_polls ha
  have hpos : s.rpc.position ≠ .dropped := by simp [hselect]
  rcases polled hio hrpc with ⟨he, rfl | ⟨err, hends⟩⟩ | ⟨event, he, hevent⟩
  · obtain ⟨h₁, h₂, h₃, h₄, h₅⟩ := h.told hissued he
    exact ⟨h₁, h₂, h₃, h₄, h₅⟩
  · obtain ⟨h₁, h₂, h₃, h₄, h₅⟩ := h.told hissued he
    simp only [RpcTask.step] at hends
    split at hends
    next hsel =>
      cases Option.some.inj hends
      exact ⟨fun _ => h₁ (by simp [hsel]), h₂, h₃, h₄, h₅⟩
    next => simp at hends
  · -- the core as it was, but for the event
    have hbefore : Shared { s with rpc := s.told io, io := { io with events := s.io.events } } :=
      h.told hissued rfl
    obtain ⟨htop, hnew, hclosed, hi, _, hevents⟩ := RpcTask.step_event_keeps hevent
    have hsel : (s.told io).position ≠ .dropped := by
      unfold RpcNode.told
      split <;> exact hpos
    refine ⟨?_, ?_, ?_, ?_, ?_⟩
    · exact fun _ hopen => hbefore.opened hsel (hclosed ▸ hopen)
    · exact fun ioId hin => hi ▸ hbefore.issued ioId hin
    · exact fun new hin => hbefore.fresh new (hnew ▸ hin)
    · intro ioId hin
      obtain ⟨hwas, hne⟩ := RpcTask.step_event_pending hevent hin
      obtain ⟨hgiven, hunanswered⟩ := hbefore.pending ioId hwas
      refine ⟨hgiven, ?_⟩
      rw [IoTask.answerIds_of he, List.mem_append, not_or]
      exact ⟨hunanswered, by simpa [Option.mem_toList] using hne⟩
    · exact hevents.trans ((congrArg (· ++ [event]) hbefore.events).trans he.symm)

theorem step {a : NodeAct} (h : Shared s) (hc : s.rpc.Custody) (hl : s.rpc.LeftNothing)
    (hanswered : s.io.AnsweredIssued) (hs : Step builder s a s') : Shared s' := by
  cases hs with
  | reserve | dropTicket => exact ⟨h.opened, h.issued, h.fresh, h.pending, h.events⟩
  | queue ticket payload timeout timeout' now rpc _ hrpc =>
    have hq : s.rpc.queueForSending (some ticket) payload timeout' now = some rpc := hrpc
    exact (h.queued (RpcTask.queues_of_queueForSending hq)
      (RpcTask.queued_queueForSending hq).pending).afresh
  | serve _ b rpc io hb hrpc _ ho => exact (h.serves hc hl hanswered hb hrpc ho).afresh
  | drop _ =>
    refine ⟨?_, h.issued, ?_, ?_, h.events⟩
    · simp [RpcTask.dropServer]
    · simp [RpcTask.dropServer]
    · simp [RpcTask.dropServer]
  | poll a deadline io rpc hselect ha hio hrpc =>
    exact (h.polls hselect ha (IoTask.step_steps hio) hrpc).afresh
  | answer _ k request item io _ _ hitem _ ho =>
    refine (h.offered ho ?_).afresh
    intro ioId
    refine Nat.le_zero.mp ((s.countP_arriving_le [item] _).trans (Nat.le_zero.mpr ?_))
    rcases hitem with rfl | ⟨payload, rfl⟩ <;> rfl
  | customError channel id payload io _ ho =>
    refine (show Shared { s with io, incoming := s.incoming } from h.offered ho ?_).afresh
    intro ioId
    exact Nat.le_zero.mp ((s.countP_arriving_le [.error channel id payload] _).trans le_rfl)

end Shared

/-- What carries the places of the requests of a node from step to step. -/
structure Tied (s : RpcNode N) : Prop where
  custody : s.rpc.Custody
  left : s.rpc.LeftNothing
  attended : s.io.Attended
  answered : s.io.AnsweredIssued
  shared : Shared s

theorem Tied.new (builder : RpcBuilder N) : Tied (RpcNode.new builder) where
  custody := .new builder.bubbleTimeouts
  left := by simp [RpcTask.LeftNothing, RpcNode.new, RpcTask.new]
  attended := .new builder.core.protocol
  answered := by simp [IoTask.AnsweredIssued, RpcNode.new, IoTask.new, IoTask.answerIds]
  shared := by
    refine ⟨?_, ?_, ?_, ?_, ?_⟩ <;> simp [RpcNode.new, RpcTask.new, IoTask.new, IoCore.new]

theorem Tied.step {a : NodeAct} (h : Tied s) (hok : s.keepsAnsweredId a = true)
    (hs : Step builder s a s') : Tied s' := by
  obtain ⟨hcustody, hleft⟩ := hs.leads.custody h.custody h.left
  have hio : s'.io.Attended ∧ s'.io.AnsweredIssued := by
    refine hs.io_keeps (P := fun t => t.Attended ∧ t.AnsweredIssued) ⟨h.attended, h.answered⟩ ?_ hok
    intro t t' a hP hok hs
    have hattended := hP.1.step hok hs
    exact ⟨hattended, hP.2.step hattended.matching hs⟩
  exact ⟨hcustody, hleft, hio.1, hio.2, h.shared.step h.custody h.left h.answered hs⟩

/-- A request whose guard is not resolved is in the channel to the server, or in one place of the
core. -/
theorem Tied.in_one_place {guard : Nat} {ioId : IoId} (h : Tied s) (hlive : s.io.Live)
    (hsent : (guard, ioId) ∈ s.rpc.sent) (hwaits : unresolved s.rpc.guards guard = true) :
    s.rpc.newRequests.countP (fun new => new.ticket.ioId = ioId) +
      requestsOf ioId s.io.core.receiver.queue +
        ∑ i, requestsOf ioId (s.io.core.waitQueue i) +
          (s.io.core.requestMap.pairs.map Prod.fst).count ioId = 1 := by
  have hplace : (guard, ioId) ∈ s.rpc.places :=
    h.custody.places.mem_iff.mpr (List.mem_filter.mpr ⟨hsent, hwaits⟩)
  have hcore := (h.attended.in_one_place hlive ioId).1
  have hcount : s.rpc.newRequests.countP (fun new => new.ticket.ioId = ioId) =
      (s.rpc.newRequests.map fun new => new.ticket.ioId).count ioId := by
    rw [List.count, List.countP_map]
    exact List.countP_congr (by simp)
  rcases List.mem_append.mp hplace with hnew | hpending
  · obtain ⟨new, hnew, he⟩ := List.mem_map.mp hnew
    have hid : new.ticket.ioId = ioId := congrArg Prod.snd he
    have hone : (s.rpc.newRequests.map fun new => new.ticket.ioId).count ioId = 1 := by
      refine List.count_eq_one_of_mem ?_ (List.mem_map.mpr ⟨new, hnew, hid⟩)
      have hapart := h.custody.ids_apart
      rw [RpcTask.places, List.map_append, List.map_map] at hapart
      exact hapart.of_append_left
    rw [if_neg (hid ▸ h.shared.fresh new hnew)] at hcore
    omega
  · obtain ⟨entry, hentry, he⟩ := List.mem_map.mp hpending
    have hid : entry.1 = ioId := congrArg Prod.snd he
    obtain ⟨hissued, hunanswered⟩ :=
      h.shared.pending ioId (hid ▸ AList.mem_keys.mpr (List.mem_map_of_mem hentry))
    have hnone : (s.rpc.newRequests.map fun new => new.ticket.ioId).count ioId = 0 := by
      rw [List.count_eq_zero]
      intro hin
      obtain ⟨new, hnew, hid'⟩ := List.mem_map.mp hin
      exact h.shared.fresh new hnew (hid' ▸ hissued)
    rw [if_pos hissued, List.count_eq_zero.mpr hunanswered] at hcore
    omega

/-- In every run in which no answer is read while a request waits that can get its id, a request
whose guard is not resolved is in one place: in the channel to the server, in the local queue, in a
wait queue, or in the request map, and then it is outstanding and the guard is pending under its
id. -/
theorem waiting_request_in_one_place
    (h : Transition.Reach (step builder) (fun s a => s.keepsAnsweredId a) (.new builder) s)
    (hlive : s.io.Live) {guard : Nat} {ioId : IoId} (hsent : (guard, ioId) ∈ s.rpc.sent)
    (hwaits : unresolved s.rpc.guards guard = true) :
    s.rpc.newRequests.countP (fun new => new.ticket.ioId = ioId) +
      requestsOf ioId s.io.core.receiver.queue +
        ∑ i, requestsOf ioId (s.io.core.waitQueue i) +
          (s.io.core.requestMap.pairs.map Prod.fst).count ioId = 1 ∧
      ∀ key, (ioId, key) ∈ s.io.core.requestMap.pairs →
        s.io.core.Outstanding key ioId ∧ s.rpc.pending.lookup ioId = some guard := by
  have ht : Tied s := Transition.Reach.invariant h (Tied.new builder)
    fun hP hok hs => hP.step hok (step_steps hs)
  have hone := ht.in_one_place hlive hsent hwaits
  refine ⟨hone, ?_⟩
  intro key hkey
  refine ⟨(ht.attended.in_one_place hlive ioId).2 key hkey, ?_⟩
  have hmapped : 0 < (s.io.core.requestMap.pairs.map Prod.fst).count ioId :=
    List.count_pos_iff.mpr (List.mem_map.mpr ⟨_, hkey, rfl⟩)
  have hnone : s.rpc.newRequests.countP (fun new => new.ticket.ioId = ioId) = 0 := by omega
  have hplace : (guard, ioId) ∈ s.rpc.places :=
    ht.custody.places.mem_iff.mpr (List.mem_filter.mpr ⟨hsent, hwaits⟩)
  rcases List.mem_append.mp hplace with hnew | hpending
  · obtain ⟨new, hnew, he⟩ := List.mem_map.mp hnew
    exact absurd (by simpa using congrArg Prod.snd he) (List.countP_eq_zero.mp hnone new hnew)
  · obtain ⟨entry, hentry, he⟩ := List.mem_map.mp hpending
    obtain ⟨rfl, rfl⟩ := Prod.mk.inj he
    exact AList.mem_lookup_iff.mpr hentry

theorem waiting_request_in_one_place_second :
    ∃ s : RpcNode 1, s.io.Live ∧ requestsOf ⟨1⟩ (s.io.core.waitQueue 0) = 1 ∧
    s.io.core.Outstanding (⟨0⟩, ⟨1⟩) ⟨0⟩ ∧ s.rpc.pending.lookup ⟨0⟩ = some 0 := by
  have hrun : (Transition.exec (step smallBuilder) keepsAnsweredId bufferFull
      (.new smallBuilder)).map (fun s =>
      (s.io.core.pendingError, s.io.position, s.rpc.sent, unresolved s.rpc.guards 0,
        s.io.core.requestMap.pairs,
        requestsOf ⟨1⟩ (s.io.core.waitQueue 0))) =
      some (none, .draining, [(0, ⟨0⟩), (1, ⟨1⟩)], true, [(⟨0⟩, (⟨0⟩, ⟨1⟩))], 1) := rfl
  obtain ⟨s, hs, he⟩ := Option.map_eq_some_iff.mp hrun
  simp only [Prod.mk.injEq] at he
  obtain ⟨hp, hpos, hsent, hwaits, hmap, hqueue⟩ := he
  have hlive : s.io.Live := ⟨hp, by simp [hpos], by simp [hpos]⟩
  have hplaces := waiting_request_in_one_place (Transition.Reach.exec .start hs) hlive
    (show (0, ⟨0⟩) ∈ s.rpc.sent by rw [hsent]; simp) hwaits
  exact ⟨s, hlive, hqueue, hplaces.2 _ (by rw [hmap]; simp)⟩

end RpcNode

end Juliet
