import Juliet.Conversation

namespace Juliet

open Rust

/-- The request that a message carries under a channel and id: its id on this side and its
payload. -/
def Sent.requestUnder (key : ChannelId × Id) (sent : Sent) : Option (IoId × Option Bytes) :=
  match sent.item with
  | .request channel ioId payload =>
    if (channel, sent.msg.header.id) = key then some (ioId, payload) else none
  | _ => none

/-- The answer that an event reports, under a channel and id. -/
def IoEvent.asRead (key : ChannelId × Id) : IoEvent → Option CompletedRead
  | .receivedResponse _ payload => some (.receivedResponse key.1 key.2 payload)
  | .receivedCancellationResponse _ => some (.responseCancellation key.1 key.2)
  | _ => none

theorem Sent.requestUnder_announced (key : ChannelId × Id) (sent : Sent) :
    (requestsUnder key sent.announced.toList) =
      (sent.requestUnder key).toList.map fun request => .newRequest key.1 key.2 request.2 := by
  obtain ⟨item, msg⟩ := sent
  cases item with
  | request channel ioId payload =>
    by_cases hkey : (channel, msg.header.id) = key
    · subst hkey
      simp [announced, requestUnder, requestsUnder, CompletedRead.asked]
    · simp [announced, requestUnder, requestsUnder, CompletedRead.asked, hkey]
  | _ => simp [announced, requestUnder, requestsUnder, CompletedRead.asked]

namespace IoCore

variable {N : Nat} {self c : IoCore N}

/-- The requests created with a channel and id, in order. -/
def requests (self : IoCore N) (key : ChannelId × Id) : List (IoId × Option Bytes) :=
  self.history.filterMap (Sent.requestUnder key)

theorem requestsUnder_history (key : ChannelId × Id) (history : List Sent) :
    requestsUnder key (history.filterMap Sent.announced) =
      (history.filterMap (Sent.requestUnder key)).map
        fun request => .newRequest key.1 key.2 request.2 := by
  induction history with
  | nil => rfl
  | cons sent history ih =>
    have hone : ∀ {β : Type} (f : Sent → Option β), (sent :: history).filterMap f =
        (f sent).toList ++ history.filterMap f := by
      intro β f
      rw [List.filterMap_cons]
      cases f sent <;> rfl
    rw [hone, hone, requestsUnder_append, List.map_append, ih, Sent.requestUnder_announced]

theorem requestsUnder_announced (self : IoCore N) (key : ChannelId × Id) :
    requestsUnder key self.announced =
      (self.requests key).map fun request => .newRequest key.1 key.2 request.2 :=
  requestsUnder_history key self.history

/-- The owner of a channel and id is the last request created with them. -/
theorem owner_requests (history : List Sent) (key : ChannelId × Id) :
    owner history key = ((history.filterMap (Sent.requestUnder key)).getLast?).map Prod.fst := by
  induction history using List.reverseRecOn with
  | nil => rfl
  | append_singleton history sent ih =>
    rw [List.filterMap_append]
    obtain ⟨item, msg⟩ := sent
    cases item with
    | request channel ioId payload =>
      rw [owner_request]
      by_cases hkey : (channel, msg.header.id) = key
      · simp [hkey, Sent.requestUnder]
      · simpa [hkey, Sent.requestUnder] using ih
    | _ =>
      rw [owner_other key (by simp [QueuedItem.isRequest])]
      simpa [Sent.requestUnder] using ih

theorem handleCompletedRead_asRead {read : CompletedRead} {event : IoEvent} {key : ChannelId × Id}
    (h : (self.handleCompletedRead read).1 = .ok event) (hkey : read.answered = some key) :
    event.asRead key = some read := by
  cases read with
  | receivedResponse channel id payload | responseCancellation channel id =>
    cases Option.some.inj hkey
    simp only [handleCompletedRead] at h
    split at h
    next =>
      cases Except.ok.inj h
      rfl
    next => simp at h
  | _ => simp [CompletedRead.answered] at hkey

theorem ParseStep.asRead {read : CompletedRead} {event : IoEvent} {key : ChannelId × Id}
    (hs : ParseStep self (some (.success read)) (some (.ok event)) c)
    (hkey : read.answered = some key) :
    event.asRead key = some read := by
  generalize ho : some (Outcome.success read) = outcome at hs
  generalize hr : some (Except.ok event) = result at hs
  cases hs with
  | event read' juliet buffer _ _ =>
    cases Outcome.success.inj (Option.some.inj ho)
    exact handleCompletedRead_asRead (Option.some.inj hr).symm hkey
  | response channel id payload juliet buffer c _ _ _ =>
    cases Outcome.success.inj (Option.some.inj ho)
    exact handleCompletedRead_asRead (Option.some.inj hr).symm hkey
  | _ => simp at ho hr

end IoCore

namespace IoTask

variable {N : Nat} {t t' : IoTask N}

/-- A step reports one event at most, and then about what it has read. -/
theorem Step.events {a : IoAct} (hs : Step t a t') : t'.events = t.events ∨
    ∃ event, t'.events = t.events ++ [event] ∧ ∀ read key, t'.outcomes =
      t.outcomes ++ [.success read] →
      read.answered = some key → event.asRead key = some read := by
  cases hs with
  | event outcome event core _ _ hparse =>
    refine .inr ⟨event, rfl, ?_⟩
    intro read key ho hkey
    have he : outcome = some (.success read) := by
      cases outcome with
      | none => simp at ho
      | some o => simpa using ho
    subst he
    exact hparse.asRead hkey
  | _ => exact .inl rfl

end IoTask

namespace IoNet

variable {N : Nat} {builder : ProtocolBuilder N} {s s' : IoNet N} {x : Bool}

/-- The event that an end reports is the answer that the peer has given to this request: the request
was enqueued, the peer has read it, and the answer to it is the one with the same place among those
that were enqueued there. -/
def Belongs (x : Bool) (s : IoNet N) (event : IoEvent) (ioId : IoId) : Prop :=
  ∃ (key : ChannelId × Id) (j : Nat) (payload : Option Bytes),
    .request key.1 ioId payload ∈ (s x).enqueued ∧
    ((s x).task.core.requests key)[j]? = some (ioId, payload) ∧
    (requestsUnder key (s !x).task.reads)[j]? = some (.newRequest key.1 key.2 payload) ∧
    (answersUnder key (s !x).answers)[j]? = event.asRead key

/-- What belongs together stays together. -/
theorem Belongs.mono {event : IoEvent} {ioId : IoId} (h : Belongs x s event ioId)
    (hid : event.answerId = some ioId) (henq : (s x).enqueued <+: (s' x).enqueued)
    (hh : (s x).task.core.history <+: (s' x).task.core.history)
    (hreads : (s !x).task.reads <+: (s' !x).task.reads)
    (hpeer : (s !x).enqueued <+: (s' !x).enqueued) :
    Belongs x s' event ioId := by
  obtain ⟨key, j, payload, hin, hrequest, hread, hanswer⟩ := h
  obtain ⟨read, hevent⟩ : ∃ read, event.asRead key = some read := by
    cases event <;> simp_all [IoEvent.answerId, IoEvent.asRead]
  rw [hevent] at hanswer
  refine ⟨key, j, payload, henq.subset hin, List.getElem?_of_prefix (hh.filterMap _) hrequest,
    List.getElem?_of_prefix (hreads.filter _) hread, ?_⟩
  rw [hevent]
  exact List.getElem?_of_prefix ((hpeer.filterMap _).filter _) hanswer

/-- An answer that is read belongs to the request that is outstanding. -/
theorem Talks.belongs {read : CompletedRead} {event : IoEvent} {key : ChannelId × Id} {ioId : IoId}
    (h : Talks x key s) (h' : Talks x key s') (hb : (s x).task.Balanced)
    (howner : owner (s x).task.core.history key = some ioId)
    (hreads : (s' x).task.reads = (s x).task.reads ++ [read]) (hkey : read.answered = some key)
    (hevent : event.asRead key = some read)
    (hh : (s x).task.core.history <+: (s' x).task.core.history) (hpeer : (s' !x).task = (s !x).task)
    (hdrawn : ((s' x).task.core.history.map Sent.item).Subperm (s' x).enqueued) :
    Belongs x s' event ioId := by
  have hnext : answersUnder key (s' x).task.reads =
      answersUnder key (s x).task.reads ++ [read] := by
    rw [hreads, answersUnder_append]
    simp [answersUnder, hkey]
  have hanswer : (answersUnder key (s' !x).answers)[(answersUnder key (s x).task.reads).length]? =
      some read := by
    refine List.getElem?_of_prefix (h'.read.trans h'.created) ?_
    rw [hnext, List.getElem?_concat_length]
  have hlt := (List.getElem?_eq_some_iff.mp hanswer).1
  have hanswered := h'.answered
  rw [hpeer] at hanswered
  obtain ⟨hopen, _, _, _, hheard⟩ := h.close hb
  -- one request is open, and it is the last one
  have hlen : ((s x).task.core.requests key).length =
      (answersUnder key (s x).task.reads).length + 1 := by
    rw [IoCore.requestsUnder_announced, List.length_map] at hopen hheard
    omega
  rw [IoCore.owner_requests, List.getLast?_eq_getElem?, ← IoCore.requests, hlen, Nat.add_sub_cancel,
    Option.map_eq_some_iff] at howner
  obtain ⟨⟨ioId', payload⟩, hrequest, rfl⟩ := howner
  refine ⟨key, _, payload, ?_, List.getElem?_of_prefix (hh.filterMap _) hrequest, ?_,
    hanswer.trans hevent.symm⟩
  · obtain ⟨sent, hsent, hunder⟩ := List.mem_filterMap.mp (List.mem_of_getElem? hrequest)
    have hitem : sent.item = .request key.1 ioId' payload := by
      unfold Sent.requestUnder at hunder
      split at hunder
      next channel ioId payload' hitem =>
        split at hunder
        next hkey' =>
          cases hkey'
          cases Option.some.inj hunder
          exact hitem
        next => simp at hunder
      next => simp at hunder
    exact hdrawn.subset (hitem ▸ List.mem_map_of_mem (hh.subset hsent))
  · have hmade : (requestsUnder key
        (s x).task.core.announced)[(answersUnder key (s x).task.reads).length]? =
        some (.newRequest key.1 key.2 payload) := by
      rw [IoCore.requestsUnder_announced, List.getElem?_map, hrequest]
      rfl
    obtain ⟨more, hmore⟩ := h.heard
    rw [hpeer]
    rwa [← hmore, List.getElem?_append_left (by omega)] at hmade

/-- The steps that two tasks take, with no answer read while a request waits that can get its id. -/
def keepsAnsweredIds (builder : ProtocolBuilder N) (s : IoNet N) (act : Bool × IoAct) : Bool :=
  decide (Allowed builder s act) && (s act.1).task.keepsAnsweredId act.2

/-- What carries the correspondence of events and requests from step to step. -/
structure Truthful (builder : ProtocolBuilder N) (s : IoNet N) : Prop where
  conversing : Conversing builder s
  matching : ∀ x, (s x).task.Matching
  belongs : ∀ x event ioId, event ∈ (s x).task.events → event.answerId = some ioId →
    Belongs x s event ioId

theorem truthful_new (builder : ProtocolBuilder N) :
    Truthful builder fun _ => IoEnd.new builder where
  conversing := conversing_new builder
  matching _ := .new builder
  belongs := by simp [IoEnd.new, IoTask.new]

/-- What an end that takes a step has reported belongs to its requests. -/
theorem Truthful.reports (h : Truthful builder s) (h' : Conversing builder s') {a : IoAct}
    {outcome : Option ReadOutcome} (hs : IoTask.Step (s x).task a (s' x).task)
    (hok : (s x).task.keepsAnsweredId a = true) (hadds : (s x).Adds (s' x) a outcome)
    (hpeer : (s' !x).task = (s !x).task) (henq : (s' !x).enqueued = (s !x).enqueued)
    {event : IoEvent} {ioId : IoId} (hin : event ∈ (s' x).task.events)
    (hid : event.answerId = some ioId) : Belongs x s' event ioId := by
  obtain ⟨new, hnew⟩ := hadds.history
  have hh : (s x).task.core.history <+: (s' x).task.core.history := hnew ▸ List.prefix_append _ _
  have hold : event ∈ (s x).task.events → Belongs x s' event ioId := by
    intro hin
    refine (h.belongs x event ioId hin hid).mono hid ?_ hh ?_ ?_
    · exact hadds.enqueued ▸ List.prefix_append _ _
    · rw [hpeer]
    · rw [henq]
  rcases hs.events with he | ⟨event', he, hread⟩
  · exact hold (he ▸ hin)
  · rw [he, List.mem_append, List.mem_singleton] at hin
    rcases hin with hin | rfl
    · exact hold hin
    · obtain ⟨read, key, ho, hkey, howner, _⟩ := (h.matching x).reports hok hs event ioId he hid
      obtain ⟨_, _, hl⟩ := h'.linked
      refine (h.conversing.talks x key).belongs (h'.talks x key)
        (h.conversing.balanced x) howner ?_ hkey
        (hread read key ho hkey) hh hpeer (hl.drawn x)
      rw [IoTask.reads, IoTask.reads, ho, readsIn_append]
      rfl

theorem Truthful.step (h : Truthful builder s) {act : Bool × IoAct}
    (hok : keepsAnsweredIds builder s act = true) (hs : s.step act = some s') :
    Truthful builder s' := by
  obtain ⟨hallowed, hkeeps⟩ := Bool.and_eq_true_iff.mp hok
  have hc' := h.conversing.step (of_decide_eq_true hallowed) hs
  obtain ⟨_, _, hl⟩ := h.conversing.linked
  obtain ⟨_, _, hl'⟩ := hc'.linked
  obtain ⟨x, a⟩ := act
  obtain ⟨task, hstep, rfl⟩ := Option.map_eq_some_iff.mp hs
  have hsteps := IoTask.step_steps hstep
  have hxx : (!x) ≠ x := by cases x <;> simp
  have hp' : task.core.pendingError = none := by
    simpa [IoEnd.acts] using (hl'.coupled x).tidy.noError
  obtain ⟨outcome, hadds⟩ :=
    (s x).acts_adds hsteps (h.conversing.balanced x).sound (hl.coupled x).tidy.noError hp'
  refine ⟨hc', ?_, ?_⟩
  · intro y
    rcases eq_or_eq_not y x with rfl | rfl
    · simpa [IoEnd.acts] using (h.matching y).step hkeeps hsteps
    · simpa [hxx] using h.matching (!x)
  · intro y event ioId hin hid
    rcases eq_or_eq_not y x with rfl | rfl
    · refine h.reports hc' ?_ hkeeps (show (s y).Adds _ a outcome from ?_) ?_ ?_ hin hid
      · simpa [IoEnd.acts] using hsteps
      · simpa using hadds
      · simp [hxx]
      · simp [hxx]
    · have hin' : event ∈ (s !x).task.events := by simpa [hxx] using hin
      refine (h.belongs _ event ioId hin' hid).mono hid ?_ ?_ ?_ ?_
      · simp [hxx]
      · simp [hxx]
      · simp [hadds.reads]
      · simp [hadds.enqueued]

/-- In every run of two cores that talk to each other in which no answer is read while a request
waits that can get its id, each answer that is reported for a request is the one that the peer has
given to it. -/
theorem answers_belong
    (h : Transition.Reach step (fun s act => keepsAnsweredIds builder s act)
      (fun _ => .new builder) s)
    (x : Bool) (event : IoEvent) (ioId : IoId) (hin : event ∈ (s x).task.events)
    (hid : event.answerId = some ioId) :
    Belongs x s event ioId := by
  have ht : Truthful builder s :=
    Transition.Reach.invariant h (truthful_new builder) fun hP hok hs => hP.step hok hs
  exact ht.belongs x event ioId hin hid

theorem answers_belong_first :
    ∃ s : IoNet 1, Belongs false s (.receivedResponse ⟨1⟩ (some [9])) ⟨1⟩ ∧
    (s false).enqueued = [.request ⟨0⟩ ⟨1⟩ (some [1, 2, 3, 4, 5, 6, 7, 8])] := by
  have hrun : (Transition.exec step (keepsAnsweredIds IoTask.pairBuilder) requestAndResponse
      fun _ => .new IoTask.pairBuilder).map (fun s => ((s false).task.events, (s false).enqueued)) =
        some ([.receivedResponse ⟨1⟩ (some [9])],
          [.request ⟨0⟩ ⟨1⟩ (some [1, 2, 3, 4, 5, 6, 7, 8])]) := rfl
  obtain ⟨s, hs, he⟩ := Option.map_eq_some_iff.mp hrun
  obtain ⟨hevents, henq⟩ := Prod.mk.inj he
  exact ⟨s,
    answers_belong (Transition.Reach.exec .start hs) false _ ⟨1⟩ (by rw [hevents]; simp) rfl, henq⟩

end IoNet

end Juliet
