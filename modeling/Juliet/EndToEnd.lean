import Juliet.RpcNet

namespace Juliet

open Rust

namespace IncomingRequest

def key (request : IncomingRequest) : ChannelId × Id := (request.channel, request.id)

/-- The read that has reported a request. -/
def asRead (request : IncomingRequest) : CompletedRead :=
  .newRequest request.channel request.id request.payload

def ofRead : CompletedRead → Option IncomingRequest
  | .newRequest channel id payload => some ⟨channel, id, payload⟩
  | _ => none

end IncomingRequest

/-- The requests with a channel and id that are to be answered. -/
def incomingUnder (key : ChannelId × Id) (incoming : List IncomingRequest) : List IncomingRequest :=
  incoming.filter fun request => request.key = key

/-- The answers to the requests with a channel and id, in the order in which they were given. -/
def repliesUnder (key : ChannelId × Id) (replies : List (IncomingRequest × QueuedItem)) :
    List (IncomingRequest × QueuedItem) :=
  replies.filter fun reply => reply.1.key = key

theorem incomingUnder_append (key : ChannelId × Id) (incoming more : List IncomingRequest) :
    incomingUnder key (incoming ++ more) = incomingUnder key incoming ++ incomingUnder key more :=
  List.filter_append _ _

theorem repliesUnder_append (key : ChannelId × Id)
    (replies more : List (IncomingRequest × QueuedItem)) :
    repliesUnder key (replies ++ more) = repliesUnder key replies ++ repliesUnder key more :=
  List.filter_append _ _

theorem requestsUnder_incoming (key : ChannelId × Id) (reads : List CompletedRead) :
    requestsUnder key reads = (incomingUnder key (reads.filterMap IncomingRequest.ofRead)).map
      IncomingRequest.asRead := by
  induction reads with
  | nil => rfl
  | cons read reads ih =>
    cases read with
    | newRequest channel id payload =>
      have hone : requestsUnder key [.newRequest channel id payload] =
          (incomingUnder key [⟨channel, id, payload⟩]).map IncomingRequest.asRead := by
        by_cases hkey : (channel, id) = key
        · simp [requestsUnder, incomingUnder, CompletedRead.asked, IncomingRequest.key,
            IncomingRequest.asRead, hkey]
        · simp [requestsUnder, incomingUnder, CompletedRead.asked, IncomingRequest.key, hkey]
      have hcons := requestsUnder_append key [.newRequest channel id payload] reads
      have hcons' := incomingUnder_append key [⟨channel, id, payload⟩]
        (reads.filterMap IncomingRequest.ofRead)
      rw [List.singleton_append] at hcons hcons'
      rw [hcons, hone, ih, List.filterMap_cons]
      exact (hcons' ▸ List.map_append.symm)
    | _ => exact ih

namespace IoTask

variable {N : Nat} {t t' : IoTask N}

/-- The requests that a step reads are the ones that it reports. -/
theorem Step.reported {a : IoAct} (hs : Step t a t') :
    ∃ outcomes events, t'.outcomes = t.outcomes ++ outcomes ∧
    t'.events = t.events ++ events ∧
    (readsIn outcomes).filterMap IncomingRequest.ofRead =
      events.filterMap IncomingRequest.ofEvent := by
  have hquiet : ∀ {outcome : Option ReadOutcome} {core : IoCore N}
      {result : Option (Except CoreError IoEvent)},
      t.core.ParseStep outcome result core → (∀ event, result ≠ some (.ok event)) →
      (JulietProtocol.readsOf outcome).filterMap IncomingRequest.ofRead = [] := by
    intro outcome core result hparse hno
    cases hparse with
    | event read _ _ _ _ =>
      cases read with
      | newRequest channel id payload => exact absurd rfl (hno _)
      | _ => rfl
    | _ => rfl
  cases hs with
  | event outcome event core _ _ hparse =>
    refine ⟨outcome.toList, [event], rfl, rfl, ?_⟩
    rw [readsIn_toList]
    generalize hr : some (Except.ok event) = result at hparse
    cases hparse with
    | skip | incomplete | fatal | violation => simp at hr
    | event read juliet buffer _ _ =>
      have he : (IoCore.handleCompletedRead (t.core.parsed juliet buffer) read).1 = .ok event :=
        (Option.some.inj hr).symm
      cases read with
      | newRequest channel id payload | requestCancellation channel id =>
        cases Except.ok.inj he
        rfl
      | errorReceived header data => simp [IoCore.handleCompletedRead] at he
      | receivedResponse channel id payload | responseCancellation channel id =>
        simp only [IoCore.handleCompletedRead] at he
        split at he
        next =>
          cases Except.ok.inj he
          rfl
        next => simp at he
    | response channel id payload juliet buffer c _ _ =>
      have he := (Option.some.inj hr).symm
      simp only [IoCore.handleCompletedRead] at he
      split at he
      next =>
        cases Except.ok.inj he
        rfl
      next => simp at he
  | failed outcome err core _ _ hparse =>
    exact ⟨outcome.toList, [], rfl,
      (List.append_nil _).symm, by rw [readsIn_toList, hquiet hparse (by simp)]; rfl⟩
  | selecting outcome core core' _ _ hparse _ =>
    exact ⟨outcome.toList, [], rfl,
      (List.append_nil _).symm, by rw [readsIn_toList, hquiet hparse (by simp)]; rfl⟩
  | _ => exact ⟨[], [], (List.append_nil _).symm, (List.append_nil _).symm, rfl⟩

/-- The local queue is closed by an error only. -/
theorem Step.closed {a : IoAct} (hs : Step t a t') (hsound : t.core.Sound)
    (hp : t.core.pendingError = none) (hp' : t'.core.pendingError = none) :
    t'.core.receiver.closed = t.core.receiver.closed := by
  cases hs with
  | event outcome event core _ _ hparse | failed outcome err core _ _ hparse =>
    exact congrArg Receiver.closed (hparse.receiver hsound hp hp')
  | selecting outcome core core' _ _ hparse hready =>
    have hready' : core'.receiver = core.receiver := by cases hready <;> rfl
    exact congrArg Receiver.closed
      (hready'.trans (hparse.receiver hsound hp (hready.keeps.2.symm.trans hp')))
  | writeAll current core position r _ hc _ hsent _ =>
    have hsound' := sound_currentWritten hsound hc current.frame.remaining
    cases hsent with
    | error active _ => rfl
    | scanned i c _ hq | violation i c err _ hq =>
      have hscan := IoCore.processWaitQueue_receiver (hsound'.cleared _ i) hp hq
      exact congrArg Receiver.closed hscan
  | taken a item rest core _ _ hq hi | rejected a item rest core _ _ _ hq hi =>
    have hreceiver := congrArg Receiver.closed ((IoCore.handleIncomingItem_steps hi).receiver hp')
    exact hreceiver
  | _ => rfl

end IoTask

/-- The answer that a peer is to read of each reply. -/
def answersOf (replies : List (IncomingRequest × QueuedItem)) : List CompletedRead :=
  replies.filterMap fun reply => reply.2.answer

/-- An item answers a request if the peer is to read an answer with its channel and id. -/
def IncomingRequest.AnsweredWith (request : IncomingRequest) (item : QueuedItem) : Prop :=
  ∃ read, item.answer = some read ∧ read.answered = some request.key

theorem answersOf_map {replies : List (IncomingRequest × QueuedItem)}
    (h : ∀ reply ∈ replies, reply.1.AnsweredWith reply.2) :
    (answersOf replies).map some = replies.map fun reply => reply.2.answer := by
  induction replies with
  | nil => rfl
  | cons reply replies ih =>
    obtain ⟨read, hread, _⟩ := h reply List.mem_cons_self
    have hhead : answersOf (reply :: replies) = read :: answersOf replies :=
      List.filterMap_cons_some hread
    rw [hhead, List.map_cons, List.map_cons, hread,
      ih fun other hin => h other (List.mem_cons_of_mem reply hin)]

theorem answersUnder_replies (key : ChannelId × Id) {replies : List (IncomingRequest × QueuedItem)}
    (h : ∀ reply ∈ replies, reply.1.AnsweredWith reply.2) :
    answersUnder key (answersOf replies) = answersOf (repliesUnder key replies) := by
  induction replies with
  | nil => rfl
  | cons reply replies ih =>
    have hsame := ih fun other hin => h other (List.mem_cons_of_mem reply hin)
    obtain ⟨read, hread, hanswered⟩ := h reply List.mem_cons_self
    have hhead : answersOf (reply :: replies) = read :: answersOf replies :=
      List.filterMap_cons_some hread
    rw [hhead, answersUnder, List.filter_cons, ← answersUnder, hsame]
    simp only [repliesUnder, List.filter_cons, hanswered, Option.some.injEq]
    rw [← repliesUnder]
    by_cases hkey : reply.1.key = key
    · have hhead' : answersOf (reply :: repliesUnder key replies) =
          read :: answersOf (repliesUnder key replies) :=
        List.filterMap_cons_some hread
      simp [hkey, hhead']
    · simp [hkey]

/-- What holds of an end and of the requests that it is asked: they are answered one after the
other, and what is to be answered is what has been read and not been answered. -/
structure Answering {N : Nat} (e : RpcEnd N) (m : IoEnd N) : Prop where
  heard : ∀ key, requestsUnder key m.task.reads =
    ((repliesUnder key e.replies).map Prod.fst ++ incomingUnder key e.node.incoming).map
      IncomingRequest.asRead
  single : ∀ key, (incomingUnder key e.node.incoming).length ≤ 1
  owed : ∀ request ∈ e.node.incoming, ∀ i : Fin N, request.channel.get.toNat = i →
    request.id ∈ m.unanswered i
  proper : ∀ reply ∈ e.replies, reply.1.AnsweredWith reply.2
  given : m.answers <+: answersOf e.replies
  all : e.node.rpc.position ≠ .dropped → m.answers = answersOf e.replies

namespace Answering

variable {N : Nat} {e e' : RpcEnd N} {m m' : IoEnd N}

/-- Steps that neither read nor answer. -/
theorem congr (h : Answering e m) (hincoming : e'.node.incoming = e.node.incoming)
    (hreplies : e'.replies = e.replies) (hreads : m'.task.reads = m.task.reads)
    (hunanswered : m'.unanswered = m.unanswered) (hanswers : m'.answers = m.answers)
    (hpos : e'.node.rpc.position ≠ .dropped → e.node.rpc.position ≠ .dropped) :
    Answering e' m' where
  heard key := by rw [hreads, hreplies, hincoming, h.heard]
  single key := by rw [hincoming]; exact h.single key
  owed := by
    rw [hincoming, hunanswered]
    exact h.owed
  proper := by
    rw [hreplies]
    exact h.proper
  given := by
    rw [hanswers, hreplies]
    exact h.given
  all hd := by rw [hanswers, hreplies, h.all (hpos hd)]

/-- An incoming request has a channel and id of its own. -/
theorem apart {request other : IncomingRequest} {before after : List IncomingRequest}
    (h : Answering e m) (hsplit : e.node.incoming = before ++ request :: after)
    (hin : other ∈ before ++ after) : other.key ≠ request.key := by
  intro hkey
  have hone := h.single request.key
  rw [hsplit, incomingUnder, List.filter_append, List.filter_cons,
    if_pos (by simp), List.length_append, List.length_cons] at hone
  have hpos : 0 < ((before ++ after).filter
      fun request' => decide (request'.key = request.key)).length :=
    List.length_pos_of_mem (List.mem_filter.mpr ⟨hin, by simpa using hkey⟩)
  rw [List.filter_append, List.length_append] at hpos
  omega

/-- A request is answered. -/
theorem reply {request : IncomingRequest} {item : QueuedItem} {k : Nat} {items : List QueuedItem}
    (h : Answering e m) (hk : e.node.incoming[k]? = some request)
    (hitem : request.AnsweredWith item) (hincoming : e'.node.incoming = e.node.incoming.eraseIdx k)
    (hreplies : e'.replies = e.replies ++ [(request, item)])
    (hpos : e'.node.rpc.position = e.node.rpc.position)
    (hitems : items = if e.node.rpc.position ≠ .dropped then [item] else [])
    (hreads : m'.task.reads = m.task.reads)
    (hunanswered : ∀ i, m'.unanswered i =
      m.unanswered i \ (items.filterMap (QueuedItem.answerOn i)).toFinset)
    (henqueued : m'.enqueued = m.enqueued ++ items) : Answering e' m' := by
  obtain ⟨before, after, hsplit, herase⟩ := List.eraseIdx_split hk
  obtain ⟨read, hread, hanswered⟩ := hitem
  have hanswers : m'.answers = m.answers ++ items.filterMap QueuedItem.answer := by
    rw [IoEnd.answers, henqueued, List.filterMap_append, ← IoEnd.answers]
  have hin : answersOf e'.replies = answersOf e.replies ++ [read] := by
    rw [hreplies, answersOf, List.filterMap_append, ← answersOf]
    simp [hread]
  refine ⟨?_, ?_, ?_, ?_, ?_, ?_⟩
  · intro key
    rw [hreads, h.heard, hreplies, hincoming, herase, hsplit, repliesUnder_append]
    congr 1
    by_cases hkey : request.key = key
    · -- the only request with this channel and id
      have hnone : incomingUnder key before = [] ∧ incomingUnder key after = [] := by
        constructor
        · refine List.filter_eq_nil_iff.mpr fun other hother => ?_
          simpa [← hkey] using h.apart hsplit (List.mem_append_left after hother)
        · refine List.filter_eq_nil_iff.mpr fun other hother => ?_
          simpa [← hkey] using h.apart hsplit (List.mem_append_right before hother)
      have hsingle : incomingUnder key (request :: after) = request :: incomingUnder key after := by
        simp [incomingUnder, hkey]
      rw [incomingUnder_append, incomingUnder_append, hsingle, hnone.1, hnone.2]
      simp [repliesUnder, hkey]
    · have hskip : incomingUnder key (request :: after) = incomingUnder key after := by
        simp [incomingUnder, hkey]
      rw [incomingUnder_append, incomingUnder_append, hskip]
      simp [repliesUnder, hkey]
  · intro key
    rw [hincoming]
    exact (((List.eraseIdx_sublist e.node.incoming k).filter _).length_le).trans (h.single key)
  · intro other hother i hi
    rw [hincoming, herase] at hother
    have hne := h.apart hsplit hother
    have hwas : other ∈ e.node.incoming := by
      rw [hsplit]
      rcases List.mem_append.mp hother with hother | hother
      · exact List.mem_append_left _ hother
      · exact List.mem_append_right _ (List.mem_cons_of_mem _ hother)
    rw [hunanswered, Finset.mem_sdiff, List.mem_toFinset]
    refine ⟨h.owed other hwas i hi, ?_⟩
    intro hid
    obtain ⟨item', hin', hid⟩ := List.mem_filterMap.mp hid
    have hsame : item' = item := by
      rw [hitems] at hin'
      split at hin'
      next => exact List.mem_singleton.mp hin'
      next => simp at hin'
    subst hsame
    have hid : item'.answerOn i = some other.key.2 := hid
    obtain ⟨read', hread', hanswered'⟩ := (QueuedItem.answerOn_of hi).mp hid
    rw [hread] at hread'
    cases Option.some.inj hread'
    exact hne (Option.some.inj (hanswered'.symm.trans hanswered))
  · intro other hother
    rw [hreplies, List.mem_append, List.mem_singleton] at hother
    rcases hother with hother | rfl
    · exact h.proper other hother
    · exact ⟨read, hread, hanswered⟩
  · rw [hanswers, hin]
    by_cases hd : e.node.rpc.position = .dropped
    · rw [hitems, if_neg (not_not.mpr hd), List.filterMap_nil, List.append_nil]
      exact h.given.trans (List.prefix_append _ _)
    · rw [hitems, if_pos hd, h.all hd]
      simp [hread]
  · intro hd
    rw [hpos] at hd
    rw [hanswers, hin, hitems, if_pos hd, h.all hd]
    simp [hread]

/-- The core is polled. -/
theorem polls {reads : List CompletedRead} {events : List IoEvent} (h : Answering e m)
    (hincoming : e'.node.incoming = e.node.incoming ++ events.filterMap IncomingRequest.ofEvent)
    (hreplies : e'.replies = e.replies) (hreads : m'.task.reads = m.task.reads ++ reads)
    (hreported : reads.filterMap IncomingRequest.ofRead = events.filterMap IncomingRequest.ofEvent)
    (hunanswered : ∀ i, m'.unanswered i = m.unanswered i ∪ reportedBy i reads)
    (hanswers : m'.answers = m.answers) (hpos : e.node.rpc.position ≠ .dropped)
    (hopen : ∀ key, (requestsUnder key m'.task.reads).length ≤
      (answersUnder key m'.answers).length + 1) :
    Answering e' m' := by
  have hheard : ∀ key, requestsUnder key m'.task.reads =
      ((repliesUnder key e'.replies).map Prod.fst ++ incomingUnder key e'.node.incoming).map
        IncomingRequest.asRead := by
    intro key
    rw [hreads, requestsUnder_append, h.heard, requestsUnder_incoming key reads, hreported,
      hreplies, hincoming, incomingUnder_append]
    simp
  refine ⟨hheard, ?_, ?_, ?_, ?_, ?_⟩
  · intro key
    have hlen := congrArg List.length
      (answersOf_map fun reply hin =>
        h.proper reply (List.mem_filter.mp (show reply ∈ repliesUnder key e.replies from hin)).1)
    rw [List.length_map, List.length_map] at hlen
    have hle := hopen key
    rw [hheard, hanswers, h.all hpos, answersUnder_replies key h.proper, hlen, hreplies] at hle
    simp only [List.length_map, List.length_append] at hle
    omega
  · intro request hin i hi
    rw [hunanswered, Finset.mem_union]
    rw [hincoming, List.mem_append] at hin
    rcases hin with hin | hin
    · exact .inl (h.owed request hin i hi)
    · have hkey : request.key.1.get.toNat = i := hi
      refine .inr ((reportedBy_of hkey reads).mpr ?_)
      rw [requestsUnder_incoming, hreported, incomingUnder, ne_eq, List.map_eq_nil_iff,
        List.filter_eq_nil_iff]
      exact fun hnone => hnone request hin (by simp)
  · rw [hreplies]
    exact h.proper
  · rw [hanswers, hreplies]
    exact h.given
  · intro _
    rw [hanswers, hreplies, h.all hpos]

end Answering

namespace RpcTask

variable {t t' : RpcTask}

/-- What has been sent and received is not forgotten. -/
theorem Step.grows (hs : Step t t') : t.sent ⊆ t'.sent ∧ t.events ⊆ t'.events := by
  cases hs with
  | queue ticket payload timeout now t' hq =>
    have hsend : ∀ (issued : Finset IoId) (ticket : RequestTicket) (expires : Option Nat),
        t.sent ⊆ ({ t with issued }.sendNewRequest ticket payload expires).sent ∧
          t.events ⊆ ({ t with issued }.sendNewRequest ticket payload expires).events := by
      intro issued ticket expires
      unfold sendNewRequest
      split
      next => exact ⟨List.Subset.refl _, List.Subset.refl _⟩
      next => exact ⟨List.subset_append_left _ _, List.Subset.refl _⟩
    unfold queueForSending at hq
    split at hq
    next => simp at hq
    next =>
      split at hq
      next =>
        cases Option.some.inj hq
        exact ⟨List.Subset.refl _, List.Subset.refl _⟩
      next ticket =>
        split at hq
        next => simp at hq
        next =>
          cases Option.some.inj hq
          unfold doEnqueueRequest
          split
          next => exact hsend _ ticket none
          next =>
            split
            next expires _ => exact hsend _ ticket (some expires)
            next => exact ⟨List.Subset.refl _, List.Subset.refl _⟩
  | quiet clients coreClosed position _ => exact ⟨List.Subset.refl _, List.Subset.refl _⟩
  | turn now position _ _ =>
    obtain ⟨_, he, hsent⟩ :=
      expireAll_keeps { t with timeouts := (t.timeouts.span fun entry => entry.1 ≤ now).2 }
      (t.timeouts.span fun entry => entry.1 ≤ now).1
    exact ⟨fun p hp => hsent ▸ hp, fun event hin => he ▸ hin⟩
  | recv deadline new rest _ _ =>
    unfold handleNewRequest
    split <;> exact ⟨List.Subset.refl _, List.Subset.refl _⟩
  | event deadline event _ =>
    have hsettle : ∀ ioId value,
        t.sent ⊆ ({ t with events := t.events ++ [event] }.settle ioId value).sent ∧
        t.events ⊆ ({ t with events := t.events ++ [event] }.settle ioId value).events := by
      intro ioId value
      obtain ⟨_, he, _, _, _, hsent⟩ :=
        settle_keeps { t with events := t.events ++ [event] } ioId value
      rw [he, hsent]
      exact ⟨List.Subset.refl _, List.subset_append_left _ _⟩
    cases event with
    | newRequest | requestCancelled => exact ⟨List.Subset.refl _, List.subset_append_left _ _⟩
    | receivedResponse ioId payload => exact hsettle ioId _
    | receivedCancellationResponse ioId => exact hsettle ioId _
  | drop => exact ⟨List.Subset.refl _, List.Subset.refl _⟩

/-- An answer that a guard has is one that the core has reported for its request. -/
def Answered (t : RpcTask) : Prop :=
  ∀ guard payload, outcomeOf t.guards guard = some (.ok payload) →
    ∃ ioId, (guard, ioId) ∈ t.sent ∧ .receivedResponse ioId payload ∈ t.events

theorem Answered.step (h : Answered t) (hc : Custody t) (hs : Step t t') : Answered t' := by
  intro guard payload hok
  obtain ⟨hsent, hevents⟩ := hs.grows
  have hold : outcomeOf t.guards guard = some (.ok payload) →
      ∃ ioId, (guard, ioId) ∈ t'.sent ∧ .receivedResponse ioId payload ∈ t'.events := by
    intro ho
    obtain ⟨ioId, hin, hevent⟩ := h guard payload ho
    exact ⟨ioId, hsent hin, hevents hevent⟩
  rcases hs.outcomes with hf | ⟨ioId, payload', guard', hl, he, hg⟩
  · exact hold (hf.old guard payload hok)
  · rw [hg] at hok
    rcases (resolveAll_outcome _ t.guards guard).2 _ hok with ho | hm
    · exact hold ho
    · obtain ⟨rfl, hp⟩ := Prod.mk.inj (List.mem_singleton.mp hm)
      cases Except.ok.inj hp
      have hplace : (guard, ioId) ∈ t.places :=
        List.mem_append_right _ (List.mem_map.mpr ⟨_, AList.mem_lookup_iff.mp hl, rfl⟩)
      refine ⟨ioId, hsent (List.mem_filter.mp (hc.places.subset hplace)).1, ?_⟩
      rw [he]
      exact List.mem_append_right _ List.mem_cons_self

theorem Answered.leads (h : Answered t) (hc : Custody t) (hl : Leads t t') :
    Answered t' ∧ t.sent ⊆ t'.sent := by
  have hall : (Answered t' ∧ t.sent ⊆ t'.sent) ∧ Custody t' := by
    refine Transition.Reach.invariant
      (P := fun t' => (Answered t' ∧ t.sent ⊆ t'.sent) ∧ Custody t') hl
      ⟨⟨h, List.Subset.refl _⟩, hc⟩ ?_
    rintro t₁ t₂ a ⟨⟨ha, hsub⟩, hc⟩ _ hs
    have hstep := step_steps hs
    exact ⟨⟨ha.step hc hstep, List.Subset.trans hsub hstep.grows.1⟩, hc.step hstep⟩
  exact hall.1

end RpcTask

/-- What holds of an end and of the requests that its clients queue. -/
structure Asking {N : Nat} (e : RpcEnd N) (m : IoEnd N) : Prop where
  waiting : ∀ new ∈ e.node.rpc.newRequests, (new.guard, new.ticket, new.payload) ∈ e.queued
  asked : ∀ channel ioId payload, .request channel ioId payload ∈ m.enqueued →
    ∃ guard, (guard, ⟨channel, ioId⟩, payload) ∈ e.queued ∧ (guard, ioId) ∈ e.node.rpc.sent
  answered : e.node.rpc.Answered

namespace Asking

variable {N : Nat} {builder : RpcBuilder N} {e : RpcEnd N} {m m' : IoEnd N}

/-- What a step of the node does to the requests in the channel to the server. -/
theorem waits {a : NodeAct} {node : RpcNode N} (h : Asking e m)
    (hs : RpcNode.Step builder e.node a node) :
    ∀ new ∈ node.rpc.newRequests, (new.guard, new.ticket, new.payload) ∈
      (e.acts a node).queued := by
  have hold : ∀ new ∈ e.node.rpc.newRequests, (new.guard, new.ticket, new.payload) ∈
      (e.acts a node).queued :=
    fun new hin => List.mem_append_left _ (h.waiting new hin)
  cases hs with
  | reserve | dropTicket | answer | customError => exact hold
  | queue ticket payload timeout timeout' now rpc _ hrpc =>
    intro new hin
    rcases (RpcTask.queues_of_queueForSending hrpc).requests with hsame | ⟨expires, hmore⟩
    · exact hold new (hsame ▸ hin)
    · dsimp only at hin
      rw [hmore, List.mem_append, List.mem_singleton] at hin
      rcases hin with hin | rfl
      · exact hold new hin
      · exact List.mem_append_right _ List.mem_cons_self
  | serve _ b rpc io hb hrpc _ _ =>
    obtain ⟨items, hm⟩ := RpcTask.moves_of_serves hb hrpc
    rcases hm.requests with ⟨new, hnew, _, _⟩ | ⟨hsame, _, _⟩
    · exact fun new' hin => hold new' (hnew ▸ List.mem_cons_of_mem new hin)
    · exact fun new' hin => hold new' (hsame ▸ hin)
  | drop _ => simp [RpcTask.dropServer]
  | poll a deadline io rpc hselect _ _ hrpc =>
    have htold : (e.node.told io).position = e.node.rpc.position ∧
        (e.node.told io).newRequests = e.node.rpc.newRequests := by
      unfold RpcNode.told
      split <;> exact ⟨rfl, rfl⟩
    obtain ⟨_, hnew⟩ := RpcNode.returned_keeps hrpc (by simp [htold.1, hselect])
    exact fun new hin => hold new (htold.2 ▸ hnew ▸ hin)

/-- A step of the node, with the items that it sends to the core. -/
theorem step {a : NodeAct} {node : RpcNode N} {items : List QueuedItem} (h : Asking e m)
    (hc : e.node.rpc.Custody) (hs : RpcNode.Step builder e.node a node)
    (henqueued : m'.enqueued = m.enqueued ++ items)
    (hitems : ∀ channel ioId payload, .request channel ioId payload ∈ items →
      ∃ new ∈ e.node.rpc.newRequests, new.ticket = ⟨channel, ioId⟩ ∧ new.payload = payload) :
    Asking (e.acts a node) m' := by
  obtain ⟨hanswered, hsent⟩ := h.answered.leads hc hs.leads
  refine ⟨h.waits hs, ?_, hanswered⟩
  intro channel ioId payload hin
  rw [henqueued, List.mem_append] at hin
  rcases hin with hin | hin
  · obtain ⟨guard, hq, hin⟩ := h.asked channel ioId payload hin
    exact ⟨guard, List.mem_append_left _ hq, hsent hin⟩
  · obtain ⟨new, hnew, hticket, rfl⟩ := hitems channel ioId payload hin
    refine ⟨new.guard, List.mem_append_left _ (hticket ▸ h.waiting new hnew), hsent ?_⟩
    have hplace : (new.guard, new.ticket.ioId) ∈ e.node.rpc.places :=
      List.mem_append_left _ (List.mem_map.mpr ⟨new, hnew, rfl⟩)
    rw [hticket] at hplace
    exact (List.mem_filter.mp (hc.places.subset hplace)).1

end Asking

/-- A server that has been dropped stays so. -/
theorem RpcNode.Step.undropped {N : Nat} {builder : RpcBuilder N} {s s' : RpcNode N} {a : NodeAct}
    (hs : RpcNode.Step builder s a s') (h : s'.rpc.position ≠ .dropped) :
    s.rpc.position ≠ .dropped := by
  cases hs with
  | reserve | dropTicket | answer | customError => exact h
  | queue ticket payload timeout timeout' now rpc _ hrpc =>
    rwa [← (RpcTask.queues_of_queueForSending hrpc).position]
  | serve _ b rpc io hb hrpc _ _ =>
    obtain ⟨items, hm⟩ := RpcTask.moves_of_serves hb hrpc
    exact fun hd => h (hm.dropped.mpr hd)
  | drop hpos => exact hpos
  | poll a deadline io rpc hselect _ _ _ => simp [hselect]

namespace RpcNet

variable {N : Nat} {builder : RpcBuilder N} {s s' : RpcNet N} {n n' : IoNet N} {x : Bool}

/-- Two nodes take their cores along a run of two cores. -/
structure Refines (builder : RpcBuilder N) (s : RpcNet N) (n : IoNet N) : Prop where
  truthful : IoNet.Truthful builder.core.protocol n
  task : ∀ x, (n x).task = (s x).node.io
  pipe : ∀ x, (n x).pipe = (s x).pipe
  opened : ∀ x, (s x).node.io.core.receiver.closed = false
  tied : ∀ x, (s x).node.Tied
  asking : ∀ x, Asking (s x) (n x)
  answering : ∀ x, Answering (s x) (n x)

theorem refines_new (builder : RpcBuilder N) :
    Refines builder (new builder) fun _ => .new builder.core.protocol where
  truthful := IoNet.truthful_new builder.core.protocol
  task _ := rfl
  pipe _ := rfl
  opened _ := rfl
  tied _ := RpcNode.Tied.new builder
  asking _ := by
    refine ⟨?_, ?_, ?_⟩
    · simp [new, RpcNode.new, RpcTask.new]
    · simp [IoEnd.new]
    · simp [RpcTask.Answered, new, RpcNode.new, RpcTask.new, outcomeOf]
  answering _ := by
    refine ⟨fun key => ?_, ?_, ?_, ?_, ?_, ?_⟩
    · simp [new, RpcNode.new, IoEnd.new, IoTask.reads, IoTask.new, readsIn, requestsUnder,
        repliesUnder, incomingUnder]
    · simp [new, RpcNode.new, incomingUnder]
    · simp [new, RpcNode.new]
    · simp [new]
    · simp [new, IoEnd.answers, IoEnd.new]
    · simp [new, IoEnd.answers, IoEnd.new, answersOf]

/-- One node has taken a step, and its core with it. -/
theorem Refines.update {e : RpcEnd N} {k : Nat} (h : Refines builder s n)
    (hreach : Transition.Reach IoNet.step
      (fun n act => IoNet.keepsAnsweredIds builder.core.protocol n act) n n')
    (hpeer : n' (!x) = { n (!x) with pipe := (n (!x)).pipe.drop k })
    (htask : (n' x).task = e.node.io)
    (hpipe : (n' x).pipe = e.pipe) (hopened : e.node.io.core.receiver.closed = false)
      (htied : e.node.Tied)
    (hasking : Asking e (n' x)) (hanswering : Answering e (n' x)) :
    Refines builder (fun y => if y = x then e else { s y with pipe := (s y).pipe.drop k }) n' := by
  have hxx : (!x) ≠ x := by cases x <;> simp
  have htruthful := Transition.Reach.invariant hreach h.truthful fun hP hok hs => hP.step hok hs
  refine ⟨htruthful, ?_, ?_, ?_, ?_, ?_, ?_⟩
  all_goals
    intro y
    rcases eq_or_eq_not y x with rfl | rfl
  · simpa using htask
  · simpa [hxx, hpeer] using h.task (!x)
  · simpa using hpipe
  · simpa [hxx, hpeer] using congrArg (List.drop k) (h.pipe (!x))
  · simpa using hopened
  · simpa [hxx] using h.opened (!x)
  · simpa using htied
  · simpa [hxx] using h.tied (!x)
  · simpa using hasking
  · obtain ⟨hwaiting, hasked, hanswered⟩ := h.asking (!x)
    simp only [hxx, if_false, hpeer]
    exact ⟨hwaiting, hasked, hanswered⟩
  · simpa using hanswering
  · obtain ⟨h₁, h₂, h₃, h₄, h₅, h₆⟩ := h.answering (!x)
    simp only [hxx, if_false, hpeer]
    exact ⟨h₁, h₂, h₃, h₄, h₅, h₆⟩

/-- The core of a node that takes a step is offered an item at most. -/
theorem Refines.offered {a : NodeAct} {node : RpcNode N} {items : List QueuedItem}
    (h : Refines builder s n) (hs : RpcNode.Step builder (s x).node a node)
    (hok : (s x).node.keepsAnsweredId a = true) (ho : IoTask.Offered items (s x).node.io node.io)
    (hitems : ∀ item ∈ items, item.Within builder.core.protocol ∧
      ∀ i : Fin N, ∀ id ∈ item.answerOn i, id ∈ (n x).unanswered i) (hone : items.length ≤ 1)
    (hasked : ∀ channel ioId payload, .request channel ioId payload ∈ items →
      ∃ new ∈ (s x).node.rpc.newRequests, new.ticket = ⟨channel, ioId⟩ ∧ new.payload = payload)
    (hanswering : ∀ {n'}, IoNet.Waits x items node.io n n' → Answering ((s x).acts a node) (n' x)) :
    ∃ n', Refines builder
      (fun y =>
        if y = x then (s x).acts a node else { s y with pipe := (s y).pipe.drop 0 }) n' := by
  obtain ⟨acts, rfl, hwaits, he⟩ := ho.run
  rw [← h.task x] at he
  obtain ⟨n', hreach, hw⟩ := IoNet.waits_exec he hwaits hitems hone
  refine ⟨n', h.update hreach hw.peer hw.task ?_ ?_ ((h.tied x).step hok hs) ?_ (hanswering hw)⟩
  · have hnothing : (s x).node.io.writtenSince node.io = [] := by rw [IoTask.writtenSince,
      ho.written, List.drop_length]
    rw [hw.pipe, h.pipe, RpcEnd.acts, hnothing, List.append_nil]
  · rw [RpcEnd.acts, ho.core]
    exact h.opened x
  · exact (h.asking x).step (h.tied x).custody hs hw.enqueued hasked

/-- Items that are no answers concern no request that is to be answered. -/
theorem Refines.unanswering {a : NodeAct} {node : RpcNode N} {items : List QueuedItem}
    (h : Refines builder s n) (hs : RpcNode.Step builder (s x).node a node)
    (ho : IoTask.Offered items (s x).node.io node.io)
    (hitems : ∀ item ∈ items, item.answer = none ∧ ∀ i : Fin N, item.answerOn i = none)
    (hincoming : node.incoming = (s x).node.incoming) (hreply : (s x).node.reply a = none)
    (hw : IoNet.Waits x items node.io n n') : Answering ((s x).acts a node) (n' x) := by
  refine (h.answering x).congr hincoming ?_ ?_ ?_ ?_ ?_
  · rw [RpcEnd.acts, hreply, Option.toList_none, List.append_nil]
  · rw [hw.task, IoTask.reads, IoTask.reads, ho.outcomes, h.task]
  · funext i
    have hnone : items.filterMap (QueuedItem.answerOn i) = [] :=
      List.filterMap_eq_nil_iff.mpr fun item hin => (hitems item hin).2 i
    rw [hw.unanswered, hnone, List.toFinset_nil, Finset.sdiff_empty]
  · have hnone : items.filterMap QueuedItem.answer = [] :=
      List.filterMap_eq_nil_iff.mpr fun item hin => (hitems item hin).1
    rw [IoEnd.answers, hw.enqueued, List.filterMap_append, hnone, List.append_nil, IoEnd.answers]
  · exact hs.undropped

/-- The server takes up a request, or sends nothing. -/
theorem Refines.serves {a : NodeAct} {b : RpcAct} {rpc : RpcTask} {io : IoTask N}
    {free : Fin N → Nat} (h : Refines builder s n)
    (hs : RpcNode.Step builder (s x).node a { (s x).node with rpc, io, free })
    (hb : RpcNode.serves a = some b) (hrpc : (s x).node.rpc.step b = some rpc)
    (ho : IoTask.Offered ((s x).node.arriving ((s x).node.newItems rpc)) (s x).node.io io)
    (hwithin : ∀ item ∈ (s x).node.arriving ((s x).node.newItems rpc),
      item.Within builder.core.protocol) :
    ∃ n', Refines builder
      (fun y => if y = x then (s x).acts a { (s x).node with rpc, io, free }
        else { s y with pipe := (s y).pipe.drop 0 }) n' := by
  obtain ⟨items, hm⟩ := RpcTask.moves_of_serves hb hrpc
  have hitems : (s x).node.newItems rpc = items := by rw [RpcNode.newItems,
    hm.enqueued, List.drop_left]
  rw [hitems] at ho hwithin
  have hsub : ∀ item ∈ (s x).node.arriving items, item ∈ items := by
    intro item hin
    unfold RpcNode.arriving at hin
    split at hin
    next => exact hin
    next => simp at hin
  have hrequests : ((s x).node.arriving items).length ≤ 1 ∧ ∀ item ∈ (s x).node.arriving items,
      ∃ new ∈ (s x).node.rpc.newRequests, item =
        .request new.ticket.channel new.ticket.ioId new.payload := by
    rcases hm.requests with ⟨new, hnew, hsent, _⟩ | ⟨_, hcancels, _⟩
    · refine ⟨?_, ?_⟩
      · have hle : items.length ≤ 1 := by
          rw [hsent]
          split <;> simp
        unfold RpcNode.arriving
        split
        next => exact hle
        next => simp
      · intro item hin
        have hin := hsub item hin
        rw [hsent] at hin
        split at hin
        next => simp at hin
        next => exact ⟨new, hnew ▸ List.mem_cons_self, List.mem_singleton.mp hin⟩
    · have hnone : (s x).node.arriving items = [] := by
        rw [List.eq_nil_iff_forall_not_mem]
        intro item hin
        obtain ⟨ioId, rfl⟩ := hcancels item (hsub item hin)
        exact hwithin _ hin
      simp [hnone]
  obtain ⟨hone, hrequests⟩ := hrequests
  have hkeeps : (s x).node.keepsAnsweredId a = true := by
    cases a <;> first | rfl | simp [RpcNode.serves] at hb
  have hreply : (s x).node.reply a = none := by
    cases a <;> first | rfl | simp [RpcNode.serves] at hb
  refine h.offered hs hkeeps ho ?_ hone ?_ ?_
  · intro item hin
    obtain ⟨new, _, rfl⟩ := hrequests item hin
    exact ⟨hwithin _ hin, by simp [QueuedItem.answerOn]⟩
  · intro channel ioId payload hin
    obtain ⟨new, hnew, he⟩ := hrequests _ hin
    injection he with hchannel hio hpayload
    exact ⟨new, hnew, by rw [hchannel, hio], hpayload.symm⟩
  · intro n' hw
    refine h.unanswering hs ho ?_ rfl hreply hw
    intro item hin
    obtain ⟨new, _, rfl⟩ := hrequests item hin
    exact ⟨rfl, fun _ => rfl⟩

/-- The user answers a request. -/
theorem Refines.replies {a : NodeAct} {k : Nat} {request : IncomingRequest}
    {item : QueuedItem} {io : IoTask N}
    {free : Fin N → Nat} (h : Refines builder s n)
    (hs : RpcNode.Step builder (s x).node a
      { (s x).node with io, free, incoming := (s x).node.incoming.eraseIdx k })
    (hk : (s x).node.incoming[k]? = some request) (hreply : (s x).node.reply a =
      some (request, item))
    (hitem : item = .responseCancellation request.channel request.id ∨
      (∃ payload, item = .response request.channel request.id payload))
    (ho : IoTask.Offered ((s x).node.arriving [item]) (s x).node.io io)
    (hwithin : ∀ item' ∈ (s x).node.arriving [item], item'.Within builder.core.protocol) :
    ∃ n', Refines builder (fun y =>
      if y = x then
        (s x).acts a { (s x).node with io, free, incoming := (s x).node.incoming.eraseIdx k }
      else { s y with pipe := (s y).pipe.drop 0 }) n' := by
  have harrives : (s x).node.arriving [item] = if (s x).node.rpc.position ≠ .dropped then [item]
    else [] := by
    simp [RpcNode.arriving, RpcNode.isOpen, h.opened x]
  have hanswers : request.AnsweredWith item := by
    rcases hitem with rfl | ⟨payload, rfl⟩
    · exact ⟨_, rfl, rfl⟩
    · exact ⟨_, rfl, rfl⟩
  have hkeeps : (s x).node.keepsAnsweredId a = true := by
    cases a <;> first | rfl | simp [RpcNode.reply] at hreply
  have hsame : ∀ item' ∈ (s x).node.arriving [item], item' = item := by
    intro item' hin
    rw [harrives] at hin
    split at hin
    next => exact List.mem_singleton.mp hin
    next => simp at hin
  refine h.offered hs hkeeps ho ?_ ?_ ?_ ?_
  · intro item' hin
    refine ⟨hwithin item' hin, ?_⟩
    intro i id hid
    rw [hsame item' hin] at hid
    have hhas : request.channel.get.toNat = i ∧ id = request.id := by
      rcases hitem with rfl | ⟨payload, rfl⟩
      all_goals
        simp only [QueuedItem.answerOn, Option.mem_def] at hid
        split at hid
        next hc => exact ⟨hc, (Option.some.inj hid).symm⟩
        next => simp at hid
    rw [hhas.2]
    exact (h.answering x).owed request (List.mem_of_getElem? hk) i hhas.1
  · rw [harrives]
    split <;> simp
  · intro channel ioId payload hin
    have he := hsame _ hin
    rcases hitem with rfl | ⟨payload, rfl⟩ <;> simp at he
  · intro n' hw
    refine (h.answering x).reply hk hanswers rfl ?_ rfl harrives ?_ hw.unanswered hw.enqueued
    · rw [RpcEnd.acts, hreply]
      rfl
    · rw [hw.task, IoTask.reads, IoTask.reads, ho.outcomes, h.task]

/-- The core is polled, and the server sees what it reports. -/
theorem Refines.polls {a : IoAct} {deadline : Nat} {node : RpcNode N} (h : Refines builder s n)
    (hs : RpcNode.Step builder (s x).node (.poll a) node)
    (hselect : (s x).node.rpc.position = .select deadline) (ha : a.polls = true)
    (hio : (s x).node.io.step a = some node.io)
    (hincoming : node.incoming = (s x).node.incoming ++
      (node.io.events.drop (s x).node.io.events.length).filterMap IncomingRequest.ofEvent)
    (hkeeps : (s x).node.keepsAnsweredId (.poll a) = true) (htakes : a.takes <+: (s !x).pipe) :
    ∃ n', Refines builder (fun y => if y = x then (s x).acts (.poll a) node else
      { s y with pipe := (s y).pipe.drop a.takes.length }) n' := by
  have hxx : (!x) ≠ x := by cases x <;> simp
  have hnone : a.enqueues = [] := by cases a <;> first | rfl | simp [IoAct.polls] at ha
  have hstep : n.step (x, a) = some fun y => if y = x then (n x).acts a node.io else
      { n y with pipe := (n y).pipe.drop a.takes.length } := by
    rw [IoNet.step, h.task, hio]
    rfl
  have hok : IoNet.keepsAnsweredIds builder.core.protocol n (x, a) = true := by
    rw [IoNet.keepsAnsweredIds, Bool.and_eq_true, decide_eq_true_iff]
    refine ⟨⟨?_, ?_⟩, ?_⟩
    · simp [hnone]
    · rw [h.pipe]
      exact htakes
    · rw [h.task]
      exact hkeeps
  have hreach : Transition.Reach IoNet.step
      (fun n act => IoNet.keepsAnsweredIds builder.core.protocol n act) n _ :=
    .step .start hok hstep
  have htruthful := h.truthful.step hok hstep
  have hsteps := IoTask.step_steps hio
  obtain ⟨outcomes, events, houtcomes, hevents, hreported⟩ := hsteps.reported
  have hacts := (n x).acts_advance hnone node.io
  have hsince : (n x).task.outcomesSince node.io = outcomes := by
    rw [h.task]
    exact IoTask.outcomesSince_append houtcomes
  refine ⟨_, h.update hreach ?_ ?_ ?_ ?_ ((h.tied x).step hkeeps hs) ?_ ?_⟩
  · simp [hxx]
  · simp [IoEnd.acts, RpcEnd.acts]
  · simp [IoEnd.acts, RpcEnd.acts, h.pipe, h.task]
  · obtain ⟨_, _, hl⟩ := h.truthful.conversing.linked
    obtain ⟨_, _, hl'⟩ := htruthful.conversing.linked
    have hp : (s x).node.io.core.pendingError = none := h.task x ▸ (hl.coupled x).tidy.noError
    have hp' : node.io.core.pendingError = none := by
      simpa [IoEnd.acts] using (hl'.coupled x).tidy.noError
    exact (hsteps.closed (h.tied x).attended.matching.sound hp hp').trans (h.opened x)
  · have hnothing : ∀ channel ioId payload, QueuedItem.request channel ioId payload ∈
        ([] : List QueuedItem) →
        ∃ new ∈ (s x).node.rpc.newRequests, new.ticket = ⟨channel, ioId⟩ ∧
          new.payload = payload := by simp
    refine (h.asking x).step (h.tied x).custody hs ?_ hnothing
    simp [IoEnd.acts, hnone]
  · have hopen := htruthful.conversing.open_requests x
    simp only [if_pos] at hopen ⊢
    refine (h.answering x).polls ?_ ?_ ?_ hreported ?_ ?_ ?_ hopen
    · rw [RpcEnd.acts, hincoming, hevents, List.drop_left]
    · rw [RpcEnd.acts]
      exact List.append_nil _
    · rw [hacts, IoTask.reads, IoTask.reads, houtcomes, readsIn_append, h.task]
    · intro i
      rw [hacts, hsince]
    · rw [hacts]
      rfl
    · simp [hselect]

theorem Refines.step (h : Refines builder s n) {act : Bool × NodeAct}
    (hok : allowed builder s act = true) (hs : s.step builder act = some s') :
    ∃ n', Refines builder s' n' := by
  obtain ⟨x, a⟩ := act
  obtain ⟨node, hnode, rfl⟩ := Option.map_eq_some_iff.mp hs
  rw [allowed, Bool.and_eq_true, Bool.and_eq_true, List.all_eq_true,
    List.isPrefixOf_iff_prefix] at hok
  obtain ⟨⟨hwithin, htakes⟩, hkeeps⟩ := hok
  have hwithin : ∀ item ∈ (s x).node.offers builder a, item.Within builder.core.protocol :=
    fun item hin => of_decide_eq_true (hwithin item hin)
  have hsteps := RpcNode.step_steps hnode
  have hall := hsteps
  have hidle : node.io = (s x).node.io → node.incoming = (s x).node.incoming → (s x).node.reply a =
      none → a.takes = [] →
      ∃ n', Refines builder (fun y => if y = x then (s x).acts a node else
        { s y with pipe := (s y).pipe.drop a.takes.length }) n' := by
    intro hio hincoming hreply hnothing
    have ho : IoTask.Offered [] (s x).node.io node.io := hio ▸ .refl _
    rw [hnothing]
    exact h.offered hall hkeeps ho (by simp) (by simp) (by simp)
      (h.unanswering hall ho (by simp) hincoming hreply)
  cases hsteps with
  | reserve | queue | dropTicket | drop => exact hidle rfl rfl rfl rfl
  | serve _ b rpc io hb hrpc hoffers ho =>
    have hnothing : a.takes = [] := by cases a <;> first | rfl | simp [RpcNode.serves] at hb
    dsimp only
    rw [hnothing]
    exact h.serves hall hb hrpc ho (hoffers ▸ hwithin)
  | poll a deadline io rpc hselect hpolls hio _ =>
    exact h.polls hall hselect hpolls hio rfl hkeeps htakes
  | answer _ k request item io hk hreply hitem hoffers ho =>
    have hnothing : a.takes = [] := by cases a <;> first | rfl | simp [RpcNode.reply] at hreply
    dsimp only
    rw [hnothing]
    exact h.replies hall hk hreply hitem ho (hoffers ▸ hwithin)
  | customError channel id payload io hoffers ho =>
    have hnone : (s x).node.arriving [.error channel id payload] = [] := by
      rw [List.eq_nil_iff_forall_not_mem]
      intro item hin
      have hsame : item = .error channel id payload := by
        unfold RpcNode.arriving at hin
        split at hin
        next => exact List.mem_singleton.mp hin
        next => simp at hin
      have hno := hwithin item (hoffers ▸ hin)
      rw [hsame] at hno
      exact hno
    rw [hnone] at ho
    exact h.offered hall hkeeps ho (by simp) (by simp) (by simp)
      (h.unanswering hall ho (by simp) rfl rfl)

/-- A request that a client has queued has been answered by the peer's user with a response: the
request is the `j`-th one that was created with its channel and id, and the `j`-th one with them
that the user has answered. -/
def Settles (x : Bool) (s : RpcNet N) (guard : Nat) (payload : Option Bytes) (key : ChannelId × Id)
    (j : Nat) : Prop :=
  ∃ ioId asked, (guard, ⟨key.1, ioId⟩, asked) ∈ (s x).queued ∧ (guard, ioId) ∈ (s x).node.rpc.sent ∧
    ((s x).node.io.core.requests key)[j]? = some (ioId, asked) ∧
    (repliesUnder key (s !x).replies)[j]? =
      some (⟨key.1, key.2, asked⟩, .response key.1 key.2 payload)

theorem Refines.settles {guard : Nat} {payload : Option Bytes} (h : Refines builder s n)
    (hok : outcomeOf (s x).node.rpc.guards guard = some (.ok payload)) :
    ∃ key j, Settles x s guard payload key j := by
  obtain ⟨ioId, hsent, hevent⟩ := (h.asking x).answered guard payload hok
  rw [(h.tied x).shared.events, ← h.task] at hevent
  obtain ⟨key, j, asked, henqueued, hrequest, hread, hanswer⟩ :=
    h.truthful.belongs x _ ioId hevent rfl
  obtain ⟨guard', hqueued, hsent'⟩ := (h.asking x).asked _ _ _ henqueued
  have hguard : guard' = guard :=
    congrArg Prod.fst (List.inj_on_of_nodup_map (h.tied x).custody.ids hsent' hsent rfl)
  subst hguard
  rw [h.task] at hrequest
  refine ⟨key, j, ioId, asked, hqueued, hsent, hrequest, ?_⟩
  have hpeer := h.answering !x
  -- the answer is the one to the reply in the same place
  have hgiven : (answersOf (repliesUnder key (s !x).replies))[j]? =
      some (.receivedResponse key.1 key.2 payload) := by
    rw [← answersUnder_replies key hpeer.proper]
    exact List.getElem?_of_prefix (hpeer.given.filter _) hanswer
  have hmap := congrArg (·[j]?) (answersOf_map fun reply hin =>
    hpeer.proper reply
      (List.mem_filter.mp (show reply ∈ repliesUnder key (s !x).replies from hin)).1)
  simp only [List.getElem?_map, hgiven, Option.map_some] at hmap
  obtain ⟨reply, hreply, hhas⟩ := Option.map_eq_some_iff.mp hmap.symm
  have hlt := (List.getElem?_eq_some_iff.mp hreply).1
  have hrequested : reply.1.asRead = .newRequest key.1 key.2 asked := by
    rw [hpeer.heard, List.map_append, List.getElem?_append_left (by simpa using hlt)] at hread
    simpa [hreply] using hread
  obtain ⟨⟨channel, id, asked'⟩, item⟩ := reply
  injection hrequested with hchannel hid hasked
  subst hchannel hid hasked
  rw [hreply]
  cases item with
  | response channel id payload' =>
    injection Option.some.inj hhas with hchannel hid hpayload
    rw [hchannel, hid, hpayload]
  | _ => simp [QueuedItem.answer] at hhas

/-- In every run of two nodes that are joined by pipes, whose clients and users keep to the limits
of the channels and send no errors, and in which no request is cancelled and no answer is read while
a request waits that can get its id: a guard is resolved with a response only if the peer's user has
responded so to the request that was queued with this guard, and no response resolves two guards. -/
theorem response_resolves_its_request (h : Reach builder s) (x : Bool) :
    (∀ guard payload, outcomeOf (s x).node.rpc.guards guard = some (.ok payload) →
      ∃ key j, Settles x s guard payload key j) ∧
    ∀ guard guard' payload payload' key j, Settles x s guard payload key j →
      Settles x s guard' payload' key j →
      guard = guard' := by
  obtain ⟨n, hr⟩ : ∃ n, Refines builder s n := by
    refine Transition.Reach.invariant (P := fun s => ∃ n, Refines builder s n) h ⟨_,
      refines_new builder⟩ ?_
    rintro s s' act ⟨n, hr⟩ hok hs
    exact hr.step hok hs
  refine ⟨fun guard payload hok => hr.settles hok, ?_⟩
  rintro guard guard' payload payload' key j ⟨ioId, asked, _, hsent, hrequest, _⟩ ⟨ioId', asked', _,
    hsent', hrequest', _⟩
  rw [hrequest] at hrequest'
  cases Option.some.inj hrequest'
  exact congrArg Prod.fst (List.inj_on_of_nodup_map (hr.tied x).custody.ids hsent hsent' rfl)

/-- A request of one client, and the response of the other node's user. -/
def queuedAndAnswered : List (Bool × NodeAct) :=
  [(false, .reserve ⟨0⟩), (false, .queueForSending ⟨⟨0⟩, ⟨0⟩⟩ (some [7]) none 0),
    (false, .turn 0), (false, .recv), (false, .turn 0), (false, .poll .turn), (false, .poll .recv),
    (false, .poll .tryRecv), (false, .poll .turn), (false, .poll (.write 6)), (true, .turn 0),
    (true, .poll .turn), (true, .poll (.read [2, 0, 1, 0, 1, 7])), (true, .poll .turn),
    (true, .respond 0 (some [9])), (true, .turn 0), (true, .poll .turn), (true, .poll .recv),
    (true, .poll .tryRecv), (true, .poll .turn), (true, .poll (.write 6)), (false, .poll .turn),
    (false, .poll (.read [3, 0, 1, 0, 1, 9])), (false, .poll .turn)]

theorem response_resolves_its_request_first :
    ∃ s : RpcNet 1, (s false).queued = [(0, ⟨⟨0⟩, ⟨0⟩⟩, some [7])] ∧
    (s true).replies = [(⟨⟨0⟩, ⟨1⟩, some [7]⟩, .response ⟨0⟩ ⟨1⟩ (some [9]))] ∧
    ∃ key j, Settles false s 0 (some [9]) key j := by
  have hrun : (Transition.exec (step RpcNode.smallBuilder)
      (allowed RpcNode.smallBuilder) queuedAndAnswered
      (new RpcNode.smallBuilder)).map (fun s => ((s false).queued, (s true).replies,
        outcomeOf (s false).node.rpc.guards 0)) = some ([(0, ⟨⟨0⟩, ⟨0⟩⟩, some [7])],
          [(⟨⟨0⟩, ⟨1⟩, some [7]⟩, .response ⟨0⟩ ⟨1⟩ (some [9]))], some (.ok (some [9]))) := rfl
  obtain ⟨s, hs, he⟩ := Option.map_eq_some_iff.mp hrun
  simp only [Prod.mk.injEq] at he
  obtain ⟨hqueued, hreplies, hok⟩ := he
  exact ⟨s, hqueued, hreplies,
    (response_resolves_its_request (Transition.Reach.exec .start hs) false).1 0 _ hok⟩

end RpcNet

end Juliet
