import Mathlib.Algebra.Order.Group.Multiset
import Mathlib.Data.Multiset.OrderedMonoid
import Juliet.RpcNode
import Juliet.Timeouts

namespace Juliet

open Rust

namespace RpcTask

variable {t t' : RpcTask}

theorem settle_keeps (t : RpcTask) (ioId : IoId) (value : Except RequestError (Option Bytes)) :
    (t.settle ioId value).coreClosed = t.coreClosed ∧ (t.settle ioId value).events = t.events ∧
      (t.settle ioId value).newRequests = t.newRequests ∧
      (t.settle ioId value).enqueued = t.enqueued ∧
      (t.settle ioId value).issued = t.issued ∧ (t.settle ioId value).sent = t.sent := by
  unfold settle
  split <;> exact ⟨rfl, rfl, rfl, rfl, rfl, rfl⟩

theorem expireAll_keeps (t : RpcTask) (due : List (Nat × IoId)) :
    (t.expireAll due).2.coreClosed = t.coreClosed ∧ (t.expireAll due).2.events = t.events ∧
      (t.expireAll due).2.sent = t.sent := by
  induction due generalizing t with
  | nil => exact ⟨rfl, rfl, rfl⟩
  | cons entry due ih =>
    have hone : (t.expire entry.2).2.coreClosed = t.coreClosed ∧
        (t.expire entry.2).2.events = t.events ∧
        (t.expire entry.2).2.sent = t.sent := by
      obtain ⟨hc, he, _, _, _, hs⟩ := t.settle_keeps entry.2 (.error .timedOut)
      unfold expire
      split
      next =>
        dsimp only
        split
        next => exact ⟨hc, he, hs⟩
        next => exact ⟨hc, he, hs⟩
      next => exact ⟨rfl, rfl, rfl⟩
    obtain ⟨hc, he, hs⟩ := ih (t.expire entry.2).2
    exact ⟨hc.trans hone.1, he.trans hone.2.1, hs.trans hone.2.2⟩

theorem handleNewRequest_keeps (t : RpcTask) (new : NewOutgoingRequest) :
    (t.handleNewRequest new).coreClosed = t.coreClosed ∧
    (t.handleNewRequest new).events = t.events ∧ (t.handleNewRequest new).issued = t.issued ∧
    (t.handleNewRequest new).newRequests = t.newRequests := by
  unfold handleNewRequest
  split <;> exact ⟨rfl, rfl, rfl, rfl⟩

theorem handleNewRequest_enqueued (t : RpcTask) (new : NewOutgoingRequest) :
    (t.handleNewRequest new).enqueued =
    t.enqueued ++ if t.coreClosed then []
      else [.request new.ticket.channel new.ticket.ioId new.payload] := by
  unfold handleNewRequest
  split <;> simp [*]

theorem handleNewRequest_pending (t : RpcTask) (new : NewOutgoingRequest) :
    (t.handleNewRequest new).pending =
    if t.coreClosed then t.pending else t.pending.insert new.ticket.ioId new.guard := by
  unfold handleNewRequest
  split <;> simp [*]

/-- What a server that stays in place does with the requests, and the items that it sends to the
core: it takes up a request, or sends cancellations. -/
structure Moves (items : List QueuedItem) (t t' : RpcTask) : Prop where
  enqueued : t'.enqueued = t.enqueued ++ items
  dropped : t'.position = .dropped ↔ t.position = .dropped
  coreClosed : t'.coreClosed = t.coreClosed
  events : t'.events = t.events
  issued : t'.issued = t.issued
  requests : (∃ new, t.newRequests = new :: t'.newRequests ∧
      items =
        (if t.coreClosed then [] else [.request new.ticket.channel new.ticket.ioId new.payload]) ∧
      t'.pending = if t.coreClosed then t.pending else t.pending.insert new.ticket.ioId new.guard) ∨
    t'.newRequests = t.newRequests ∧ (∀ item ∈ items, ∃ ioId, item = .requestCancellation ioId) ∧
      ∀ ioId ∈ t'.pending, ioId ∈ t.pending

theorem Moves.idle (hp : t'.position = .dropped ↔ t.position = .dropped)
    (hc : t'.coreClosed = t.coreClosed) (he : t'.events = t.events) (hi : t'.issued = t.issued)
    (hn : t'.newRequests = t.newRequests) (hq : t'.enqueued = t.enqueued)
    (hpending : t'.pending = t.pending) : Moves [] t t' where
  enqueued := by rw [hq, List.append_nil]
  dropped := hp
  coreClosed := hc
  events := he
  issued := hi
  requests := .inr ⟨hn, by simp, fun _ h => hpending ▸ h⟩

theorem moves_of_serves {a : NodeAct} {b : RpcAct} (hb : RpcNode.serves a = some b)
    (h : t.step b = some t') : ∃ items, Moves items t t' := by
  cases b with
  | turn now =>
    simp only [step] at h
    split at h
    next htop =>
      have hkeeps :=
        expireAll_keeps { t with timeouts := (t.timeouts.span fun entry => entry.1 ≤ now).2 }
        (t.timeouts.span fun entry => entry.1 ≤ now).1
      have hsplit : t.processTimeouts now =
          ((t.processTimeouts now).1, (t.processTimeouts now).2.1, (t.processTimeouts now).2.2) :=
            rfl
      obtain ⟨taken, hex, _⟩ := processTimeouts_expires hsplit
      cases Option.some.inj h
      refine ⟨_, hex.enqueued, ?_, hkeeps.1, hkeeps.2.1, hex.issued, .inr ⟨hex.newRequests, ?_, ?_⟩⟩
      · simp only [htop, reduceCtorEq, iff_false]
        split <;> simp
      · intro item hin
        split at hin
        next => simp at hin
        next =>
          obtain ⟨p, _, rfl⟩ := List.mem_map.mp hin
          exact ⟨p.1, rfl⟩
      · intro ioId hin
        have hlookup : ((t.processTimeouts now).2.2.pending.lookup ioId).isSome = true :=
          AList.lookup_isSome.mpr hin
        rw [hex.pending] at hlookup
        split at hlookup
        next => simp at hlookup
        next => exact AList.lookup_isSome.mp hlookup
    next => simp at h
  | timeoutCheck now =>
    simp only [step] at h
    split at h
    next hselect =>
      split at h
      next =>
        cases Option.some.inj h
        exact ⟨[], .idle (by simp [hselect]) rfl rfl rfl rfl rfl rfl⟩
      next => simp at h
    next => simp at h
  | recv =>
    simp only [step] at h
    split at h
    next hselect =>
      split at h
      next new rest hq =>
        cases Option.some.inj h
        obtain ⟨hclosed, hevents, hissued, hrest⟩ :=
          handleNewRequest_keeps { t with newRequests := rest } new
        exact ⟨_, handleNewRequest_enqueued _ new, by simp [hselect], hclosed, hevents, hissued,
          .inl ⟨new, hq.trans (congrArg _ hrest.symm), rfl, handleNewRequest_pending _ new⟩⟩
      next =>
        split at h
        next => simp at h
        next =>
          cases Option.some.inj h
          exact ⟨[], .idle (by simp [hselect]) rfl rfl rfl rfl rfl rfl⟩
    next => simp at h
  | cancel =>
    simp only [step] at h
    split at h
    next hselect =>
      cases Option.some.inj h
      exact ⟨[], .idle (by simp [hselect]) rfl rfl rfl rfl rfl rfl⟩
    next => simp at h
  | dropClients =>
    cases Option.some.inj h
    exact ⟨[], .idle Iff.rfl rfl rfl rfl rfl rfl rfl⟩
  | _ => cases a <;> simp [RpcNode.serves] at hb

/-- The requests that the server sends take their permits with them. -/
theorem Moves.permits_le {items : List QueuedItem} (hm : Moves items t t') (i : Nat)
    (ioId : IoId) :
    t'.newRequests.countP (fun new => new.ticket.permitOn i == some ioId) +
      items.countP (fun item => item.permitOn i == some ioId) ≤
        t.newRequests.countP fun new => new.ticket.permitOn i == some ioId := by
  rcases hm.requests with ⟨new, hnew, hsent, _⟩ | ⟨hnew, hcancels, _⟩
  · have hone : items.countP (fun item => item.permitOn i == some ioId) ≤
        if (new.ticket.permitOn i == some ioId) = true then 1 else 0 := by
      rw [hsent]
      split
      next => simp
      next => exact List.countP_singleton.le
    rw [hnew, List.countP_cons]
    omega
  · have hzero : items.countP (fun item => item.permitOn i == some ioId) = 0 := by
      rw [List.countP_eq_zero]
      intro item hin
      obtain ⟨ioId, rfl⟩ := hcancels item hin
      simp [QueuedItem.permitOn]
    rw [hnew]
    omega

end RpcTask

namespace IoCore

variable {N : Nat} {self c : IoCore N} {p : QueuedItem → Bool}

/-- How many items of the local queue and the wait queues pass a test. -/
def stored (self : IoCore N) (p : QueuedItem → Bool) : Nat :=
  self.receiver.queue.countP p + ∑ j, (self.waitQueue j).countP p

theorem count_permits (self : IoCore N) (i : Nat) (ioId : IoId) :
    (self.permits i).count ioId = self.stored fun item => item.permitOn i == some ioId := by
  rw [permits, stored, Multiset.count_add, Multiset.count_sum', Multiset.coe_count,
    List.count_filterMap]
  congr 1
  refine Finset.sum_congr rfl ?_
  intro j _
  rw [Multiset.coe_count, List.count_filterMap]

theorem stored_setWaitQueue (self : IoCore N) (i : Fin N) (queue : List QueuedItem)
    (p : QueuedItem → Bool) :
    (self.setWaitQueue i queue).stored p + (self.waitQueue i).countP p =
      self.stored p + queue.countP p := by
  have hsum := Finset.add_sum_erase Finset.univ (fun j => (self.waitQueue j).countP p)
    (Finset.mem_univ i)
  have hsum' := Finset.add_sum_erase Finset.univ
    (fun j => ((self.setWaitQueue i queue).waitQueue j).countP p)
    (Finset.mem_univ i)
  have hrest : ∑ j ∈ Finset.univ.erase i, ((self.setWaitQueue i queue).waitQueue j).countP p =
      ∑ j ∈ Finset.univ.erase i, (self.waitQueue j).countP p := by
    refine Finset.sum_congr rfl ?_
    intro j hj
    rw [self.setWaitQueue_of_ne (Finset.ne_of_mem_erase hj)]
  have hreceiver : (self.setWaitQueue i queue).receiver = self.receiver := rfl
  simp only [setWaitQueue_self] at hsum'
  rw [stored, stored, hreceiver]
  omega

theorem stored_congr (hr : c.receiver.queue = self.receiver.queue)
    (hw : c.waitQueue = self.waitQueue) :
    c.stored p = self.stored p := by
  rw [stored, stored, hr, hw]

theorem SendStep.stored_le {item : QueuedItem} {r : Except LocalProtocolViolation Unit}
    (hs : SendStep self item r c) :
    c.stored p ≤ self.stored p := by
  cases hs with
  | request | cancel | response | responseCancellation =>
    exact (stored_congr (by simp) (by simp)).le
  | late | refused | oversized => exact le_rfl
  | error channel id payload frame _ _ => simp [stored, erroring]

theorem ScanStep.stored_le {i : Fin N} (hs : ScanStep i self c) : c.stored p ≤ self.stored p := by
  cases hs with
  | rotate item rest channel hq _ =>
    have hset := self.stored_setWaitQueue i (rest ++ [item]) p
    rw [hq, List.countP_append, List.countP_cons, List.countP_singleton] at hset
    omega
  | promote item rest r c hq _ hs =>
    have hset := self.stored_setWaitQueue i rest p
    have hsend : c.stored p ≤ (self.setWaitQueue i rest).stored p := hs.stored_le
    rw [hq, List.countP_cons] at hset
    omega
  | lose item rest hq =>
    have hset := self.stored_setWaitQueue i rest p
    rw [hq, List.countP_cons] at hset
    omega

theorem processWaitQueue_stored_le {channel : ChannelId} {r : Except LocalProtocolViolation Unit}
    (hq : self.processWaitQueue channel = .ok (r, c)) : c.stored p ≤ self.stored p :=
  processWaitQueue_keeps (P := fun c => c.stored p ≤ self.stored p) hq le_rfl
    fun ih hs => hs.stored_le.trans ih

theorem handleCompletedRead_stored (self : IoCore N) (read : CompletedRead)
    (p : QueuedItem → Bool) :
    (self.handleCompletedRead read).2.stored p = self.stored p := by
  rcases self.handleCompletedRead_core read with he | ⟨key, he⟩
  · rw [he]
  · rw [he]
    rfl

theorem ParseStep.stored_le {outcome : Option ReadOutcome}
    {result : Option (Except CoreError IoEvent)} (hs : ParseStep self outcome result c) :
    c.stored p ≤ self.stored p := by
  cases hs with
  | skip _ => exact le_rfl
  | incomplete _ _ _ _ => exact le_rfl
  | fatal errMsg juliet buffer frame _ _ _ => simp [stored, erroring, parsed]
  | event read juliet buffer _ _ => exact (handleCompletedRead_stored _ read p).le
  | response channel id payload juliet buffer c _ hq =>
    have hscan := processWaitQueue_stored_le (p := p) hq
    exact (handleCompletedRead_stored _ _ p).le.trans hscan
  | violation channel id payload juliet buffer err c _ hq =>
    have hscan := processWaitQueue_stored_le (p := p) hq
    exact hscan

theorem ItemStep.stored_le {item : QueuedItem} {r : Except LocalProtocolViolation Unit}
    (hs : ItemStep self item r c) :
    c.stored p ≤ self.stored p + if p item then 1 else 0 := by
  cases hs with
  | refused _ _ => exact Nat.le_add_right _ _
  | wait channel i _ _ =>
    have hset := self.stored_setWaitQueue i (self.waitQueue i ++ [item]) p
    rw [List.countP_append, List.countP_singleton] at hset
    omega
  | send r c _ hs => exact hs.stored_le.trans (Nat.le_add_right _ _)

end IoCore

namespace IoTask

variable {N : Nat} {t t' : IoTask N} {p : QueuedItem → Bool}

theorem stored_dequeued (t : IoTask N) (queue : List QueuedItem) (p : QueuedItem → Bool) :
    IoCore.stored (t.dequeued queue) p + t.core.receiver.queue.countP p =
      t.core.stored p + queue.countP p := by
  simp only [IoCore.stored, dequeued]
  omega

/-- Polling a core adds nothing to what it stores. -/
theorem Step.stored_le {a : IoAct} (hs : Step t a t') (ha : a.polls = true) :
    t'.core.stored p ≤ t.core.stored p := by
  cases hs with
  | enqueue _ _ _ _ _ => simp [IoAct.polls] at ha
  | event outcome event core _ _ hparse => exact hparse.stored_le
  | failed outcome err core _ _ hparse => exact hparse.stored_le
  | selecting outcome core core' _ _ hparse hready =>
    have hsame : core'.stored p = core.stored p := by
      cases hready <;> rfl
    exact hsame.le.trans hparse.stored_le
  | writeAll current core position r _ _ _ hsent _ =>
    cases hsent with
    | error active _ => exact le_rfl
    | scanned i c _ hq | violation i c err _ hq =>
      have hscan := IoCore.processWaitQueue_stored_le (p := p) hq
      exact hscan
  | taken a item rest core _ _ hq hi | rejected a item rest core _ _ _ hq hi =>
    have hitem := (IoCore.handleIncomingItem_steps hi).stored_le (p := p)
    have hdeq := t.stored_dequeued rest p
    rw [hq, List.countP_cons] at hdeq
    dsimp only
    omega
  | _ => exact le_rfl

theorem Offered.stored {items : List QueuedItem} (h : Offered items t t') :
    t'.core.stored p = t.core.stored p + items.countP p := by
  have hdeq := t.stored_dequeued (t.core.receiver.queue ++ items) p
  rw [List.countP_append] at hdeq
  rw [h.core]
  omega

end IoTask

namespace RpcTask

variable {t t' : RpcTask}

/-- What queueing a request changes besides the guards. -/
structure Queues (ticket : RequestTicket) (payload : Option Bytes) (t t' : RpcTask) : Prop where
  unused : ticket.ioId ∉ t.issued
  issued : t'.issued = insert ticket.ioId t.issued
  position : t'.position = t.position
  coreClosed : t'.coreClosed = t.coreClosed
  events : t'.events = t.events
  enqueued : t'.enqueued = t.enqueued
  requests : t'.newRequests = t.newRequests ∨
    ∃ expires, t'.newRequests = t.newRequests ++ [⟨ticket, t.guards.length, payload, expires⟩]

/-- Queueing a request turns the ticket into a new request, or drops it with an error. -/
theorem queues_of_queueForSending {ticket : RequestTicket} {payload : Option Bytes}
    {timeout : Option Nat} {now : Nat}
    (h : t.queueForSending (some ticket) payload timeout now = some t') :
    Queues ticket payload t t' := by
  unfold queueForSending at h
  split at h
  next => simp at h
  next =>
    dsimp only at h
    split at h
    next => simp at h
    next hunused =>
      cases Option.some.inj h
      have hsend : ∀ expires, Queues ticket payload t
          ({ t with issued := insert ticket.ioId t.issued }.sendNewRequest ticket
            payload expires) := by
        intro expires
        unfold sendNewRequest
        split
        next => exact ⟨hunused, rfl, rfl, rfl, rfl, rfl, .inl rfl⟩
        next => exact ⟨hunused, rfl, rfl, rfl, rfl, rfl, .inr ⟨expires, rfl⟩⟩
      unfold doEnqueueRequest
      split
      next => exact hsend none
      next =>
        split
        next expires _ => exact hsend (some expires)
        next => exact ⟨hunused, rfl, rfl, rfl, rfl, rfl, .inl rfl⟩

theorem step_event_keeps {event : IoEvent} (h : t.step (.event event) = some t') :
    t'.position = .top ∧
    t'.newRequests = t.newRequests ∧ t'.coreClosed = t.coreClosed ∧ t'.issued = t.issued ∧
    t'.enqueued = t.enqueued ∧
      t'.events = t.events ++ [event] := by
  simp only [step] at h
  split at h
  next =>
    cases Option.some.inj h
    cases event with
    | newRequest | requestCancelled => exact ⟨rfl, rfl, rfl, rfl, rfl, rfl⟩
    | receivedResponse ioId payload =>
      obtain ⟨hc, he, hn, hq, hi, _⟩ :=
        settle_keeps { t with events := t.events ++ [.receivedResponse ioId payload] }
        ioId (.ok payload)
      exact ⟨rfl, hn, hc, hi, hq, he⟩
    | receivedCancellationResponse ioId =>
      obtain ⟨hc, he, hn, hq, hi, _⟩ :=
        settle_keeps { t with events := t.events ++ [.receivedCancellationResponse ioId] }
        ioId (.error .remoteCancelled)
      exact ⟨rfl, hn, hc, hi, hq, he⟩
  next => simp at h

end RpcTask

namespace RpcNode

variable {N : Nat} {builder : RpcBuilder N} {s s' : RpcNode N}

/-- The states of all runs. -/
abbrev Reach (builder : RpcBuilder N) : RpcNode N → Prop :=
  Transition.Reach (step builder) (fun _ _ => true) (.new builder)

/-- A run given by its steps. -/
abbrev run (builder : RpcBuilder N) (as : List NodeAct) : Option (RpcNode N) :=
  Transition.exec (step builder) (fun _ _ => true) as (.new builder)

/-- What the server has received from its core is what it keeps of its requests, and where it goes
on. -/
theorem returned_keeps {rpc rpc' : RpcTask} {events : List IoEvent} {position : Position}
    (h : returned rpc events position = some rpc') (hp : rpc.position ≠ .dropped) :
    rpc'.position ≠ .dropped ∧
    rpc'.newRequests = rpc.newRequests := by
  unfold returned at h
  split at h
  next =>
    obtain ⟨htop, hn, _⟩ := RpcTask.step_event_keeps h
    exact ⟨by simp [htop], hn⟩
  next =>
    simp only [RpcTask.step] at h
    split at h
    next =>
      cases Option.some.inj h
      exact ⟨by simp, rfl⟩
    next => simp at h
  next =>
    cases Option.some.inj h
    exact ⟨hp, rfl⟩

theorem countP_arriving_le (s : RpcNode N) (items : List QueuedItem) (p : QueuedItem → Bool) :
    (s.arriving items).countP p ≤ items.countP p := by
  unfold arriving
  split
  next => exact le_rfl
  next => simp

theorem count_permits (s : RpcNode N) (i : Fin N) (ioId : IoId) : (s.permits i).count ioId =
    s.tickets.countP (fun ticket => ticket.permitOn i == some ioId) +
      s.rpc.newRequests.countP (fun new => new.ticket.permitOn i == some ioId) +
      if s.rpc.position = .dropped then 0
      else s.io.core.stored fun item => item.permitOn i == some ioId := by
  rw [permits, Multiset.count_add, Multiset.count_add, Multiset.coe_count, Multiset.coe_count,
    List.count_filterMap, List.count_filterMap]
  congr 1
  split
  next => exact Multiset.count_zero ioId
  next => exact s.io.core.count_permits i ioId

/-- Items that are no requests hold no permits. -/
theorem offered_permits {items : List QueuedItem} {io : IoTask N} {i : Fin N} {free : Fin N → Nat}
    {incoming : List IncomingRequest} (ho : IoTask.Offered (s.arriving items) s.io io)
    (hitems : ∀ item ∈ items, item.permitOn i = none) :
    permits { s with io, free, incoming } i = s.permits i := by
  refine Multiset.ext' ?_
  intro ioId
  have hnone : (s.arriving items).countP (fun item => item.permitOn i == some ioId) = 0 := by
    refine Nat.le_zero.mp ((s.countP_arriving_le items _).trans (Nat.le_zero.mpr ?_))
    rw [List.countP_eq_zero]
    intro item hin
    simp [hitems item hin]
  simp only [count_permits, ho.stored, hnone, Nat.add_zero]

/-- A reservation adds the permit of the new ticket. -/
theorem Step.permits_reserve {channel : ChannelId} (hs : Step builder s (.reserve channel) s')
    (i : Fin N) :
    0 < s.free i ∧ s'.permits i = ⟨s.nextIoId % 2 ^ 64⟩ ::ₘ s.permits i ∧ channel.get.toNat = i ∨
      s'.permits i = s.permits i ∧ channel.get.toNat ≠ i := by
  cases hs with
  | reserve _ j hj hfree =>
    by_cases he : channel.get.toNat = i
    · have heq : j = i := Fin.ext (hj.symm.trans he)
      subst heq
      refine .inl ⟨hfree, ?_, he⟩
      simp only [permits, List.filterMap_append, List.filterMap_cons, List.filterMap_nil,
        RequestTicket.permitOn, he, if_true]
      rw [← Multiset.coe_add, Multiset.coe_singleton, Multiset.add_comm _ ({_} : Multiset IoId),
        Multiset.add_assoc, Multiset.add_assoc, Multiset.singleton_add]
      rw [← Multiset.add_assoc]
    · refine .inr ⟨?_, he⟩
      simp [permits, List.filterMap_append, RequestTicket.permitOn, he]
  | serve _ b rpc io hb _ _ _ => simp [serves] at hb
  | answer _ k request item io _ hreply _ _ _ => simp [reply] at hreply

/-- No other step adds a permit: each moves on with its request, or is dropped. -/
theorem Step.permits_le {a : NodeAct} (hs : Step builder s a s')
    (ha : ∀ channel, a ≠ .reserve channel) (i : Fin N) :
    s'.permits i ≤ s.permits i := by
  rw [Multiset.le_iff_count]
  intro ioId
  rw [count_permits, count_permits]
  cases hs with
  | reserve channel j hj hfree => exact absurd rfl (ha channel)
  | queue ticket payload timeout timeout' now rpc hin hrpc =>
    have hqueues := RpcTask.queues_of_queueForSending hrpc
    have herase : (s.tickets.erase ticket).countP (fun ticket => ticket.permitOn i == some ioId) +
        (if (ticket.permitOn i == some ioId) = true then 1 else 0) =
          s.tickets.countP fun ticket => ticket.permitOn i == some ioId := by
      rw [(List.perm_cons_erase hin).countP_eq, List.countP_cons]
    simp only [hqueues.position]
    rcases hqueues.requests with hnew | ⟨expires, hnew⟩
    · rw [hnew]
      omega
    · rw [hnew, List.countP_append, List.countP_singleton]
      dsimp only
      omega
  | dropTicket ticket =>
    have hle := List.Sublist.countP_le (p := fun ticket => ticket.permitOn i == some ioId)
      (List.erase_sublist (a := ticket) (l := s.tickets))
    dsimp only
    omega
  | serve _ b rpc io hserves hrpc _ ho =>
    obtain ⟨items, hm⟩ := RpcTask.moves_of_serves hserves hrpc
    have hitems : s.newItems rpc = items := by rw [newItems, hm.enqueued, List.drop_left]
    have hle := s.countP_arriving_le items fun item => item.permitOn i == some ioId
    rw [hitems] at ho
    have hmoved := hm.permits_le i ioId
    simp only [ho.stored, hm.dropped]
    split <;> omega
  | drop _ =>
    simp only [RpcTask.dropServer, List.countP_nil, if_true]
    omega
  | poll a deadline io rpc hselect hpolls hio hrpc =>
    have htold : (s.told io).position = s.rpc.position ∧ (s.told io).newRequests =
        s.rpc.newRequests := by
      unfold told
      split <;> exact ⟨rfl, rfl⟩
    obtain ⟨hpos, hnew⟩ := returned_keeps hrpc (by simp [htold.1, hselect])
    have hstored := (IoTask.step_steps hio).stored_le
      (p := fun item => item.permitOn i == some ioId) hpolls
    simp only [hnew, htold.2, hselect, if_neg hpos, reduceCtorEq, if_false]
    omega
  | answer _ k request item io _ _ hitem _ ho =>
    rw [← count_permits, ← count_permits, offered_permits ho]
    intro item' hin
    rw [List.mem_singleton.mp hin]
    rcases hitem with rfl | ⟨payload, rfl⟩ <;> rfl
  | customError channel id payload io _ ho =>
    rw [← count_permits, ← count_permits, offered_permits ho]
    intro item hin
    rw [List.mem_singleton.mp hin]
    rfl

/-- Whether an action takes a permit of the channel. -/
def reserves (i : Nat) : NodeAct → Bool
  | .reserve channel => channel.get.toNat = i
  | _ => false

/-- What an action takes from the semaphores. -/
theorem plan_free {a : NodeAct} {acts : List IoAct} {s₁ : RpcNode N}
    (h : s.plan builder a = some (acts, s₁)) (i : Fin N) :
    s₁.free i = s.free i - if reserves i a then 1 else 0 := by
  cases a with
  | reserve channel =>
    simp only [plan] at h
    split at h
    next hlt =>
      split at h
      next =>
        cases Option.some.inj h
        by_cases he : (⟨channel.get.toNat, hlt⟩ : Fin N) = i
        · subst he
          simp [reserves]
        · have hne : channel.get.toNat ≠ i := fun hc => he (Fin.ext hc)
          simp [reserves, hne, Function.update_of_ne (Ne.symm he)]
      next => simp at h
    next => simp at h
  | queueForSending ticket payload timeout now =>
    simp only [plan] at h
    split at h
    next =>
      obtain ⟨rpc, _, h⟩ := Option.bind_eq_some_iff.mp h
      cases Option.some.inj h
      rfl
    next => simp at h
  | dropTicket ticket =>
    simp only [plan] at h
    split at h
    next =>
      cases Option.some.inj h
      rfl
    next => simp at h
  | poll b =>
    simp only [plan] at h
    split at h
    next =>
      split at h
      next =>
        cases Option.some.inj h
        rfl
      next => simp at h
    next => simp at h
  | timeoutCheck now | recv | cancel =>
    obtain ⟨acts', _, h⟩ := Option.bind_eq_some_iff.mp h
    obtain ⟨rpc, _, h⟩ := Option.bind_eq_some_iff.mp h
    cases Option.some.inj h
    rfl
  | turn now | drop | respond k payload | refuse k =>
    obtain ⟨_, _, h⟩ := Option.bind_eq_some_iff.mp h
    cases Option.some.inj h
    rfl
  | dropClients | sendCustomError channel id payload =>
    cases Option.some.inj h
    rfl

/-- What a step leaves in the semaphores: what it takes is gone, and the permits that it drops are
back. -/
theorem step_free {a : NodeAct} (h : s.step builder a = some s') (i : Fin N) :
    s'.free i = s.free i - (if reserves i a then 1 else 0) + (s.permits i - s'.permits i).card := by
  obtain ⟨⟨acts, s₁⟩, hplan, h⟩ := Option.bind_eq_some_iff.mp h
  obtain ⟨io, _, h⟩ := Option.bind_eq_some_iff.mp h
  obtain ⟨s₂, hfinish, h⟩ := Option.bind_eq_some_iff.mp h
  cases Option.some.inj h
  have hsame : s₂.free = s₁.free := by
    unfold finish at hfinish
    split at hfinish
    next =>
      obtain ⟨rpc, _, rfl⟩ := observe_cases hfinish
      rfl
    next =>
      cases Option.some.inj hfinish
      rfl
  rw [← plan_free hplan i, ← hsame]
  rfl

/-- In every run the permits that a channel's semaphore has left and those in use, each with a
ticket, a new request or an item that has not been started, are as many as its buffer has places: a
permit is taken by a reservation only, and from then on it moves with its request until it is
dropped. -/
theorem permits_bounded (hr : Reach builder s) (i : Fin N) :
    s.free i + (s.permits i).card = builder.core.bufferSize i ∧
      ∀ a s', s.step builder a = some s' → (∀ channel, a ≠ .reserve channel) →
        s'.permits i ≤ s.permits i := by
  refine ⟨?_, fun a s' hs ha => (step_steps hs).permits_le ha i⟩
  refine Transition.Reach.invariant
    (P := fun s => s.free i + (s.permits i).card = builder.core.bufferSize i) hr ?_ ?_
  · simp [permits, new, RpcTask.new, IoCore.permits, IoTask.new, IoCore.new]
  · intro s s' a hsum _ hs
    have hfree := step_free hs i
    by_cases ha : ∀ channel, a ≠ .reserve channel
    · have hle := (step_steps hs).permits_le ha i
      have hnone : reserves i a = false := by
        cases a with
        | reserve channel => exact absurd rfl (ha channel)
        | _ => rfl
      have hcard := Multiset.card_le_card hle
      rw [hnone, Multiset.card_sub hle] at hfree
      simp only [Bool.false_eq_true, if_false] at hfree
      omega
    · simp only [not_forall, not_not] at ha
      obtain ⟨channel, rfl⟩ := ha
      rcases (step_steps hs).permits_reserve i with ⟨hpos, hpermits, hi⟩ | ⟨hpermits, hi⟩
      · have hle : s.permits i ≤ s'.permits i := hpermits ▸ Multiset.le_cons_self _ _
        rw [tsub_eq_zero_of_le hle] at hfree
        simp only [reserves, hi, decide_true, if_true, Multiset.card_zero] at hfree
        rw [hpermits, Multiset.card_cons]
        omega
      · rw [hpermits, tsub_self] at hfree
        simp only [reserves, hi, decide_false, Bool.false_eq_true, if_false,
          Multiset.card_zero] at hfree
        rw [hpermits]
        omega

/-- One channel with one place in its buffer and one request at a time. -/
def smallBuilder : RpcBuilder 1 := ⟨.new JulietProtocol.smallBuilder, false, none⟩

/-- One request has been started, the next one waits for its answer, and a third one cannot be
reserved. -/
def bufferFull : List NodeAct :=
  [.reserve ⟨0⟩, .queueForSending ⟨⟨0⟩, ⟨0⟩⟩ none none 0, .turn 0, .recv, .turn 0,
    .poll .turn, .poll .recv, .poll .tryRecv, .reserve ⟨0⟩, .queueForSending ⟨⟨0⟩, ⟨1⟩⟩ none none 0,
    .recv, .turn 0, .poll .turn, .poll .recv]

theorem permits_bounded_full :
    ∃ s, Reach smallBuilder s ∧ s.free 0 = 0 ∧ (s.io.core.waitQueue 0).length = 1 ∧
    (s.step smallBuilder (.reserve ⟨0⟩)).isNone = true ∧
    s.free 0 + (s.permits 0).card = smallBuilder.core.bufferSize 0 := by
  have hrun : (run smallBuilder bufferFull).map (fun s => (s.free 0, (s.io.core.waitQueue 0).length,
      (s.step smallBuilder (.reserve ⟨0⟩)).isNone)) = some (0, 1, true) := rfl
  obtain ⟨s, hs, he⟩ := Option.map_eq_some_iff.mp hrun
  simp only [Prod.mk.injEq] at he
  obtain ⟨hfree, hwaits, hrefused⟩ := he
  have hreach : Reach smallBuilder s := Transition.Reach.exec .start hs
  exact ⟨s, hreach, hfree, hwaits, hrefused, (permits_bounded hreach 0).1⟩

end RpcNode

end Juliet
