import Juliet.RequestCustody
import Juliet.RpcCustody

namespace Juliet

open Rust

/-- How an `IoCore` is built, less the timeout for errors. -/
structure IoCoreBuilder (N : Nat) where
  protocol : ProtocolBuilder N
  bufferSize : Fin N → Nat

namespace IoCoreBuilder

variable {N : Nat}

def withDefaultBufferSize (protocol : ProtocolBuilder N) (defaultBufferSize : Nat) :
    IoCoreBuilder N :=
  ⟨protocol, fun _ => defaultBufferSize⟩

def new (protocol : ProtocolBuilder N) : IoCoreBuilder N := withDefaultBufferSize protocol 1

end IoCoreBuilder

structure RpcBuilder (N : Nat) where
  core : IoCoreBuilder N
  bubbleTimeouts : Bool
  defaultTimeout : Option Nat

/-- A request that has been returned by `next_request` and has neither been answered nor dropped. -/
structure IncomingRequest where
  channel : ChannelId
  id : Id
  payload : Option Bytes
  deriving DecidableEq, Repr

/-- A server with its core and its clients: the next id for a request, the permits that the
semaphores of the channels have left, the tickets that are reserved and not used, and the incoming
requests that are to be answered. The core goes with the server when it is dropped. -/
structure RpcNode (N : Nat) where
  io : IoTask N
  rpc : RpcTask
  nextIoId : Nat
  free : Fin N → Nat
  tickets : List RequestTicket
  incoming : List IncomingRequest

inductive NodeAct
  | reserve (channel : ChannelId)
  | queueForSending (ticket : RequestTicket) (payload : Option Bytes)
      (timeout : Option Nat) (now : Nat)
  | dropTicket (ticket : RequestTicket)
  | dropClients
  | turn (now : Nat)
  | timeoutCheck (now : Nat)
  | recv
  | cancel
  | poll (a : IoAct)
  | drop
  | respond (k : Nat) (payload : Option Bytes)
  | refuse (k : Nat)
  | sendCustomError (channel : ChannelId) (id : Id) (payload : Bytes)
  deriving DecidableEq, Repr

/-- Whether an action is one that happens while `next_event` is polled. -/
def IoAct.polls : IoAct → Bool
  | .enqueue _ | .dropHandles | .drop => false
  | _ => true

/-- The permit of a ticket, named by the id that it came with, if it is one of the channel. -/
def RequestTicket.permitOn (i : Nat) (ticket : RequestTicket) : Option IoId :=
  if ticket.channel.get.toNat = i then some ticket.ioId else none

/-- The permit that an item holds. -/
def QueuedItem.permitOn (i : Nat) : QueuedItem → Option IoId
  | .request channel ioId _ => if channel.get.toNat = i then some ioId else none
  | _ => none

/-- The permits that the items of the local queue and the wait queues hold. -/
def IoCore.permits {N : Nat} (self : IoCore N) (i : Nat) : Multiset IoId :=
  self.receiver.queue.filterMap (QueuedItem.permitOn i) +
    ∑ j, ((self.waitQueue j).filterMap (QueuedItem.permitOn i) : Multiset IoId)

def IncomingRequest.ofEvent : IoEvent → Option IncomingRequest
  | .newRequest channel id payload => some ⟨channel, id, payload⟩
  | _ => none

def Exit.error : Exit → Option CoreError
  | .closed => none
  | .failed err => some err

namespace RpcNode

variable {N : Nat}

def new (builder : RpcBuilder N) : RpcNode N :=
  { io := .new builder.core.protocol
    rpc := .new builder.bubbleTimeouts
    nextIoId := 0
    free := builder.core.bufferSize
    tickets := []
    incoming := [] }

/-- The permits of a channel that are in use. Each is owned by a ticket, by a new request or by an
item. -/
def permits (s : RpcNode N) (i : Fin N) : Multiset IoId :=
  s.tickets.filterMap (RequestTicket.permitOn i) +
    s.rpc.newRequests.filterMap (fun new => new.ticket.permitOn i) +
    if s.rpc.position = .dropped then 0 else s.io.core.permits i

/-- A permit goes back to its semaphore when its owner is dropped. -/
def dropsPermits (s s' : RpcNode N) : RpcNode N :=
  { s' with free := fun i => s'.free i + (s.permits i - s'.permits i).card }

/-- Whether a handle can send to the core. -/
def isOpen (s : RpcNode N) : Bool := !s.io.core.receiver.closed && s.rpc.position ≠ .dropped

/-- What sending items to the core amounts to. -/
def sends (s : RpcNode N) (items : List QueuedItem) : List IoAct :=
  if s.isOpen then items.map .enqueue else []

/-- What the server has sent to the core in a step. -/
def newItems (s : RpcNode N) (rpc : RpcTask) : List QueuedItem :=
  rpc.enqueued.drop s.rpc.enqueued.length

/-- Dropping the future of `next_event`, which suspends where it awaits. -/
def suspend (s : RpcNode N) : Option (List IoAct) :=
  match s.io.position with
  | .top => some []
  | .select => some [.drop]
  | .writingError _ => some [.drop]
  | _ => none

/-- What an action does to the core, and to everything else. The ids come from a counter of 64
bits. -/
def plan (builder : RpcBuilder N) (s : RpcNode N) : NodeAct → Option (List IoAct × RpcNode N)
  | .reserve channel =>
    if h : channel.get.toNat < N then
      if s.rpc.clients ∧ 0 < s.free ⟨channel.get.toNat, h⟩ then
        some ([], { s with
          free := Function.update s.free ⟨channel.get.toNat, h⟩ (s.free ⟨channel.get.toNat, h⟩ - 1)
          tickets := s.tickets ++ [⟨channel, ⟨s.nextIoId % 2 ^ 64⟩⟩]
          nextIoId := s.nextIoId + 1 })
      else none
    else none
  | .queueForSending ticket payload timeout now =>
    if ticket ∈ s.tickets then do
      let rpc ← s.rpc.step
        (.queueForSending (some ticket) payload (timeout <|> builder.defaultTimeout) now)
      some ([], { s with rpc, tickets := s.tickets.erase ticket })
    else none
  | .dropTicket ticket =>
    if ticket ∈ s.tickets then some ([], { s with tickets := s.tickets.erase ticket }) else none
  | .dropClients => do
    let rpc ← s.rpc.step .dropClients
    some ([], { s with rpc })
  | .turn now => do
    let rpc ← s.rpc.step (.turn now)
    some (s.sends (s.newItems rpc), { s with rpc })
  | .timeoutCheck now => do
    let acts ← s.suspend
    let rpc ← s.rpc.step (.timeoutCheck now)
    some (acts, { s with rpc })
  | .recv => do
    let acts ← s.suspend
    let rpc ← s.rpc.step .recv
    some (acts ++ s.sends (s.newItems rpc), { s with rpc })
  | .cancel => do
    let acts ← s.suspend
    let rpc ← s.rpc.step .cancel
    some (acts, { s with rpc })
  | .poll a =>
    match s.rpc.position with
    | .select _ => if a.polls then some ([a], s) else none
    | _ => none
  | .drop => do
    let rpc ← s.rpc.step .drop
    some ([], { s with rpc })
  | .respond k payload => do
    let request ← s.incoming[k]?
    some (s.sends [.response request.channel request.id payload],
      { s with incoming := s.incoming.eraseIdx k })
  | .refuse k => do
    let request ← s.incoming[k]?
    some (s.sends [.responseCancellation request.channel request.id],
      { s with incoming := s.incoming.eraseIdx k })
  | .sendCustomError channel id payload => some (s.sends [.error channel id payload], s)

/-- What `next_request` does with what `next_event` has returned, if it has. -/
def returned (rpc : RpcTask) (events : List IoEvent) (position : Position) : Option RpcTask :=
  match events, position with
  | event :: _, _ => rpc.step (.event event)
  | [], .done exit => rpc.step (.coreEnds exit.error)
  | [], _ => some rpc

/-- The server once it knows whether its core still accepts items. -/
def told (s : RpcNode N) (io : IoTask N) : RpcTask :=
  if io.core.receiver.closed then { s.rpc with coreClosed := true } else s.rpc

/-- What the server sees of its core after it has been polled. -/
def observe (s : RpcNode N) (io : IoTask N) : Option (RpcNode N) := do
  let events := io.events.drop s.io.events.length
  let rpc ← returned (s.told io) events io.position
  some { s with io, rpc, incoming := s.incoming ++ events.filterMap IncomingRequest.ofEvent }

/-- A node after what an action does to its core. -/
def finish (s : RpcNode N) (a : NodeAct) (io : IoTask N) : Option (RpcNode N) :=
  match a with
  | .poll _ => s.observe io
  | _ => some { s with io }

/-- Everything that can happen to a node. -/
def step (builder : RpcBuilder N) (s : RpcNode N) (a : NodeAct) : Option (RpcNode N) := do
  let (acts, planned) ← s.plan builder a
  let io ← Transition.exec IoTask.step IoTask.anyStep acts planned.io
  let s' ← planned.finish a io
  return s.dropsPermits s'

end RpcNode

namespace IoTask

variable {N : Nat} {t t' : IoTask N}

/-- The task once an item has been added to the local queue. -/
def withItem (t : IoTask N) (item : QueuedItem) : IoTask N :=
  { t with
    core := t.dequeued (t.core.receiver.queue ++ [item])
    issued := match item with
      | .request _ ioId _ => insert ioId t.issued
      | _ => t.issued }

theorem enqueue_cases {item : QueuedItem} (h : t.step (.enqueue item) = some t') :
    t.core.receiver.closed = false ∧
    (∀ ioId, item.isRequest ioId = true → ioId ∉ t.issued) ∧ t' = t.withItem item := by
  simp only [step, enqueue] at h
  split at h
  next => simp at h
  next hopen =>
    rw [not_or, Bool.not_eq_true] at hopen
    cases item with
    | request channel ioId payload =>
      dsimp only at h
      split at h
      next => simp at h
      next hnew =>
        cases Option.some.inj h
        refine ⟨hopen.1, ?_, rfl⟩
        intro ioId' hio
        rwa [← of_decide_eq_true hio]
    | _ =>
      cases Option.some.inj h
      exact ⟨hopen.1, by simp [QueuedItem.isRequest], rfl⟩

/-- What items that are added to the local queue change, and dropping the future of `next_event`. -/
structure Offered (items : List QueuedItem) (t t' : IoTask N) : Prop where
  core : t'.core = t.dequeued (t.core.receiver.queue ++ items)
  events : t'.events = t.events
  outcomes : t'.outcomes = t.outcomes
  written : t'.written = t.written
  issued : ∀ ioId, (if ioId ∈ t'.issued then 1 else 0) = (if ioId ∈ t.issued then 1 else 0) +
    requestsOf ioId items
  position : t'.position = t.position ∨ t'.position = .top ∧
    (t.position = .select ∨ ∃ data, t.position = .writingError data)
  run : ∃ acts : List IoAct, acts.flatMap IoAct.enqueues = items ∧ (∀ a ∈ acts, a.polls = false) ∧
    Transition.exec step anyStep acts t = some t'

theorem Offered.refl (t : IoTask N) : Offered [] t t where
  core := by simp [dequeued]
  events := rfl
  outcomes := rfl
  written := rfl
  issued := fun _ => rfl
  position := .inl rfl
  run := ⟨[], rfl, by simp, rfl⟩

/-- A run of one step. -/
theorem exec_one {a : IoAct} (h : t.step a = some t') :
    Transition.exec step anyStep [a] t = some t' :=
  Option.bind_eq_some_iff.mpr ⟨t', h, rfl⟩

theorem Offered.drop (h : t.step .drop = some t') : Offered [] t t' := by
  have hrun : ∃ acts : List IoAct, acts.flatMap IoAct.enqueues = [] ∧
      (∀ a ∈ acts, a.polls = false) ∧
      Transition.exec step anyStep acts t = some t' :=
        ⟨[.drop], rfl, by simp [IoAct.polls], exec_one h⟩
  simp only [step] at h
  split at h
  next hpos =>
    cases Option.some.inj h
    exact ⟨(Offered.refl t).core, rfl, rfl, rfl, fun _ => rfl, .inr ⟨rfl, .inl hpos⟩, hrun⟩
  next data hpos =>
    cases Option.some.inj h
    exact ⟨(Offered.refl t).core, rfl, rfl, rfl, fun _ => rfl, .inr ⟨rfl, .inr ⟨data, hpos⟩⟩, hrun⟩
  next => simp at h

theorem Offered.enqueue {item : QueuedItem} (h : t.step (.enqueue item) = some t') :
    Offered [item] t t' := by
  have hrun : ∃ acts : List IoAct, acts.flatMap IoAct.enqueues = [item] ∧
      (∀ a ∈ acts, a.polls = false) ∧
      Transition.exec step anyStep acts t = some t' := ⟨[.enqueue item],
        rfl, by simp [IoAct.polls], exec_one h⟩
  obtain ⟨_, hnew, rfl⟩ := enqueue_cases h
  refine ⟨rfl, rfl, rfl, rfl, ?_, .inl rfl, hrun⟩
  intro ioId
  cases item with
  | request channel ioId' payload =>
    by_cases he : ioId' = ioId
    · subst he
      simp [withItem, requestsOf, QueuedItem.isRequest, hnew ioId' (by simp [QueuedItem.isRequest])]
    · have hne : ioId ≠ ioId' := fun h => he h.symm
      simp [withItem, requestsOf, QueuedItem.isRequest, he, hne]
  | _ => rfl

theorem Offered.trans {items more : List QueuedItem} {t'' : IoTask N} (h : Offered items t t')
    (h' : Offered more t' t'') : Offered (items ++ more) t t'' where
  core := by
    rw [h'.core, dequeued, h.core]
    simp [dequeued]
  events := h'.events.trans h.events
  outcomes := h'.outcomes.trans h.outcomes
  written := h'.written.trans h.written
  issued ioId := by
    rw [h'.issued, h.issued, requestsOf_append, Nat.add_assoc]
  position := by
    rcases h'.position with hp' | ⟨hp', hwas⟩
    · rw [hp']
      exact h.position
    · rcases h.position with hp | ⟨hp, _⟩
      · exact .inr ⟨hp', hp ▸ hwas⟩
      · simp [hp] at hwas
  run := by
    obtain ⟨acts, hitems, hwaits, he⟩ := h.run
    obtain ⟨acts', hitems', hwaits', he'⟩ := h'.run
    refine ⟨acts ++ acts', ?_, ?_, ?_⟩
    · rw [List.flatMap_append, hitems, hitems']
    · intro a ha
      rcases List.mem_append.mp ha with ha | ha
      · exact hwaits a ha
      · exact hwaits' a ha
    · rw [Transition.exec_append, he]
      exact he'

theorem Offered.exec {items : List QueuedItem}
    (h : Transition.exec step anyStep (items.map .enqueue) t = some t') :
    Offered items t t' := by
  induction items generalizing t with
  | nil =>
    cases Option.some.inj h
    exact .refl t'
  | cons item items ih =>
    obtain ⟨t₁, hs, he⟩ := Option.bind_eq_some_iff.mp h
    exact (Offered.enqueue hs).trans (ih he)

end IoTask

namespace RpcNode

variable {N : Nat} {builder : RpcBuilder N} {s s' : RpcNode N}

/-- The items that arrive at the core. -/
def arriving (s : RpcNode N) (items : List QueuedItem) : List QueuedItem :=
  if s.isOpen then items else []

theorem sends_offered {items : List QueuedItem} {io io' : IoTask N}
    (h : Transition.exec IoTask.step IoTask.anyStep (s.sends items) io = some io') :
    IoTask.Offered (s.arriving items) io io' := by
  unfold sends at h
  unfold arriving
  split at h
  next hopen =>
    rw [if_pos hopen]
    exact .exec h
  next hopen =>
    rw [if_neg hopen]
    cases Option.some.inj h
    exact .refl io

theorem suspend_offered {acts : List IoAct} (hs : s.suspend = some acts) {io : IoTask N}
    (h : Transition.exec IoTask.step IoTask.anyStep acts s.io = some io) :
    IoTask.Offered [] s.io io := by
  have hdrop : acts = [.drop] → IoTask.Offered [] s.io io := by
    rintro rfl
    obtain ⟨io', hio, he⟩ := Option.bind_eq_some_iff.mp h
    cases Option.some.inj he
    exact .drop hio
  unfold suspend at hs
  split at hs
  next =>
    cases Option.some.inj hs
    cases Option.some.inj h
    exact .refl s.io
  next => exact hdrop (Option.some.inj hs).symm
  next => exact hdrop (Option.some.inj hs).symm
  next => simp at hs

/-- The answer that an action gives to an incoming request. -/
def reply (s : RpcNode N) : NodeAct → Option (IncomingRequest × QueuedItem)
  | .respond k payload =>
    (s.incoming[k]?).map fun request => (request, .response request.channel request.id payload)
  | .refuse k =>
    (s.incoming[k]?).map fun request => (request, .responseCancellation request.channel request.id)
  | _ => none

/-- The request that an action queues, with the guard that it gets. -/
def asks (s : RpcNode N) : NodeAct → Option (Nat × RequestTicket × Option Bytes)
  | .queueForSending ticket payload _ _ => some (s.rpc.guards.length, ticket, payload)
  | _ => none

/-- The items that an action sends to the core. -/
def offers (builder : RpcBuilder N) (s : RpcNode N) (a : NodeAct) : List QueuedItem :=
  ((s.plan builder a).map fun p => p.1.flatMap IoAct.enqueues).getD []

theorem sends_enqueues (s : RpcNode N) (items : List QueuedItem) :
    (s.sends items).flatMap IoAct.enqueues = s.arriving items := by
  unfold sends arriving
  split
  next => rw [List.flatMap_map]; exact List.flatMap_singleton' items
  next => rfl

theorem suspend_enqueues {acts : List IoAct} (hs : s.suspend = some acts) :
    acts.flatMap IoAct.enqueues = [] := by
  unfold suspend at hs
  split at hs
  next =>
    cases Option.some.inj hs
    rfl
  next =>
    cases Option.some.inj hs
    rfl
  next =>
    cases Option.some.inj hs
    rfl
  next => simp at hs

/-- The actions that are steps of the server and leave it in place. -/
def serves : NodeAct → Option RpcAct
  | .turn now => some (.turn now)
  | .timeoutCheck now => some (.timeoutCheck now)
  | .recv => some .recv
  | .cancel => some .cancel
  | .dropClients => some .dropClients
  | _ => none

/-- Everything that an action does, besides the permits that go back. -/
inductive Step (builder : RpcBuilder N) (s : RpcNode N) : NodeAct → RpcNode N → Prop
  | reserve (channel : ChannelId) (i : Fin N)
      {free : Fin N → Nat} : channel.get.toNat = i → 0 < s.free i →
      Step builder s (.reserve channel) { s with
        free
        tickets := s.tickets ++ [⟨channel, ⟨s.nextIoId % 2 ^ 64⟩⟩]
        nextIoId := s.nextIoId + 1 }
  | queue (ticket : RequestTicket) (payload : Option Bytes)
      (timeout timeout' : Option Nat) (now : Nat)
      (rpc : RpcTask) {free : Fin N → Nat} : ticket ∈ s.tickets →
      s.rpc.step (.queueForSending (some ticket) payload timeout' now) = some rpc →
      Step builder s (.queueForSending ticket payload timeout now)
        { s with rpc, free, tickets := s.tickets.erase ticket }
  | dropTicket (ticket : RequestTicket) {free : Fin N → Nat} :
      Step builder s (.dropTicket ticket) { s with free, tickets := s.tickets.erase ticket }
  | serve (a : NodeAct) (b : RpcAct) (rpc : RpcTask) (io : IoTask N)
      {free : Fin N → Nat} : serves a = some b →
      s.rpc.step b = some rpc → s.offers builder a = s.arriving (s.newItems rpc) →
      IoTask.Offered (s.arriving (s.newItems rpc)) s.io io →
        Step builder s a { s with rpc, io, free }
  | drop {free : Fin N → Nat} : s.rpc.position ≠ .dropped →
      Step builder s .drop { s with rpc := s.rpc.dropServer, free }
  | poll (a : IoAct) (deadline : Nat) (io : IoTask N) (rpc : RpcTask) {free : Fin N → Nat} :
      s.rpc.position = .select deadline → a.polls = true → s.io.step a = some io →
      returned (s.told io) (io.events.drop s.io.events.length) io.position = some rpc →
      Step builder s (.poll a) { s with
        io, rpc, free
        incoming :=
          s.incoming ++ (io.events.drop s.io.events.length).filterMap IncomingRequest.ofEvent }
  | answer (a : NodeAct) (k : Nat) (request : IncomingRequest) (item : QueuedItem) (io : IoTask N)
      {free : Fin N → Nat} : s.incoming[k]? = some request → s.reply a = some (request, item) →
      item = .responseCancellation request.channel request.id ∨
        (∃ payload, item = .response request.channel request.id payload) →
      s.offers builder a = s.arriving [item] → IoTask.Offered (s.arriving [item]) s.io io →
      Step builder s a { s with io, free, incoming := s.incoming.eraseIdx k }
  | customError (channel : ChannelId) (id : Id) (payload : Bytes) (io : IoTask N)
      {free : Fin N → Nat} :
      s.offers builder (.sendCustomError channel id payload) =
        s.arriving [.error channel id payload] →
      IoTask.Offered (s.arriving [.error channel id payload]) s.io io →
      Step builder s (.sendCustomError channel id payload) { s with io, free }

/-- Steps of the server that send nothing to the core. -/
theorem newItems_nil {rpc : RpcTask} (h : rpc.enqueued = s.rpc.enqueued) :
    s.arriving (s.newItems rpc) = [] := by
  rw [arriving, newItems, h, List.drop_length, ite_self]

theorem observe_cases {io : IoTask N} (h : s.observe io = some s') : ∃ rpc,
    returned (s.told io) (io.events.drop s.io.events.length) io.position = some rpc ∧ s' = { s with
      io, rpc, incoming := s.incoming ++ (io.events.drop s.io.events.length).filterMap
        IncomingRequest.ofEvent } := by
  obtain ⟨rpc, hrpc, hdone⟩ := Option.bind_eq_some_iff.mp h
  exact ⟨rpc, hrpc, (Option.some.inj hdone).symm⟩

theorem step_steps {a : NodeAct} (h : s.step builder a = some s') : Step builder s a s' := by
  obtain ⟨⟨acts, s₁⟩, hplan, hrest⟩ := Option.bind_eq_some_iff.mp h
  obtain ⟨io, hio, hrest⟩ := Option.bind_eq_some_iff.mp hrest
  obtain ⟨s₂, hlast, hrest⟩ := Option.bind_eq_some_iff.mp hrest
  cases Option.some.inj hrest
  clear h hrest
  have hoffers : s.offers builder a = acts.flatMap IoAct.enqueues := by rw [offers, hplan]; rfl
  have hkeep : ∀ {rpc : RpcTask}, s.rpc.enqueued = rpc.enqueued → IoTask.Offered [] s.io io →
      IoTask.Offered (s.arriving (s.newItems rpc)) s.io io := by
    intro rpc he ho
    rwa [newItems_nil he.symm]
  cases a with
  | reserve channel =>
    simp only [plan] at hplan
    split at hplan
    next hlt =>
      split at hplan
      next hroom =>
        cases Option.some.inj hplan
        cases Option.some.inj hio
        cases Option.some.inj hlast
        exact .reserve channel ⟨_, hlt⟩ rfl hroom.2
      next => simp at hplan
    next => simp at hplan
  | queueForSending ticket payload timeout now =>
    simp only [plan] at hplan
    split at hplan
    next hin =>
      obtain ⟨rpc, hrpc, hmade⟩ := Option.bind_eq_some_iff.mp hplan
      cases Option.some.inj hmade
      cases Option.some.inj hio
      cases Option.some.inj hlast
      exact .queue ticket payload _ _ now rpc hin hrpc
    next => simp at hplan
  | dropTicket ticket =>
    simp only [plan] at hplan
    split at hplan
    next =>
      cases Option.some.inj hplan
      cases Option.some.inj hio
      cases Option.some.inj hlast
      exact .dropTicket ticket
    next => simp at hplan
  | dropClients =>
    cases Option.some.inj hplan
    cases Option.some.inj hio
    cases Option.some.inj hlast
    exact .serve _ .dropClients _ s.io rfl rfl (hoffers.trans (newItems_nil rfl).symm)
      (hkeep rfl (.refl s.io))
  | turn now =>
    obtain ⟨rpc, hrpc, hmade⟩ := Option.bind_eq_some_iff.mp hplan
    cases Option.some.inj hmade
    cases Option.some.inj hlast
    exact .serve _ (.turn now) rpc io rfl hrpc (hoffers.trans (s.sends_enqueues _))
      (sends_offered hio)
  | timeoutCheck now =>
    obtain ⟨acts', hsuspend, hserve⟩ := Option.bind_eq_some_iff.mp hplan
    obtain ⟨rpc, hrpc, hmade⟩ := Option.bind_eq_some_iff.mp hserve
    cases Option.some.inj hmade
    cases Option.some.inj hlast
    have hsame : s.rpc.enqueued = rpc.enqueued := by
      simp only [RpcTask.step] at hrpc
      split at hrpc
      next =>
        split at hrpc
        next =>
          cases Option.some.inj hrpc
          rfl
        next => simp at hrpc
      next => simp at hrpc
    exact .serve _ (.timeoutCheck now) rpc io rfl hrpc
      ((hoffers.trans (suspend_enqueues hsuspend)).trans (newItems_nil hsame.symm).symm)
      (hkeep hsame (suspend_offered hsuspend hio))
  | recv =>
    obtain ⟨acts', hsuspend, hserve⟩ := Option.bind_eq_some_iff.mp hplan
    obtain ⟨rpc, hrpc, hmade⟩ := Option.bind_eq_some_iff.mp hserve
    cases Option.some.inj hmade
    cases Option.some.inj hlast
    rw [Transition.exec_append] at hio
    obtain ⟨io₁, hio₁, hsent⟩ := Option.bind_eq_some_iff.mp hio
    have hoffered := (suspend_offered hsuspend hio₁).trans (sends_offered hsent)
    rw [List.nil_append] at hoffered
    rw [List.flatMap_append, suspend_enqueues hsuspend, List.nil_append, sends_enqueues] at hoffers
    exact .serve _ .recv rpc io rfl hrpc hoffers hoffered
  | cancel =>
    obtain ⟨acts', hsuspend, hserve⟩ := Option.bind_eq_some_iff.mp hplan
    obtain ⟨rpc, hrpc, hmade⟩ := Option.bind_eq_some_iff.mp hserve
    cases Option.some.inj hmade
    cases Option.some.inj hlast
    have hsame : s.rpc.enqueued = rpc.enqueued := by
      simp only [RpcTask.step] at hrpc
      split at hrpc
      next =>
        cases Option.some.inj hrpc
        rfl
      next => simp at hrpc
    exact .serve _ .cancel rpc io rfl hrpc
      ((hoffers.trans (suspend_enqueues hsuspend)).trans (newItems_nil hsame.symm).symm)
      (hkeep hsame (suspend_offered hsuspend hio))
  | poll b =>
    simp only [plan] at hplan
    split at hplan
    next deadline hselect =>
      split at hplan
      next hpolls =>
        cases Option.some.inj hplan
        obtain ⟨io', hstep, he⟩ := Option.bind_eq_some_iff.mp hio
        cases Option.some.inj he
        obtain ⟨rpc, hrpc, rfl⟩ := observe_cases hlast
        exact .poll b deadline io rpc hselect hpolls hstep hrpc
      next => simp at hplan
    next => simp at hplan
  | drop =>
    obtain ⟨rpc, hrpc, hmade⟩ := Option.bind_eq_some_iff.mp hplan
    cases Option.some.inj hmade
    cases Option.some.inj hio
    cases Option.some.inj hlast
    simp only [RpcTask.step] at hrpc
    split at hrpc
    next => simp at hrpc
    next hpos =>
      cases Option.some.inj hrpc
      exact .drop hpos
  | respond k payload =>
    obtain ⟨request, hrequest, hmade⟩ := Option.bind_eq_some_iff.mp hplan
    cases Option.some.inj hmade
    cases Option.some.inj hlast
    exact .answer _ k request _ io hrequest (by simp [reply, hrequest]) (.inr ⟨payload, rfl⟩)
      (hoffers.trans (s.sends_enqueues _)) (sends_offered hio)
  | refuse k =>
    obtain ⟨request, hrequest, hmade⟩ := Option.bind_eq_some_iff.mp hplan
    cases Option.some.inj hmade
    cases Option.some.inj hlast
    exact .answer _ k request _ io hrequest (by simp [reply, hrequest]) (.inl rfl)
      (hoffers.trans (s.sends_enqueues _)) (sends_offered hio)
  | sendCustomError channel id payload =>
    cases Option.some.inj hplan
    cases Option.some.inj hlast
    exact .customError channel id payload io (hoffers.trans (s.sends_enqueues _))
      (sends_offered hio)

end RpcNode

end Juliet
