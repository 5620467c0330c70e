import Mathlib.Data.List.AList
import Mathlib.Data.List.Sort
import Juliet.IoCore
import Juliet.Transition

namespace Juliet

inductive RequestError
  | remoteClosed (payload : Option Bytes)
  | shutdown
  | timedOut
  | timeoutOverflow (timeout : Nat)
  | remoteCancelled
  | cancelled
  | error (violation : LocalProtocolViolation)
  deriving DecidableEq, Repr

/-- What has become of a request. `ready` is there if someone may wait for it, with the number of
times `notify_one` has been called. -/
structure RequestGuardInner where
  outcome : Option (Except RequestError (Option Bytes))
  ready : Option Nat
  notified : ∀ n ∈ ready, n = if outcome.isSome then 1 else 0

namespace RequestGuardInner

def new : RequestGuardInner := ⟨none, some 0, by simp⟩

/-- The guard that `RequestGuard::new_error` makes. -/
def newError (error : RequestError) : RequestGuardInner := ⟨some (.error error), none, by simp⟩

def setAndNotify (self : RequestGuardInner) (value : Except RequestError (Option Bytes)) :
    RequestGuardInner where
  outcome := some (self.outcome.getD value)
  ready := if self.outcome.isSome then self.ready else self.ready.map (· + 1)
  notified := by
    intro n hn
    have hself := self.notified
    cases hs : self.outcome with
    | some _ => simpa [hs] using hself n (by simpa [hs] using hn)
    | none =>
      obtain ⟨k, hk, rfl⟩ := Option.map_eq_some_iff.mp (by simpa [hs] using hn)
      have hzero : k = 0 := by simpa [hs] using hself k hk
      simp [hzero]

end RequestGuardInner

/-- A reserved place for a request, less the semaphore permit. -/
structure RequestTicket where
  channel : ChannelId
  ioId : IoId
  deriving DecidableEq, Repr

/-- A request on its way to the server. The guard is given by its number. -/
structure NewOutgoingRequest where
  ticket : RequestTicket
  guard : Nat
  payload : Option Bytes
  expires : Option Nat
  deriving DecidableEq, Repr

inductive RpcServerError
  | coreError (err : CoreError)
  | fatalTimeout (count : Nat)
  deriving DecidableEq, Repr

/-- Where `next_request` stands. A call that has returned a request is at the top of its loop, just
as one that has been dropped. Once it has returned `Ok(None)` or an error it is not called again. -/
inductive RpcPosition
  | top
  | select (deadline : Nat)
  | stopped (err : Option RpcServerError)
  | dropped
  deriving DecidableEq, Repr

/-- A `JulietRpcServer` with its position in `next_request`, what it shares with its clients and its
core, and what has been observed of them. Guards are numbered as they are made. The new requests are
those in the channel between clients and server, and `closed` and `coreClosed` say whether the
receiving ends of that channel and of the queue of the core are closed. `enqueued` is what the core
has been sent, `sent` the guards and ids of the requests sent successfully, and `issued` the ids
handed out with tickets. -/
structure RpcTask where
  pending : AList fun _ : IoId => Nat
  newRequests : List NewOutgoingRequest
  closed : Bool
  timeouts : List (Nat × IoId)
  bubbleTimeouts : Bool
  position : RpcPosition
  clients : Bool
  coreClosed : Bool
  guards : List RequestGuardInner
  enqueued : List QueuedItem
  issued : Finset IoId
  sent : List (Nat × IoId)
  events : List IoEvent

/-- `Instant::checked_add`, in nanoseconds: an instant holds up to `2 ^ 63` seconds. -/
def checkedAdd (now timeout : Nat) : Option Nat :=
  if now + timeout < 2 ^ 63 * 10 ^ 9 then some (now + timeout) else none

/-- The order of the heap of timeouts, the earliest first. -/
def Earlier (a b : Nat × IoId) : Prop := a.1 < b.1 ∨ a.1 = b.1 ∧ a.2.get ≤ b.2.get

instance : DecidableRel Earlier :=
  fun a b => inferInstanceAs (Decidable (a.1 < b.1 ∨ a.1 = b.1 ∧ a.2.get ≤ b.2.get))

inductive RpcAct
  | queueForSending (ticket : Option RequestTicket) (payload : Option Bytes)
    (timeout : Option Nat) (now : Nat)
  | dropClients
  | turn (now : Nat)
  | timeoutCheck (now : Nat)
  | recv
  | event (event : IoEvent)
  | coreEnds (err : Option CoreError)
  | coreCloses
  | cancel
  | drop
  deriving DecidableEq, Repr

/-- Sets the outcomes of guards one after the other. -/
def resolveAll (guards : List RequestGuardInner)
    (values : List (Nat × Except RequestError (Option Bytes))) :
    List RequestGuardInner :=
  values.foldl (fun guards value => guards.modify value.1 fun guard => guard.setAndNotify value.2)
    guards

namespace RpcTask

def new (bubbleTimeouts : Bool) : RpcTask :=
  { pending := ∅
    newRequests := []
    closed := false
    timeouts := []
    bubbleTimeouts
    position := .top
    clients := true
    coreClosed := false
    guards := []
    enqueued := []
    issued := ∅
    sent := []
    events := [] }

/-- The send at the end of `do_enqueue_request`, which fails when the server has closed the
channel. -/
def sendNewRequest (t : RpcTask) (ticket : RequestTicket) (payload : Option Bytes)
    (expires : Option Nat) : RpcTask :=
  if t.closed then { t with guards := t.guards ++ [.newError (.remoteClosed payload)] }
  else { t with
    guards := t.guards ++ [.new]
    newRequests := t.newRequests ++ [⟨ticket, t.guards.length, payload, expires⟩]
    sent := t.sent ++ [(t.guards.length, ticket.ioId)] }

def doEnqueueRequest (t : RpcTask) (ticket : RequestTicket) (payload : Option Bytes)
    (timeout : Option Nat) (now : Nat) :
    RpcTask :=
  match timeout with
  | none => t.sendNewRequest ticket payload none
  | some timeout =>
    match checkedAdd now timeout with
    | some expires => t.sendNewRequest ticket payload (some expires)
    | none => { t with guards := t.guards ++ [.newError (.timeoutOverflow timeout)] }

/-- Without a ticket the connection was closed. The id of a ticket is used once. -/
def queueForSending (t : RpcTask) (ticket : Option RequestTicket) (payload : Option Bytes)
    (timeout : Option Nat) (now : Nat) : Option RpcTask :=
  if ¬ t.clients then none
  else
    match ticket with
    | none => some { t with guards := t.guards ++ [.newError (.remoteClosed payload)] }
    | some ticket =>
      if ticket.ioId ∈ t.issued then none
      else some ({ t with issued := insert ticket.ioId t.issued }.doEnqueueRequest ticket
        payload timeout now)

/-- Takes a request out of the pending ones and sets its outcome, if it is still there. -/
def settle (t : RpcTask) (ioId : IoId) (value : Except RequestError (Option Bytes)) : RpcTask :=
  match t.pending.lookup ioId with
  | none => t
  | some guard =>
    { t with pending := t.pending.erase ioId, guards := resolveAll t.guards [(guard, value)] }

def handleNewRequest (t : RpcTask) (new : NewOutgoingRequest) : RpcTask :=
  if t.coreClosed then
    { t with guards := resolveAll t.guards [(new.guard, .error (.remoteClosed new.payload))] }
  else { t with
    enqueued := t.enqueued ++ [.request new.ticket.channel new.ticket.ioId new.payload]
    pending := t.pending.insert new.ticket.ioId new.guard
    timeouts := match new.expires with
      | some expires => t.timeouts.orderedInsert Earlier (expires, new.ticket.ioId)
      | none => t.timeouts }

def handleEvent (t : RpcTask) : IoEvent → RpcTask
  | .newRequest _ _ _ => t
  | .requestCancelled _ _ => t
  | .receivedResponse ioId payload => t.settle ioId (.ok payload)
  | .receivedCancellationResponse ioId => t.settle ioId (.error .remoteCancelled)

/-- One timeout that has passed, and whether the request was still pending. -/
def expire (t : RpcTask) (ioId : IoId) : Nat × RpcTask :=
  if (t.pending.lookup ioId).isSome then
    let t := t.settle ioId (.error .timedOut)
    (1, if t.coreClosed then t
      else { t with enqueued := t.enqueued ++ [.requestCancellation ioId] })
  else (0, t)

/-- The loop of `process_timeouts` with its counter. -/
def expireAll (t : RpcTask) : List (Nat × IoId) → Nat × RpcTask
  | [] => (0, t)
  | (_, ioId) :: expired =>
    let (one, t) := t.expire ioId
    let (more, t) := expireAll t expired
    (one + more, t)

/-- The deadline of the next check, the number of timeouts and the state. -/
def processTimeouts (t : RpcTask) (now : Nat) : Nat × Nat × RpcTask :=
  let (expired, left) := t.timeouts.span fun entry => entry.1 ≤ now
  let (timedOut, t) := { t with timeouts := left }.expireAll expired
  let deadline := match left with
    | (first, _) :: _ => first
    | [] => now + 3600 * 10 ^ 9
  (deadline, timedOut, t)

/-- `drop` of the server: what is pending and what has not been taken up is resolved, and the core
goes with the server. -/
def dropServer (t : RpcTask) : RpcTask :=
  let guards := resolveAll t.guards (t.pending.entries.map fun entry => (entry.2, .error .shutdown))
  { t with
    closed := true
    coreClosed := true
    pending := ∅
    newRequests := []
    guards := resolveAll guards (t.newRequests.map
      fun new => (new.guard, .error (.remoteClosed new.payload)))
    position := .dropped }

/-- Everything that can happen to a server and its clients. -/
def step (t : RpcTask) : RpcAct → Option RpcTask
  | .queueForSending ticket payload timeout now => t.queueForSending ticket payload timeout now
  | .dropClients => some { t with clients := false }
  | .turn now =>
    if t.position = .top then
      let (deadline, timedOut, t) := t.processTimeouts now
      some { t with
        position := if t.bubbleTimeouts ∧ 0 < timedOut then .stopped (some (.fatalTimeout timedOut))
          else .select deadline }
    else none
  | .timeoutCheck now =>
    match t.position with
    | .select deadline => if deadline ≤ now then some { t with position := .top } else none
    | _ => none
  | .recv =>
    match t.position with
    | .select _ =>
      match t.newRequests with
      | new :: rest =>
        some { { t with newRequests := rest }.handleNewRequest new with position := .top }
      | [] => if t.clients then none else some { t with position := .stopped none }
    | _ => none
  | .event event =>
    match t.position with
    | .select _ =>
      some { { t with events := t.events ++ [event] }.handleEvent event with position := .top }
    | _ => none
  | .coreEnds err =>
    match t.position with
    | .select _ => some { t with position := .stopped (err.map .coreError) }
    | _ => none
  | .coreCloses => some { t with coreClosed := true }
  | .cancel =>
    match t.position with
    | .select _ => some { t with position := .top }
    | _ => none
  | .drop => if t.position = .dropped then none else some t.dropServer

/-- What a step does: a request is queued, timeouts are processed, a new request or an event is
handled, the server is dropped, or nothing happens to any request. -/
inductive Step (t : RpcTask) : RpcTask → Prop
  | queue (ticket : Option RequestTicket) (payload : Option Bytes) (timeout : Option Nat)
      (now : Nat) (t' : RpcTask) :
      t.queueForSending ticket payload timeout now = some t' → Step t t'
  | quiet (clients coreClosed : Bool) (position : RpcPosition) :
      position = t.position ∨ position ≠ .dropped ∧ t.position ≠ .dropped →
        Step t { t with clients, coreClosed, position }
  | turn (now : Nat) (position : RpcPosition) : t.position = .top → position ≠ .dropped →
      Step t { (t.processTimeouts now).2.2 with position }
  | recv (deadline : Nat) (new : NewOutgoingRequest)
      (rest : List NewOutgoingRequest) : t.position = .select deadline →
      t.newRequests = new :: rest →
        Step t { { t with newRequests := rest }.handleNewRequest new with position := .top }
  | event (deadline : Nat) (event : IoEvent) : t.position = .select deadline →
      Step t { { t with events := t.events ++ [event] }.handleEvent event with position := .top }
  | drop : Step t t.dropServer

/-- What the steps other than queueing do. -/
inductive Served (t : RpcTask) : RpcTask → Prop
  | quiet (clients coreClosed : Bool) (position : RpcPosition) :
      position = t.position ∨ position ≠ .dropped ∧ t.position ≠ .dropped →
        Served t { t with clients, coreClosed, position }
  | turn (now : Nat) (position : RpcPosition) : t.position = .top → position ≠ .dropped →
      Served t { (t.processTimeouts now).2.2 with position }
  | recv (deadline : Nat) (new : NewOutgoingRequest)
      (rest : List NewOutgoingRequest) : t.position = .select deadline →
      t.newRequests = new :: rest →
        Served t { { t with newRequests := rest }.handleNewRequest new with position := .top }
  | event (deadline : Nat) (event : IoEvent) : t.position = .select deadline →
      Served t { { t with events := t.events ++ [event] }.handleEvent event with position := .top }
  | drop : Served t t.dropServer

theorem step_served {t t' : RpcTask} {a : RpcAct} (hs : t.step a = some t') :
    (∃ ticket payload timeout now, a = .queueForSending ticket payload timeout now) ∨
    Served t t' := by
  cases a with
  | queueForSending ticket payload timeout now => exact .inl ⟨ticket, payload, timeout, now, rfl⟩
  | dropClients =>
    cases Option.some.inj hs
    exact .inr (.quiet false t.coreClosed t.position (.inl rfl))
  | coreCloses =>
    cases Option.some.inj hs
    exact .inr (.quiet t.clients true t.position (.inl rfl))
  | turn now =>
    simp only [step] at hs
    split at hs
    next htop =>
      cases Option.some.inj hs
      refine .inr (.turn now _ htop ?_)
      split <;> simp
    next => simp at hs
  | timeoutCheck now =>
    simp only [step] at hs
    split at hs
    next hselect =>
      split at hs
      next =>
        cases Option.some.inj hs
        exact .inr (.quiet t.clients t.coreClosed .top (.inr (by simp [hselect])))
      next => simp at hs
    next => simp at hs
  | recv =>
    simp only [step] at hs
    split at hs
    next deadline hselect =>
      split at hs
      next new rest hq =>
        cases Option.some.inj hs
        exact .inr (.recv deadline new rest hselect hq)
      next =>
        split at hs
        next => simp at hs
        next =>
          cases Option.some.inj hs
          exact .inr (.quiet t.clients t.coreClosed (.stopped none) (.inr (by simp [hselect])))
    next => simp at hs
  | event event =>
    simp only [step] at hs
    split at hs
    next deadline hselect =>
      cases Option.some.inj hs
      exact .inr (.event deadline event hselect)
    next => simp at hs
  | coreEnds err =>
    simp only [step] at hs
    split at hs
    next hselect =>
      cases Option.some.inj hs
      exact .inr (.quiet t.clients t.coreClosed _ (.inr (by simp [hselect])))
    next => simp at hs
  | cancel =>
    simp only [step] at hs
    split at hs
    next hselect =>
      cases Option.some.inj hs
      exact .inr (.quiet t.clients t.coreClosed .top (.inr (by simp [hselect])))
    next => simp at hs
  | drop =>
    simp only [step] at hs
    split at hs
    next => simp at hs
    next =>
      cases Option.some.inj hs
      exact .inr .drop

theorem step_steps {t t' : RpcTask} {a : RpcAct} (hs : t.step a = some t') : Step t t' := by
  rcases step_served hs with ⟨ticket, payload, timeout, now, rfl⟩ | hserved
  · exact .queue ticket payload timeout now t' hs
  · cases hserved with
    | quiet clients coreClosed position hpos => exact .quiet clients coreClosed position hpos
    | turn now position htop hne => exact .turn now position htop hne
    | recv deadline new rest hselect hq => exact .recv deadline new rest hselect hq
    | event deadline event hselect => exact .event deadline event hselect
    | drop => exact .drop

/-- The states that a run comes to from a state. -/
abbrev Leads (t : RpcTask) : RpcTask → Prop := Transition.Reach step (fun _ _ => true) t

/-- The states of all runs. -/
abbrev Reach (bubbleTimeouts : Bool) : RpcTask → Prop := Leads (.new bubbleTimeouts)

/-- A run given by its steps. -/
abbrev run (bubbleTimeouts : Bool) (as : List RpcAct) : Option RpcTask :=
  Transition.exec step (fun _ _ => true) as (.new bubbleTimeouts)

end RpcTask

end Juliet
