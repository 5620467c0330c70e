import Juliet.NodeCustody

namespace Juliet

open Rust

/-- One end of a connection between two servers: a node, the bytes it has written and its peer has
not read, the requests that its clients have queued, each with its guard, and the answers that its
user has given to requests. -/
structure RpcEnd (N : Nat) where
  node : RpcNode N
  pipe : Bytes
  queued : List (Nat × RequestTicket × Option Bytes)
  replies : List (IncomingRequest × QueuedItem)

/-- An end after a step of its node. -/
def RpcEnd.acts {N : Nat} (self : RpcEnd N) (a : NodeAct) (node : RpcNode N) : RpcEnd N :=
  { node
    pipe := self.pipe ++ self.node.io.writtenSince node.io
    queued := self.queued ++ (self.node.asks a).toList
    replies := self.replies ++ (self.node.reply a).toList }

/-- Two nodes joined by two pipes. -/
abbrev RpcNet (N : Nat) := Bool → RpcEnd N

def NodeAct.takes : NodeAct → Bytes
  | .poll a => a.takes
  | _ => []

namespace RpcNet

variable {N : Nat}

def new (builder : RpcBuilder N) : RpcNet N := fun _ => ⟨.new builder, [], [], []⟩

/-- One of the nodes takes a step. -/
def step (builder : RpcBuilder N) (s : RpcNet N) (act : Bool × NodeAct) : Option (RpcNet N) :=
  ((s act.1).node.step builder act.2).map fun node y =>
    if y = act.1 then (s act.1).acts act.2 node
    else { s y with pipe := (s y).pipe.drop act.2.takes.length }

/-- What is sent to a core are requests and answers on its channels and within its limits, what is
read is what the peer has written, and no answer is read while a request waits that can get its
id. -/
def allowed (builder : RpcBuilder N) (s : RpcNet N) (act : Bool × NodeAct) : Bool :=
  ((s act.1).node.offers builder act.2).all (fun item => item.Within builder.core.protocol) &&
    act.2.takes.isPrefixOf (s !act.1).pipe && (s act.1).node.keepsAnsweredId act.2

/-- The states of two nodes built from the same builder. -/
abbrev Reach (builder : RpcBuilder N) : RpcNet N → Prop :=
  Transition.Reach (step builder) (fun s act => allowed builder s act) (new builder)

end RpcNet

namespace IoTask

variable {N : Nat} {t t' : IoTask N}

/-- What happens while a core is not polled writes and reads nothing. -/
theorem idle_of_waits {a : IoAct} (ha : a.polls = false) (h : t.step a = some t') :
    t'.outcomes = t.outcomes ∧ t'.written = t.written := by
  cases a with
  | enqueue item => exact (enqueue_task h).2
  | dropHandles =>
    cases Option.some.inj h
    exact ⟨rfl, rfl⟩
  | drop =>
    simp only [step] at h
    split at h
    next =>
      cases Option.some.inj h
      exact ⟨rfl, rfl⟩
    next =>
      cases Option.some.inj h
      exact ⟨rfl, rfl⟩
    next => simp at h
  | _ => simp [IoAct.polls] at ha

end IoTask

namespace IoNet

variable {N : Nat} {builder : ProtocolBuilder N} {n : IoNet N} {x : Bool}

theorem takes_of_waits {a : IoAct} (ha : a.polls = false) : a.takes = [] := by
  cases a <;> first | rfl | simp [IoAct.polls] at ha

/-- What one end comes to by enqueueing items, and dropping the future of `next_event`. -/
structure Waits (x : Bool) (items : List QueuedItem) (task : IoTask N) (n n' : IoNet N) : Prop where
  task : (n' x).task = task
  pipe : (n' x).pipe = (n x).pipe
  enqueued : (n' x).enqueued = (n x).enqueued ++ items
  unanswered : ∀ i, (n' x).unanswered i =
    (n x).unanswered i \ (items.filterMap (QueuedItem.answerOn i)).toFinset
  peer : n' (!x) = n (!x)

/-- One such step. -/
theorem waits_step {a : IoAct} {task : IoTask N} (ha : a.polls = false)
    (h : (n x).task.step a = some task) :
    ∃ n', n.step (x, a) = some n' ∧ Waits x a.enqueues task n n' := by
  obtain ⟨ho, hw⟩ := IoTask.idle_of_waits ha h
  have hxx : (!x) ≠ x := by cases x <;> simp
  have htakes := takes_of_waits ha
  refine ⟨_, by rw [step, h]; rfl, ?_⟩
  refine ⟨?_, ?_, ?_, ?_, ?_⟩
  · simp [IoEnd.acts]
  · simp [(n x).acts_idle a ho hw]
  · simp [IoEnd.acts]
  · intro i
    simp [(n x).acts_idle a ho hw]
  · simp [hxx, htakes]

/-- A run of such steps that enqueue one item at most. -/
theorem waits_exec {acts : List IoAct} {task : IoTask N}
    (h : Transition.exec IoTask.step IoTask.anyStep acts (n x).task = some task)
    (hwaits : ∀ a ∈ acts, a.polls = false)
    (hitems : ∀ item ∈ acts.flatMap IoAct.enqueues, item.Within builder ∧
      ∀ i : Fin N, ∀ id ∈ item.answerOn i, id ∈ (n x).unanswered i)
    (hone : (acts.flatMap IoAct.enqueues).length ≤ 1) :
    ∃ n', Transition.Reach step (fun n act => keepsAnsweredIds builder n act) n n' ∧
      Waits x (acts.flatMap IoAct.enqueues) task n n' := by
  induction acts generalizing n with
  | nil =>
    cases Option.some.inj h
    exact ⟨n, .start, rfl, rfl, (List.append_nil _).symm, by simp, rfl⟩
  | cons a acts ih =>
    obtain ⟨task₁, hs, he⟩ := Option.bind_eq_some_iff.mp h
    have ha := hwaits a List.mem_cons_self
    obtain ⟨n₁, hn₁, hw⟩ := waits_step ha hs
    rw [List.flatMap_cons] at hitems hone ⊢
    have hrest : ∀ item ∈ acts.flatMap IoAct.enqueues, item.Within builder ∧
        ∀ i : Fin N, ∀ id ∈ item.answerOn i, id ∈ (n₁ x).unanswered i := by
      intro item hin
      obtain ⟨hwithin, hopen⟩ := hitems item (List.mem_append_right _ hin)
      have hnone : a.enqueues = [] := by
        have hpos := List.length_pos_of_mem hin
        rw [List.length_append] at hone
        exact List.length_eq_zero_iff.mp (by omega)
      refine ⟨hwithin, ?_⟩
      intro i id hid
      rw [hw.unanswered, hnone]
      simpa using hopen i id hid
    rw [← hw.task] at he
    have hshort : (acts.flatMap IoAct.enqueues).length ≤ 1 := by
      rw [List.length_append] at hone
      omega
    obtain ⟨n', hreach, hw'⟩ :=
      ih he (fun b hb => hwaits b (List.mem_cons_of_mem a hb)) hrest hshort
    have hok : keepsAnsweredIds builder n (x, a) = true := by
      rw [keepsAnsweredIds, Bool.and_eq_true, decide_eq_true_iff]
      refine ⟨⟨fun item hin => hitems item (List.mem_append_left _ hin), ?_⟩,
        IoTask.keepsAnsweredId_of_waits ha⟩
      rw [takes_of_waits ha]
      exact List.nil_prefix
    refine ⟨n', Transition.Reach.trans (.step .start hok hn₁) hreach, hw'.task,
      hw'.pipe.trans hw.pipe, ?_, ?_, ?_⟩
    · rw [hw'.enqueued, hw.enqueued, List.append_assoc]
    · intro i
      rw [hw'.unanswered, hw.unanswered, List.filterMap_append,
        List.toFinset_append, sdiff_sdiff_left]
      rfl
    · exact hw'.peer.trans hw.peer

end IoNet

end Juliet
