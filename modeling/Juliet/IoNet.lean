import Juliet.CouplingTasks

namespace Juliet

open Rust

/-- One end of a connection: a task, the bytes it has written and its peer has not read, the
requests it has reported and its user has not answered, and the items enqueued on it. -/
structure IoEnd (N : Nat) where
  task : IoTask N
  pipe : Bytes
  unanswered : Fin N → Finset Id
  enqueued : List QueuedItem

/-- Two tasks joined by two pipes. -/
abbrev IoNet (N : Nat) := Bool → IoEnd N

def IoAct.enqueues : IoAct → List QueuedItem
  | .enqueue item => [item]
  | _ => []

def IoAct.takes : IoAct → Bytes
  | .read bytes => bytes
  | _ => []

namespace IoEnd

variable {N : Nat}

def new (builder : ProtocolBuilder N) : IoEnd N :=
  { task := .new builder
    pipe := []
    unanswered := fun _ => ∅
    enqueued := [] }

/-- An end after a step of its task. -/
def acts (self : IoEnd N) (a : IoAct) (task : IoTask N) : IoEnd N :=
  { task
    pipe := self.pipe ++ self.task.writtenSince task
    unanswered :=
      fun i => (self.unanswered i ∪ reportedBy i (readsIn (self.task.outcomesSince task))) \
      (a.enqueues.filterMap (QueuedItem.answerOn i)).toFinset
    enqueued := self.enqueued ++ a.enqueues }

/-- A step that adds no outcomes and writes nothing. -/
theorem acts_idle (self : IoEnd N) (a : IoAct) {task : IoTask N}
    (ho : task.outcomes = self.task.outcomes) (hw : task.written = self.task.written) :
    self.acts a task =
      { task
        pipe := self.pipe
        unanswered :=
  fun i => self.unanswered i \ (a.enqueues.filterMap (QueuedItem.answerOn i)).toFinset
        enqueued := self.enqueued ++ a.enqueues } := by
  have hsince : self.task.outcomesSince task = [] :=
    IoTask.outcomesSince_append (by rw [ho, List.append_nil])
  have hnothing : self.task.writtenSince task = [] :=
    IoTask.writtenSince_append (by rw [hw, List.append_nil])
  simp [acts, hsince, hnothing, readsIn, reportedBy]

/-- A step that does not enqueue. -/
theorem acts_advance (self : IoEnd N) {a : IoAct} (ha : a.enqueues = []) (task : IoTask N) :
    self.acts a task =
      { task
        pipe := self.pipe ++ self.task.writtenSince task
        unanswered :=
  fun i => self.unanswered i ∪ reportedBy i (readsIn (self.task.outcomesSince task))
        enqueued := self.enqueued } := by
  simp [acts, ha]

end IoEnd

instance {N : Nat} (builder : ProtocolBuilder N) (item : QueuedItem) :
    Decidable (item.Within builder) :=
  match item with
  | .request channel _ payload => inferInstanceAs (Decidable (∃ i : Fin N, channel.get.toNat = i ∧
      ∀ p ∈ payload, p.length ≤ (builder.channelConfig i).maxRequestPayloadSize.toNat))
  | .response channel _ payload => inferInstanceAs (Decidable (∃ i : Fin N, channel.get.toNat = i ∧
      ∀ p ∈ payload, p.length ≤ (builder.channelConfig i).maxResponsePayloadSize.toNat))
  | .responseCancellation channel _ =>
    inferInstanceAs (Decidable (∃ i : Fin N, channel.get.toNat = i))
  | .requestCancellation _ => inferInstanceAs (Decidable False)
  | .error _ _ _ => inferInstanceAs (Decidable False)

namespace IoNet

variable {N : Nat}

/-- One of the tasks takes a step. -/
def step (s : IoNet N) (act : Bool × IoAct) : Option (IoNet N) :=
  ((s act.1).task.step act.2).map fun task y =>
    if y = act.1 then (s act.1).acts act.2 task
    else { s y with pipe := (s y).pipe.drop act.2.takes.length }

/-- What is enqueued are requests, and answers to requests that have been reported and not been
answered, and what is read is what the peer has written. -/
def Allowed (builder : ProtocolBuilder N) (s : IoNet N) (act : Bool × IoAct) : Prop :=
  (∀ item ∈ act.2.enqueues, item.Within builder ∧
    ∀ i : Fin N, ∀ id ∈ item.answerOn i, id ∈ (s act.1).unanswered i) ∧
  act.2.takes <+: (s (!act.1)).pipe

instance (builder : ProtocolBuilder N) (s : IoNet N) (act : Bool × IoAct) :
    Decidable (Allowed builder s act) :=
  inferInstanceAs (Decidable (_ ∧ _))

/-- The states of two tasks built from the same builder. -/
abbrev Reach (builder : ProtocolBuilder N) : IoNet N → Prop :=
  Transition.Reach step (fun s act => decide (Allowed builder s act)) fun _ => .new builder

/-- What holds of two tasks: `wire` are the frames that one has sent and the other has not
processed. -/
structure Linked (builder : ProtocolBuilder N) (reported : Bool → Fin N → Finset Id)
    (wire : Bool → List FrameIter) (s : IoNet N) : Prop where
  coupled : ∀ x, (s x).task.core.Coupled builder ((s !x).task.core.side (s !x).pipe (reported !x))
    (s !x).task.reads
    (wire x) (wire !x) (s x).pipe (reported x)
  supplied : ∀ x, (s x).task.core.Supplied builder (s x).enqueued (s x).unanswered (reported x) []
  noFatal : ∀ x err, .fatal err ∉ (s x).task.outcomes

variable {builder : ProtocolBuilder N} {reported : Bool → Fin N → Finset Id}
  {wire : Bool → List FrameIter} {s s' : IoNet N}

theorem linked_new (builder : ProtocolBuilder N) :
    Linked builder (fun _ _ => ∅) (fun _ => []) fun _ => IoEnd.new builder where
  coupled _ :=
    { joined := joined_new builder
      tidy :=
        { sound := IoCore.new_sound builder
          noError := rfl
          exclusive := .new builder
          frameSize := rfl
          begun := by simp [IoEnd.new, IoTask.new, IoCore.new]
          current := by simp [IoEnd.new, IoTask.new, IoCore.new]
          plain := by simp [IoEnd.new, IoTask.new, IoCore.new, IoCore.sending] }
      conveyed := fun _ => rfl }
  supplied _ := .new builder
  noFatal _ _ := by simp [IoEnd.new, IoTask.new]

/-- One end changes and the other one has its pipe read from. -/
theorem Linked.update (h : Linked builder reported wire s) {x : Bool} {e : IoEnd N} {k : Nat}
    {taken ab ba : List FrameIter}
    (hserves : e.task.core.Serves builder ((s !x).task.core.side ((s !x).pipe.drop k) (reported !x))
      (s !x).task.reads ab ba e.pipe e.enqueued e.unanswered [])
    (hsplit : wire (!x) = taken ++ ba)
    (hreads : e.task.reads =
      (s x).task.reads ++ taken.filterMap (FrameIter.completes builder.maxFrameSize))
    (hfatal : ∀ err, .fatal err ∉ e.task.outcomes) :
    ∃ reported' wire', Linked builder reported' wire'
      fun y => if y = x then e else { s y with pipe := (s y).pipe.drop k } := by
  obtain ⟨rx, hc, hsup⟩ := hserves
  have hxx : (!x) ≠ x := by cases x <;> simp
  have hpeer : (s !x).task.core.Coupled builder (e.task.core.side e.pipe rx) e.task.reads ba ab
      ((s !x).pipe.drop k)
      (reported !x) := by
    have hold := (h.coupled !x).taken hc.joined.symm hsplit rfl
    rwa [Bool.not_not, ← hreads] at hold
  refine ⟨fun y => if y = x then rx else reported y, fun y => if y = x then ab else ba, ?_, ?_, ?_⟩
  · intro y
    rcases eq_or_eq_not y x with rfl | rfl
    · simpa [hxx] using hc
    · simpa [hxx] using hpeer
  · intro y
    rcases eq_or_eq_not y x with rfl | rfl
    · simpa using hsup
    · simpa [hxx] using h.supplied (!x)
  · intro y err
    rcases eq_or_eq_not y x with rfl | rfl
    · simpa using hfatal err
    · simpa [hxx] using h.noFatal (!x) err

/-- A step that neither enqueues nor reads. -/
theorem Linked.advance (h : Linked builder reported wire s) {x : Bool} {a : IoAct} {task : IoTask N}
    (hs : IoTask.Step (s x).task a task) (hitem : ∀ item, a ≠ .enqueue item)
    (hread : ∀ bytes, a ≠ .read bytes) (ha : a.enqueues = []) :
    ∃ reported' wire', Linked builder reported' wire'
      fun y => if y = x then (s x).acts a task else { s y with pipe := (s y).pipe.drop 0 } := by
  have hplain : ∀ it ∈ wire !x, it.header.kind ≠ .ok .cancelReq :=
    fun it hit => (h.coupled !x).tidy.plain it (List.mem_append_left _ hit)
  have hadv := hs.advances ⟨reported x, h.coupled x, h.supplied x⟩ hplain hitem hread
  obtain ⟨more, hmore⟩ := hadv.outcomes
  have hsince := IoTask.outcomesSince_append hmore
  obtain ⟨ab, taken, ba, hsplit, hreads, hserves⟩ := hadv.serves
  rw [(s x).acts_advance ha task]
  refine h.update hserves hsplit ?_ ?_
  · rw [hreads, hsince, IoTask.reads, IoTask.reads, hmore, readsIn, readsIn, readsIn,
      List.flatMap_append]
  · intro err hin
    rw [hmore, List.mem_append] at hin
    rcases hin with hin | hin
    · exact h.noFatal x err hin
    · exact hadv.noFatal err (hsince ▸ hin)

/-- A step that adds no outcomes and writes nothing. -/
theorem Linked.idle (h : Linked builder reported wire s) {x : Bool} {a : IoAct} {task : IoTask N}
    (ho : task.outcomes = (s x).task.outcomes) (hw : task.written = (s x).task.written)
    (hserves : task.core.Serves builder
      ((s !x).task.core.side ((s !x).pipe.drop a.takes.length) (reported !x))
      (s !x).task.reads (wire x) (wire !x) (s x).pipe ((s x).enqueued ++ a.enqueues)
      (fun i => (s x).unanswered i \ (a.enqueues.filterMap (QueuedItem.answerOn i)).toFinset) []) :
    ∃ reported' wire', Linked builder reported' wire'
      fun y => if y = x then (s x).acts a task
        else { s y with pipe := (s y).pipe.drop a.takes.length } := by
  rw [(s x).acts_idle a ho hw]
  refine h.update hserves (List.nil_append _).symm ?_ ?_
  · simp [IoTask.reads, ho]
  · intro err
    rw [ho]
    exact h.noFatal x err

theorem Linked.step (h : Linked builder reported wire s) {act : Bool × IoAct}
    (hok : Allowed builder s act) (hs : s.step act = some s') :
    ∃ reported' wire', Linked builder reported' wire' s' := by
  obtain ⟨x, a⟩ := act
  obtain ⟨task, hstep, rfl⟩ := Option.map_eq_some_iff.mp hs
  have hserves : (s x).task.core.Serves builder ((s !x).task.core.side (s !x).pipe (reported !x))
      (s !x).task.reads
      (wire x) (wire !x) (s x).pipe (s x).enqueued (s x).unanswered [] :=
        ⟨reported x, h.coupled x, h.supplied x⟩
  cases a with
  | enqueue item =>
    obtain ⟨hcore, ho, hw⟩ := IoTask.enqueue_task hstep
    obtain ⟨hwithin, hin⟩ := hok.1 item (by simp [IoAct.enqueues])
    refine h.idle ho hw ?_
    rw [hcore]
    exact hserves.enqueue hwithin hin
  | read bytes =>
    obtain ⟨hcore, ho, hw⟩ := IoTask.read_task hstep
    obtain ⟨rest, hpipe⟩ := hok.2
    have hpipe' : bytes ++ rest = (s !x).pipe := hpipe
    have hstream : ((s !x).task.core.side (s !x).pipe (reported !x)).stream =
        bytes ++ (rest ++ (s !x).task.core.pendingBytes) := by
      rw [IoCore.side, ← hpipe', List.append_assoc]
    have harrived := hserves.arrive bytes.length
    rw [hstream, List.take_left, List.drop_left] at harrived
    refine h.idle ho hw ?_
    rw [hcore]
    simpa [IoAct.takes, IoAct.enqueues, IoCore.side, ← hpipe'] using harrived
  | _ => exact h.advance (IoTask.step_steps hstep) (by simp) (by simp) rfl

theorem linked_of_reach (h : Reach builder s) :
    ∃ reported wire, Linked builder reported wire s := by
  refine Transition.Reach.invariant
    (P := fun s => ∃ reported wire, Linked builder reported wire s) h
    ⟨_, _, linked_new builder⟩ ?_
  rintro s s' act ⟨reported, wire, hl⟩ hok hs
  exact hl.step (of_decide_eq_true hok) hs

theorem announced_of_made {history : List Sent} (h : ∀ sent ∈ history, sent.Made N) :
    history.filterMap (fun sent => sent.msg.asRead) = history.filterMap Sent.announced :=
  List.filterMap_congr fun sent hin => (h sent hin).announced.1

/-- Two cores that talk to each other never find an error in what they receive, and what they read
under each header is what was enqueued for it on the other side, in order. -/
theorem reads_enqueued (h : Reach builder s) (x : Bool) :
    (∀ err, .fatal err ∉ (s x).task.outcomes) ∧
    (∀ err juliet buffer,
      (s x).task.core.juliet.processIncoming (s x).task.core.buffer ≠
        .ok (.fatal err, juliet, buffer)) ∧
    (∀ header, readsUnder header (s x).task.reads <+:
      readsUnder header ((s !x).task.core.history.filterMap Sent.announced)) ∧
    ((s !x).task.core.history.map Sent.item).Subperm (s !x).enqueued := by
  obtain ⟨reported, wire, hl⟩ := linked_of_reach h
  have hpeer := hl.coupled !x
  rw [Bool.not_not] at hpeer
  refine ⟨hl.noFatal x, ?_, ?_, ?_⟩
  · intro err juliet buffer hp
    have hplain : ∀ it ∈ wire !x, it.header.kind ≠ .ok .cancelReq :=
      fun it hit => hpeer.tidy.plain it (List.mem_append_left _ hit)
    exact ((hl.coupled x).joined.processIncoming hplain hp).1 err rfl
  · intro header
    rw [← announced_of_made hpeer.tidy.sound.made, ← hpeer.conveyed header,
      List.append_assoc, readsUnder_append]
    exact List.prefix_append _ _
  · have hdrawn := (hl.supplied !x).drawn
    refine Multiset.coe_le.mp (le_trans ?_ hdrawn)
    rw [IoCore.drawn, IoCore.held, Multiset.coe_nil, add_zero, ← add_assoc]
    exact Multiset.le_add_left _ _

/-- A request of two frames, written and read in parts, and the response to it. -/
def requestAndResponse : List (Bool × IoAct) :=
  [(false, .enqueue (.request ⟨0⟩ ⟨1⟩ (some [1, 2, 3, 4, 5, 6, 7, 8]))), (false, .turn),
    (false, .recv), (false, .tryRecv), (false, .turn), (false, .write 10), (false, .turn),
    (true, .turn), (true, .read [2, 0]), (false, .write 3), (true, .read [1, 0, 8, 1, 2, 3, 4, 5]),
    (true, .turn), (false, .write 4), (true, .read [2, 0, 1, 0, 6]), (true, .turn),
    (true, .read [7, 8]), (true, .turn), (true, .enqueue (.response ⟨0⟩ ⟨1⟩ (some [9]))),
    (true, .turn), (true, .recv), (true, .tryRecv), (true, .turn), (true, .write 6), (false, .turn),
    (false, .read [3, 0, 1, 0, 1, 9]), (false, .turn)]

theorem reads_enqueued_answered : ∃ s, Reach IoTask.pairBuilder s ∧
    (s true).task.reads = [.newRequest ⟨0⟩ ⟨1⟩ (some [1, 2, 3, 4, 5, 6, 7, 8])] ∧
    (s false).task.reads = [.receivedResponse ⟨0⟩ ⟨1⟩ (some [9])] ∧
    (∀ header, readsUnder header (s true).task.reads <+:
      readsUnder header ((s false).task.core.history.filterMap Sent.announced)) ∧
    ((s false).task.core.history.map Sent.item).Subperm (s false).enqueued := by
  have hrun : (Transition.exec step (fun s act => decide (Allowed IoTask.pairBuilder s act))
      requestAndResponse
      fun _ => .new IoTask.pairBuilder).map (fun s => ((s true).task.reads, (s false).task.reads)) =
        some ([.newRequest ⟨0⟩ ⟨1⟩ (some [1, 2, 3, 4, 5, 6, 7, 8])],
          [.receivedResponse ⟨0⟩ ⟨1⟩ (some [9])]) := rfl
  obtain ⟨s, hs, he⟩ := Option.map_eq_some_iff.mp hrun
  obtain ⟨hserver, hclient⟩ := Prod.mk.inj he
  have hreach : Reach IoTask.pairBuilder s := Transition.Reach.exec .start hs
  obtain ⟨_, _, hreads, hitems⟩ := reads_enqueued hreach true
  exact ⟨s, hreach, hserver, hclient, hreads, hitems⟩

end IoNet

end Juliet
