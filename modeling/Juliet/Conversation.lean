import Juliet.IoNet
import Juliet.Prefixes
import Juliet.Tally

namespace Juliet

open Rust

/-- What the peer is to read of an answer. -/
def QueuedItem.answer : QueuedItem → Option CompletedRead
  | .response channel id payload => some (.receivedResponse channel id payload)
  | .responseCancellation channel id => some (.responseCancellation channel id)
  | _ => none

theorem QueuedItem.answerOn_of {item : QueuedItem} {key : ChannelId × Id} {i : Nat}
    (hi : key.1.get.toNat = i) :
    item.answerOn i = some key.2 ↔ ∃ read, item.answer = some read ∧ read.answered = some key := by
  obtain ⟨channel', id'⟩ := key
  cases item with
  | response channel id payload | responseCancellation channel id =>
    simp only [answerOn, answer, Option.some.injEq, exists_eq_left',
      CompletedRead.answered, Prod.mk.injEq]
    split
    next hc =>
      have he : channel = channel' := ChannelId.ext_toNat (hc.trans hi.symm)
      simp [he]
    next hc =>
      have he : channel ≠ channel' := fun he => hc (he ▸ hi)
      simp [he]
  | _ => simp [answerOn, answer]

/-- The answers that a message announces are the ones that its item asks for. -/
theorem answersUnder_announced (key : ChannelId × Id) (history : List Sent) :
    answersUnder key (history.filterMap Sent.announced) =
      answersUnder key ((history.map Sent.item).filterMap QueuedItem.answer) := by
  induction history with
  | nil => rfl
  | cons sent history ih =>
    obtain ⟨item, msg⟩ := sent
    rw [List.map_cons, List.filterMap_cons, List.filterMap_cons]
    cases item with
    | request _ _ _ => simpa [answersUnder, Sent.announced, QueuedItem.answer,
      CompletedRead.answered] using ih
    | requestCancellation _ => simpa [answersUnder, Sent.announced, QueuedItem.answer,
      CompletedRead.answered] using ih
    | response _ _ _ | responseCancellation _ _ =>
      simp only [answersUnder, Sent.announced, QueuedItem.answer, List.filter_cons]
      rw [← answersUnder, ← answersUnder, ih]
    | error _ _ _ => simpa [answersUnder, Sent.announced, QueuedItem.answer] using ih

theorem reportedBy_of {key : ChannelId × Id} {i : Nat} (hi : key.1.get.toNat = i)
    (reads : List CompletedRead) :
    key.2 ∈ reportedBy i reads ↔ requestsUnder key reads ≠ [] := by
  obtain ⟨channel', id'⟩ := key
  simp only [reportedBy, List.mem_toFinset, List.mem_filterMap, requestsUnder, ne_eq,
    List.filter_eq_nil_iff, not_forall, decide_eq_true_eq, not_not, exists_prop]
  refine exists_congr fun read => and_congr_right fun _ => ?_
  cases read with
  | newRequest channel id payload =>
    simp only [CompletedRead.requestOn, CompletedRead.asked]
    split
    next hc =>
      have he : channel = channel' := ChannelId.ext_toNat (hc.trans hi.symm)
      simp [he]
    next hc =>
      have he : channel ≠ channel' := fun he => hc (he ▸ hi)
      simp [he]
  | _ => simp [CompletedRead.requestOn, CompletedRead.asked]

/-- What is read next of some reads that are announced is the next of them, if all but one have been
read and what is read under each header is. -/
theorem reads_next {p : CompletedRead → Bool} {reads announced : List CompletedRead}
    {outcome : Option ReadOutcome} (h : reads.filter p <+: announced.filter p)
    (hlen : (announced.filter p).length ≤ (reads.filter p).length + 1)
    (hheaders : ∀ header, readsUnder header (reads ++ JulietProtocol.readsOf outcome) <+:
      readsUnder header announced) :
    (reads ++ JulietProtocol.readsOf outcome).filter p <+: announced.filter p := by
  have hnone : JulietProtocol.readsOf outcome = [] →
      (reads ++ JulietProtocol.readsOf outcome).filter p <+: announced.filter p := by
    intro he
    rwa [he, List.append_nil]
  cases outcome with
  | none => exact hnone rfl
  | some o =>
    cases o with
    | success read =>
      rw [JulietProtocol.readsOf, List.filter_append] at *
      by_cases hp : p read = true
      · have hclass := (hheaders read.header).filter p
        rw [readsUnder, readsUnder, List.filter_comm, List.filter_comm p,
          List.filter_append] at hclass
        simp only [List.filter_cons, hp, if_true, List.filter_nil] at hclass ⊢
        exact List.prefix_snoc_of_class h hlen hclass
      · simpa [hp] using h
    | _ => exact hnone rfl

namespace IoEnd

variable {N : Nat}

/-- What the peer is to read of the answers enqueued so far. -/
def answers (self : IoEnd N) : List CompletedRead := self.enqueued.filterMap QueuedItem.answer

/-- Whether the user has been told of a request with the channel and id and has not answered it. -/
def owes (self : IoEnd N) (key : ChannelId × Id) : Bool :=
  if h : key.1.get.toNat < N then key.2 ∈ self.unanswered ⟨key.1.get.toNat, h⟩ else false

theorem owes_of {key : ChannelId × Id} {i : Fin N} (hi : key.1.get.toNat = i) (self : IoEnd N) :
    self.owes key = decide (key.2 ∈ self.unanswered i) := by
  have hlt : key.1.get.toNat < N := hi ▸ i.isLt
  have he : (⟨key.1.get.toNat, hlt⟩ : Fin N) = i := Fin.ext hi
  simp only [owes, hlt, dif_pos, he]

theorem owes_unknown {key : ChannelId × Id} (hi : ¬ key.1.get.toNat < N) (self : IoEnd N) :
    self.owes key = false := by
  simp [owes, hi]

end IoEnd

/-- A step of a task adds at most one outcome, and none when it enqueues an item. -/
theorem IoTask.Step.adds {N : Nat} {t t' : IoTask N} {a : IoAct} (hs : IoTask.Step t a t') :
    ∃ outcome : Option ReadOutcome, t'.outcomes = t.outcomes ++ outcome.toList ∧
      (a.enqueues ≠ [] → outcome = none ∧ t'.core.history = t.core.history) := by
  cases hs with
  | event outcome _ _ _ _ _ => exact ⟨outcome, rfl, by simp [IoAct.enqueues]⟩
  | failed outcome _ _ _ _ _ => exact ⟨outcome, rfl, by simp [IoAct.enqueues]⟩
  | selecting outcome _ _ _ _ _ _ => exact ⟨outcome, rfl, by simp [IoAct.enqueues]⟩
  | writeAll _ _ _ _ _ _ _ _ _ => exact ⟨none, (List.append_nil _).symm, by simp [IoAct.enqueues]⟩
  | taken a item rest core ha _ _ _ | rejected a item rest core _ ha _ _ _ =>
    refine ⟨none, (List.append_nil _).symm, ?_⟩
    rcases ha with rfl | rfl <;> simp [IoAct.enqueues]
  | _ => exact ⟨none, (List.append_nil _).symm, fun _ => ⟨rfl, rfl⟩⟩

namespace IoEnd

variable {N : Nat} {builder : ProtocolBuilder N} {e e' : IoEnd N} {a : IoAct}
  {outcome : Option ReadOutcome}

/-- What a step adds to an end. -/
structure Adds (e e' : IoEnd N) (a : IoAct) (outcome : Option ReadOutcome) : Prop where
  reads : e'.task.reads = e.task.reads ++ JulietProtocol.readsOf outcome
  history : ∃ new, e'.task.core.history = e.task.core.history ++ new
  enqueued : e'.enqueued = e.enqueued ++ a.enqueues
  unanswered : ∀ i, e'.unanswered i =
    (e.unanswered i ∪ reportedBy i (JulietProtocol.readsOf outcome)) \
      (a.enqueues.filterMap (QueuedItem.answerOn i)).toFinset
  quiet : a.enqueues ≠ [] → outcome = none ∧ e'.task.core.history = e.task.core.history

theorem acts_adds {t : IoTask N} (hs : IoTask.Step e.task a t) (hsound : e.task.core.Sound)
    (hp : e.task.core.pendingError = none) (hp' : t.core.pendingError = none) :
    ∃ outcome, Adds e (e.acts a t) a outcome := by
  obtain ⟨outcome, ho, hquiet⟩ := hs.adds
  have hsince : readsIn (e.task.outcomesSince t) = JulietProtocol.readsOf outcome := by
    rw [IoTask.outcomesSince_append ho, readsIn_toList]
  refine ⟨outcome, ?_, (hs.effect hsound hp hp').progress.history, rfl, ?_, hquiet⟩
  · rw [IoTask.reads, IoTask.reads, acts, ho, readsIn_append, readsIn_toList]
  · intro i
    rw [acts, hsince]

namespace Adds

theorem announced (h : Adds e e' a outcome) : e.task.core.announced <+: e'.task.core.announced := by
  obtain ⟨new, hnew⟩ := h.history
  rw [IoCore.announced, IoCore.announced, hnew, List.filterMap_append]
  exact List.prefix_append _ _

theorem answers (h : Adds e e' a outcome) :
    e'.answers = e.answers ++ a.enqueues.filterMap QueuedItem.answer := by
  rw [IoEnd.answers, IoEnd.answers, h.enqueued, List.filterMap_append]

/-- What is not answered stays owed, and so does what is reported. -/
theorem owes (h : Adds e e' a outcome) (key : ChannelId × Id) :
    e'.owes key = true → e.owes key = true ∨
    requestsUnder key (JulietProtocol.readsOf outcome) ≠ [] := by
  by_cases hlt : key.1.get.toNat < N
  · rw [owes_of (i := ⟨_, hlt⟩) rfl, owes_of (i := ⟨_, hlt⟩) rfl, decide_eq_true_iff,
      decide_eq_true_iff, h.unanswered, Finset.mem_sdiff, Finset.mem_union, reportedBy_of rfl]
    exact And.left
  · simp [owes_unknown hlt]

/-- Answers are enqueued for what is owed, and then it is owed no longer. -/
theorem pays (h : Adds e e' a outcome) {item : QueuedItem} {read : CompletedRead}
    {key : ChannelId × Id} (ha : a.enqueues = [item])
    (hok : item.Within builder ∧ ∀ i : Fin N, ∀ id ∈ item.answerOn i, id ∈ e.unanswered i)
    (hread : item.answer = some read) (hkey : read.answered = some key) :
    e.owes key = true ∧ e'.owes key = false := by
  obtain ⟨i, hi⟩ : ∃ i : Fin N, key.1.get.toNat = i := by
    obtain ⟨hwithin, _⟩ := hok
    cases item with
    | response channel id payload | responseCancellation channel id =>
      cases Option.some.inj hread
      cases Option.some.inj hkey
      obtain ⟨i, hi⟩ := hwithin
      first | exact ⟨i, hi⟩ | exact ⟨i, hi.1⟩
    | _ => simp [QueuedItem.answer] at hread
  have hon := (QueuedItem.answerOn_of hi).mpr ⟨read, hread, hkey⟩
  rw [owes_of hi, owes_of hi, decide_eq_true_iff, decide_eq_false_iff_not, h.unanswered, ha]
  refine ⟨hok.2 i key.2 hon, ?_⟩
  simp [hon]

/-- Each request that has been reported is answered once at most. -/
theorem answered (h : Adds e e' a outcome) {key : ChannelId × Id}
    (hle : (answersUnder key e.answers).length + (e.owes key).toNat ≤
      (requestsUnder key e.task.reads).length)
    (hok : ∀ item ∈ a.enqueues, item.Within builder ∧ ∀ i : Fin N, ∀ id ∈ item.answerOn i,
      id ∈ e.unanswered i) :
    (answersUnder key e'.answers).length + (e'.owes key).toNat ≤
      (requestsUnder key e'.task.reads).length := by
  have howes : (e'.owes key).toNat ≤ (e.owes key).toNat +
      (requestsUnder key (JulietProtocol.readsOf outcome)).length := by
    have hstays := h.owes key
    have hle' := Bool.toNat_le (e'.owes key)
    cases hnow : e'.owes key with
    | false => simp
    | true =>
      rcases hstays hnow with hbefore | hnew
      · simp [hbefore]
      · have := List.length_pos_iff.mpr hnew
        simp only [Bool.toNat_true]
        omega
  have hsame : answersUnder key (a.enqueues.filterMap QueuedItem.answer) = [] →
      (answersUnder key e'.answers).length + (e'.owes key).toNat ≤
        (requestsUnder key e'.task.reads).length := by
    intro hnone
    rw [h.answers, h.reads, answersUnder_append, requestsUnder_append, hnone,
      List.append_nil, List.length_append]
    omega
  cases a with
  | enqueue item =>
    cases hread : item.answer with
    | none => exact hsame (by simp [IoAct.enqueues, hread, answersUnder])
    | some read =>
      by_cases hkey : read.answered = some key
      · obtain ⟨hbefore, hafter⟩ := h.pays rfl (hok item List.mem_cons_self) hread hkey
        rw [hbefore] at hle
        rw [hafter, h.answers, h.reads, answersUnder_append, requestsUnder_append]
        simp only [IoAct.enqueues, List.filterMap_cons, hread, List.filterMap_nil, answersUnder,
          List.filter_cons, hkey, decide_true, if_true, List.filter_nil, List.length_append,
          List.length_singleton, Bool.toNat_false, Bool.toNat_true] at hle ⊢
        omega
      · exact hsame (by simp [IoAct.enqueues, hread, answersUnder, hkey])
  | _ => exact hsame rfl

end Adds

end IoEnd

namespace IoNet

variable {N : Nat} {builder : ProtocolBuilder N} {s s' : IoNet N} {x : Bool}

theorem Linked.heard {reported : Bool → Fin N → Finset Id} {wire : Bool → List FrameIter}
    (h : Linked builder reported wire s) (x : Bool) (header : Header) :
    readsUnder header (s x).task.reads <+: readsUnder header (s !x).task.core.announced := by
  have hpeer := h.coupled !x
  rw [Bool.not_not] at hpeer
  rw [IoCore.announced, ← announced_of_made hpeer.tidy.sound.made, ← hpeer.conveyed header,
    List.append_assoc, readsUnder_append]
  exact List.prefix_append _ _

theorem Linked.drawn {reported : Bool → Fin N → Finset Id} {wire : Bool → List FrameIter}
    (h : Linked builder reported wire s) (x : Bool) :
    ((s x).task.core.history.map Sent.item).Subperm (s x).enqueued := by
  refine Multiset.coe_le.mp (le_trans ?_ (h.supplied x).drawn)
  rw [IoCore.drawn, IoCore.held, Multiset.coe_nil, add_zero, ← add_assoc]
  exact Multiset.le_add_left _ _

/-- What passes between an end and its peer about the requests of the end with a channel and id: the
peer reads them in the order in which they are created, answers each at most once, and the answers
are created and read in the order in which they are enqueued. -/
structure Talks (x : Bool) (key : ChannelId × Id) (s : IoNet N) : Prop where
  heard : requestsUnder key (s !x).task.reads <+: requestsUnder key (s x).task.core.announced
  answered : (answersUnder key (s !x).answers).length + ((s !x).owes key).toNat ≤
    (requestsUnder key (s !x).task.reads).length
  created : answersUnder key (s !x).task.core.announced <+: answersUnder key (s !x).answers
  read : answersUnder key (s x).task.reads <+: answersUnder key (s !x).task.core.announced

/-- No more than one request is open between an end and its peer. -/
theorem Talks.close {key : ChannelId × Id} (h : Talks x key s) (hb : (s x).task.Balanced) :
    (requestsUnder key (s x).task.core.announced).length ≤
      (answersUnder key (s x).task.reads).length + 1 ∧
    (answersUnder key (s x).task.reads).length ≤
      (answersUnder key (s !x).task.core.announced).length ∧
    (answersUnder key (s !x).task.core.announced).length ≤
      (answersUnder key (s !x).answers).length ∧
    (answersUnder key (s !x).answers).length ≤ (requestsUnder key (s !x).task.reads).length ∧
    (requestsUnder key (s !x).task.reads).length ≤
      (requestsUnder key (s x).task.core.announced).length := by
  have hopen : (requestsUnder key (s x).task.core.announced).length =
      (answersUnder key (s x).task.reads).length + ((s x).task.core.awaits key).toNat :=
        hb.tallied key
  have hle := Bool.toNat_le ((s x).task.core.awaits key)
  have hanswered := h.answered
  exact ⟨by omega, h.read.length_le, h.created.length_le, by omega, h.heard.length_le⟩

/-- The end that asks takes a step. -/
theorem Talks.asks {key : ChannelId × Id} {a : IoAct} {outcome : Option ReadOutcome}
    (h : Talks x key s) (hb : (s x).task.Balanced) (hadds : (s x).Adds (s' x) a outcome)
    (hread : (s' !x).task = (s !x).task) (henq : (s' !x).enqueued = (s !x).enqueued)
    (hun : (s' !x).unanswered = (s !x).unanswered)
    (hheaders : ∀ header,
      readsUnder header (s' x).task.reads <+: readsUnder header (s' !x).task.core.announced) :
    Talks x key s' := by
  have hanswers : (s' !x).answers = (s !x).answers := by rw [IoEnd.answers, IoEnd.answers, henq]
  have howes : (s' !x).owes key = (s !x).owes key := by rw [IoEnd.owes, IoEnd.owes, hun]
  obtain ⟨hopen, hcreated, hqueued, hheard, _⟩ := h.close hb
  refine ⟨?_, ?_, ?_, ?_⟩
  · rw [hread]
    exact h.heard.trans (hadds.announced.filter _)
  · rw [hread, hanswers, howes]
    exact h.answered
  · rw [hread, hanswers]
    exact h.created
  · rw [hread] at hheaders ⊢
    rw [hadds.reads] at hheaders ⊢
    have hlen : (answersUnder key (s !x).task.core.announced).length ≤
        (answersUnder key (s x).task.reads).length + 1 := by
      omega
    exact reads_next h.read hlen hheaders

/-- The end that answers takes a step. -/
theorem Talks.answers {key : ChannelId × Id} {a : IoAct} {outcome : Option ReadOutcome}
    (h : Talks x key s) (hb : (s x).task.Balanced) (hadds : (s !x).Adds (s' !x) a outcome)
    (hread : (s' x).task = (s x).task)
    (hok : ∀ item ∈ a.enqueues, item.Within builder ∧ ∀ i : Fin N, ∀ id ∈ item.answerOn i,
      id ∈ (s !x).unanswered i)
    (hheaders : ∀ header,
      readsUnder header (s' !x).task.reads <+: readsUnder header (s' x).task.core.announced)
    (hdrawn : ((s' !x).task.core.history.map Sent.item).Subperm (s' !x).enqueued) :
    Talks x key s' := by
  obtain ⟨hopen, hcreated, hqueued, hheard, _⟩ := h.close hb
  refine ⟨?_, hadds.answered h.answered hok, ?_, ?_⟩
  · rw [hread] at hheaders ⊢
    rw [hadds.reads] at hheaders ⊢
    have hlen : (requestsUnder key (s x).task.core.announced).length ≤
        (requestsUnder key (s !x).task.reads).length + 1 := by
      omega
    exact reads_next h.heard hlen hheaders
  · by_cases ha : a.enqueues = []
    · -- the messages that are new are among what is enqueued
      have hsub := (List.subperm_filterMap QueuedItem.answer hdrawn).filter
        fun read => read.answered = some key
      rw [← answersUnder, ← answersUnder, ← answersUnder_announced, ← IoCore.announced] at hsub
      obtain ⟨more, hmore⟩ := hadds.announced
      have hsame : (s' !x).enqueued = (s !x).enqueued := by rw [hadds.enqueued, ha, List.append_nil]
      rw [hsame] at hsub
      rw [IoEnd.answers, hsame]
      rw [← hmore, answersUnder_append] at hsub ⊢
      exact List.prefix_append_of_subperm h.created (by rw [← IoEnd.answers]; omega) hsub
    · rw [IoCore.announced, (hadds.quiet ha).2, hadds.answers, answersUnder_append]
      exact h.created.trans (List.prefix_append _ _)
  · rw [hread]
    exact h.read.trans (hadds.announced.filter _)

/-- What holds of two tasks, of the requests that each has created, and of what passes between
them. -/
structure Conversing (builder : ProtocolBuilder N) (s : IoNet N) : Prop where
  linked : ∃ reported wire, Linked builder reported wire s
  balanced : ∀ x, (s x).task.Balanced
  talks : ∀ x key, Talks x key s

theorem conversing_new (builder : ProtocolBuilder N) :
    Conversing builder fun _ => IoEnd.new builder where
  linked := ⟨_, _, linked_new builder⟩
  balanced _ := .new builder
  talks x key := by
    have hnone : (IoEnd.new builder).owes key = false := by simp [IoEnd.owes, IoEnd.new]
    refine ⟨List.prefix_rfl, ?_, List.prefix_rfl, List.prefix_rfl⟩
    rw [hnone]
    exact Nat.le_refl 0

theorem Conversing.step (h : Conversing builder s) {act : Bool × IoAct}
    (hok : Allowed builder s act) (hs : s.step act = some s') : Conversing builder s' := by
  obtain ⟨reported, wire, hl⟩ := h.linked
  obtain ⟨reported', wire', hl'⟩ := hl.step hok hs
  obtain ⟨x, a⟩ := act
  obtain ⟨task, hstep, rfl⟩ := Option.map_eq_some_iff.mp hs
  have hsteps := IoTask.step_steps hstep
  have hxx : (!x) ≠ x := by cases x <;> simp
  have hp' : task.core.pendingError = none := by
    simpa [IoEnd.acts] using (hl'.coupled x).tidy.noError
  obtain ⟨outcome, hadds⟩ :=
    (s x).acts_adds hsteps (h.balanced x).sound (hl.coupled x).tidy.noError hp'
  have hitems : ∀ item ∈ a.enqueues, item.Within builder ∧ ∀ i : Fin N, ∀ id ∈ item.answerOn i,
      id ∈ (s x).unanswered i :=
    hok.1
  refine ⟨⟨_, _, hl'⟩, ?_, ?_⟩
  · intro y
    rcases eq_or_eq_not y x with rfl | rfl
    · simpa [IoEnd.acts] using (h.balanced y).step hsteps
    · simpa [hxx] using h.balanced (!x)
  · intro y key
    rcases eq_or_eq_not y x with rfl | rfl
    · refine (h.talks y key).asks (h.balanced y) (show (s y).Adds _ a outcome from ?_) ?_ ?_ ?_
        (hl'.heard y)
      · simpa using hadds
      all_goals simp [hxx]
    · have hheard := hl'.heard x
      have hdrawn := hl'.drawn x
      rw [← Bool.not_not x] at hitems
      refine (h.talks (!x) key).answers (h.balanced !x) (show (s !(!x)).Adds _ a outcome from ?_) ?_
        hitems ?_ ?_
      · simpa using hadds
      · simp [hxx]
      · simpa using hheard
      · simpa using hdrawn

theorem conversing_of_reach (h : Reach builder s) : Conversing builder s :=
  Transition.Reach.invariant h (conversing_new builder)
    fun hP hok hs => hP.step (of_decide_eq_true hok) hs

/-- What is open between two cores that talk to each other. -/
theorem Conversing.open_requests (h : Conversing builder s) (x : Bool) (key : ChannelId × Id) :
    (requestsUnder key (s x).task.reads).length ≤ (answersUnder key (s x).answers).length + 1 := by
  obtain ⟨hopen, hread, hmade, _, hheard⟩ := (h.talks (!x) key).close (h.balanced !x)
  rw [Bool.not_not] at *
  omega

/-- Between two cores that talk to each other, the requests with a channel and id are read in the
order in which they are created, each is answered at most once and only after it has been read, the
answers are read in the order in which they are enqueued, and a request is created only once all
before it have been answered. -/
theorem requests_in_turn (h : Reach builder s) (x : Bool) (key : ChannelId × Id) :
    requestsUnder key (s !x).task.reads <+: requestsUnder key (s x).task.core.announced ∧
    answersUnder key (s x).task.reads <+: answersUnder key (s !x).answers ∧
    (answersUnder key (s !x).answers).length ≤ (requestsUnder key (s !x).task.reads).length ∧
    (requestsUnder key (s x).task.core.announced).length ≤
      (answersUnder key (s x).task.reads).length + 1 := by
  have hc := conversing_of_reach h
  have ht := hc.talks x key
  obtain ⟨hopen, _, _, hanswered, _⟩ := ht.close (hc.balanced x)
  exact ⟨ht.heard, ht.read.trans ht.created, hanswered, hopen⟩

theorem requests_in_turn_answered : ∃ s, Reach IoTask.pairBuilder s ∧
    (requestsUnder (⟨0⟩, ⟨1⟩) (s true).task.reads).length = 1 ∧
    (answersUnder (⟨0⟩, ⟨1⟩) (s false).task.reads).length = 1 ∧
    answersUnder (⟨0⟩, ⟨1⟩) (s false).task.reads <+: answersUnder (⟨0⟩, ⟨1⟩) (s true).answers := by
  have hrun : (Transition.exec step (fun s act => decide (Allowed IoTask.pairBuilder s act))
      requestAndResponse
      fun _ => .new IoTask.pairBuilder).map
      (fun s => ((requestsUnder (⟨0⟩, ⟨1⟩) (s true).task.reads).length,
        (answersUnder (⟨0⟩, ⟨1⟩) (s false).task.reads).length)) = some (1, 1) := rfl
  obtain ⟨s, hs, he⟩ := Option.map_eq_some_iff.mp hrun
  obtain ⟨hserver, hclient⟩ := Prod.mk.inj he
  have hreach : Reach IoTask.pairBuilder s := Transition.Reach.exec .start hs
  exact ⟨s, hreach, hserver, hclient, (requests_in_turn hreach false _).2.1⟩

end IoNet

end Juliet
