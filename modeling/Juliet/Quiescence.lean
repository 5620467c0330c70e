import Juliet.AnswerOwners
import Juliet.Exchange
import Juliet.ItemChannels
import Juliet.RequestCustody
import Juliet.WaitingItems

namespace Juliet

open Rust

namespace IoCore

variable {N : Nat} {self c : IoCore N} {i : Fin N} {channel : ChannelId}

/-- The answers that wait on a channel are to requests that are still registered, each to its
own. -/
def WantedOn (self : IoCore N) (i : Fin N) : Prop :=
  answersIn i (self.waitQueue i) ≤ (self.juliet.channels i).incomingRequests.val

theorem sendDrops_response {id : Id} (hi : channel.get.toNat = i)
    (hin : id ∈ (self.juliet.channels i).incomingRequests) (payload : Option Bytes) :
    self.sendDrops (.response channel id payload) = [] := by
  rcases self.juliet.createResponse_cases channel id payload with
    ⟨violation, h⟩ | ⟨j, hl, hno, _⟩ | ⟨j, _, _, ⟨violation, h⟩ | ⟨_, h⟩⟩
  · simp [sendDrops, unwanted, h]
  · have he : j = i := Fin.ext ((JulietProtocol.lookupChannel_ok hl).symm.trans hi)
    exact absurd (he ▸ hin) hno
  · simp [sendDrops, unwanted, h]
  · simp [sendDrops, unwanted, h]

theorem sendDrops_responseCancellation {id : Id} (hi : channel.get.toNat = i)
    (hin : id ∈ (self.juliet.channels i).incomingRequests) :
    self.sendDrops (.responseCancellation channel id) = [] := by
  simp [sendDrops, unwanted, JulietProtocol.cancelResponse, JulietProtocol.lookupChannel_of hi, hin]

theorem sendDrops_request (ioId : IoId) (payload : Option Bytes) :
    self.sendDrops (.request channel ioId payload) = [] := by
  simp [sendDrops, unwanted]

theorem answersIn_response {id : Id} (hi : channel.get.toNat = i) (payload : Option Bytes) :
    answersIn i [.response channel id payload] = {id} := by
  simp [answersIn, QueuedItem.answerOn, hi]

/-- Sending a waiting item leaves what waits behind it wanted. -/
theorem SendStep.wanted {item : QueuedItem} {rest : List QueuedItem}
    (hs : SendStep self item (.ok ()) c) (hw : item.waitsOn i) (hq : self.waitQueue i = rest)
    (h : answersIn i (item :: rest) ≤ (self.juliet.channels i).incomingRequests.val) :
    c.WantedOn i ∧ c.waitQueue i = rest := by
  rw [answersIn_cons] at h
  have hle : answersIn i rest ≤ (self.juliet.channels i).incomingRequests.val :=
    le_trans (Multiset.le_add_left _ _) h
  cases hs with
  | request channel ioId payload j id _ _ _ _ =>
    refine ⟨?_, by rw [created_waitQueue, hq]⟩
    rw [WantedOn, created_waitQueue, created_juliet, hq]
    have hsame : ((self.juliet.setChannel j ((self.juliet.channels j).withRequest id)).channels
        i).incomingRequests =
        (self.juliet.channels i).incomingRequests := by
      by_cases hj : i = j
      · subst hj
        rw [JulietProtocol.setChannel_self]
        rfl
      · rw [JulietProtocol.setChannel_of_ne _ hj]
    rwa [hsame]
  | response channel id payload j hj _ _ =>
    have hij : j = i := Fin.ext (hj.symm.trans hw)
    subst hij
    refine ⟨?_, by rw [created_waitQueue, hq]⟩
    rw [WantedOn, created_waitQueue, created_juliet, hq, JulietProtocol.answered,
      JulietProtocol.setChannel_self, Finset.erase_val]
    rw [answersIn_response hj, Multiset.singleton_add] at h
    simpa using Multiset.erase_le_erase id h
  | late _ _ _ => exact ⟨by rwa [WantedOn, hq], hq⟩
  | _ => exact absurd hw (by simp [QueuedItem.waitsOn])

/-- The loop drops nothing that is wanted. -/
theorem waitLoopDrops_nil (remaining : Nat) {self : IoCore N}
    (hw : ∀ item ∈ self.waitQueue i, item.waitsOn i) (h : self.WantedOn i) :
    waitLoopDrops channel i remaining self = [] := by
  induction remaining generalizing self with
  | zero => rfl
  | succ remaining ih =>
    unfold waitLoopDrops
    split
    next => rfl
    next item rest hq =>
      have hitem := hw item (hq ▸ List.mem_cons_self)
      have hrest : ∀ item' ∈ rest, item'.waitsOn i :=
        fun item' hm => hw item' (hq ▸ List.mem_cons_of_mem item hm)
      have hle : answersIn i (item :: rest) ≤ (self.juliet.channels i).incomingRequests.val :=
        hq ▸ h
      have hnone : (self.setWaitQueue i rest).sendDrops item = [] := by
        rcases QueuedItem.waitsOn_cases hitem with ⟨channel, ioId, payload, rfl, _⟩ | ⟨channel,
          id, payload, rfl, hi⟩
        · exact sendDrops_request ioId payload
        · rw [answersIn_cons, answersIn_response hi] at hle
          exact sendDrops_response hi (Multiset.mem_of_le hle (by simp)) payload
      dsimp only
      split
      next =>
        -- the item goes round to the back of the queue
        refine ih ?_ ?_
        · intro item' hm
          rw [setWaitQueue_self, setWaitQueue_self] at hm
          rcases List.mem_append.mp hm with hm | hm
          · exact hrest item' hm
          · rw [List.mem_singleton.mp hm]
            exact hitem
        · rw [WantedOn, setWaitQueue_self, setWaitQueue_self,
            answersIn_perm (List.perm_append_singleton item rest)]
          exact hle
      next =>
        split
        next sent hsend =>
          have hs := sendToReadyQueue_steps hsend
          obtain ⟨hwanted, hqueue⟩ := hs.wanted hitem (setWaitQueue_self _ _ _) hle
          split
          next =>
            rw [hnone, List.nil_append]
            exact ih (hqueue ▸ hrest) hwanted
          next => exact hnone
        next => rfl
      next => rfl

theorem waitQueueDrops_nil (hsound : self.Sound) (h : ∀ i, self.WantedOn i) :
    self.waitQueueDrops channel = [] := by
  unfold waitQueueDrops
  split
  next i _ => exact waitLoopDrops_nil _ (hsound.waiting i) (h i)
  next => rfl

/-- Every answer that is about to be sent is to a request that is registered. -/
theorem Serves.wanted {builder : ProtocolBuilder N} {peer : Side N} {reads : List CompletedRead}
    {ab ba : List FrameIter} {pipe : Bytes} {enqueued hand : List QueuedItem}
    {unanswered : Fin N → Finset Id}
    (h : Serves builder peer reads ab ba pipe enqueued unanswered hand self) (i : Fin N) :
    answersIn i self.receiver.queue + answersIn i (self.waitQueue i) + answersIn i hand ≤
      (self.juliet.channels i).incomingRequests.val := by
  obtain ⟨reported, hc, hs⟩ := h
  have htracked : (self.juliet.channels i).incomingRequests.val =
      (reported i).val + (self.juliet.channels i).currentMultiframeReceiver.request :=
        hc.joined.left.tracked i
  have hpending := hs.pending i
  rw [add_assoc, add_assoc, ← add_assoc (answersIn i self.receiver.queue)] at hpending
  rw [htracked]
  exact le_trans (le_trans (Multiset.le_add_left _ _) hpending) (Multiset.le_add_right _ _)

theorem Serves.wantedOn {builder : ProtocolBuilder N} {peer : Side N} {reads : List CompletedRead}
    {ab ba : List FrameIter} {pipe : Bytes} {enqueued hand : List QueuedItem}
    {unanswered : Fin N → Finset Id}
    (h : Serves builder peer reads ab ba pipe enqueued unanswered hand self) (i : Fin N) :
    self.WantedOn i :=
  le_trans (le_trans (Multiset.le_add_left _ _) (Multiset.le_add_right _ _)) (h.wanted i)

end IoCore

namespace IoTask

variable {N : Nat} {t t' : IoTask N} {builder : ProtocolBuilder N} {peer : Side N}
  {reads : List CompletedRead} {ab ba : List FrameIter} {pipe : Bytes} {enqueued : List QueuedItem}
  {unanswered : Fin N → Finset Id}

/-- A core that talks to a peer drops no item. -/
theorem droppedBy_nil (h : t.core.Serves builder peer reads ab ba pipe enqueued unanswered [])
    (hplain : ∀ it ∈ ba, it.header.kind ≠ .ok .cancelReq) (a : IoAct) : t.droppedBy a = [] := by
  have hserves := h
  obtain ⟨reported, hc, hsup⟩ := h
  have htaken : t.droppedBy .recv = [] := by
    rw [droppedBy]
    split
    next item rest hq =>
      have hin : item ∈ enqueued := by
        refine Multiset.mem_coe.mp (Multiset.mem_of_le hsup.drawn ?_)
        simp [IoCore.drawn, hq]
      have hwithin := hsup.within item hin
      have hwants : ∀ i : Fin N,
          answersIn i [item] ≤ (t.core.juliet.channels i).incomingRequests.val := by
        intro i
        have hwanted := hserves.wanted i
        rw [hq, answersIn_cons] at hwanted
        exact le_trans (le_trans (Multiset.le_add_right _ _) (le_trans (Multiset.le_add_right _ _)
          (Multiset.le_add_right _ _))) hwanted
      have hnone : (t.dequeued rest).sendDrops item = [] := by
        cases item with
        | request channel ioId payload => exact IoCore.sendDrops_request ioId payload
        | response channel id payload =>
          obtain ⟨i, hi, _⟩ := hwithin
          refine IoCore.sendDrops_response hi (Multiset.mem_of_le (hwants i) ?_) payload
          simp [answersIn, QueuedItem.answerOn, hi]
        | responseCancellation channel id =>
          obtain ⟨i, hi⟩ := hwithin
          refine IoCore.sendDrops_responseCancellation hi (Multiset.mem_of_le (hwants i) ?_)
          simp [answersIn, QueuedItem.answerOn, hi]
        | requestCancellation _ | error _ _ _ => exact hwithin.elim
      unfold IoCore.itemDrops
      split
      next => exact hnone
      next => rfl
    next => rfl
  cases a with
  | recv => exact htaken
  | tryRecv => exact htaken
  | turn =>
    rw [droppedBy, IoCore.parseDrops]
    split
    next =>
      split
      next channel id payload juliet buffer hp =>
        obtain ⟨_, taken, ba', _, _, hnew, hc'⟩ := hc.parsed hplain hp
        have hparsed : (t.core.parsed juliet buffer).Serves builder peer reads ab ba' pipe enqueued
            (fun j => unanswered j ∪ reportedBy j
              (JulietProtocol.readsOf (some (.success (.receivedResponse channel id payload)))))
            [] :=
          ⟨_, hc', (hsup.report hnew).idle rfl rfl rfl⟩
        exact IoCore.waitQueueDrops_nil hc'.tidy.sound hparsed.wantedOn
      next => rfl
    next => rfl
  | write k =>
    rw [droppedBy]
    split
    next current hcurrent =>
      split
      next =>
        unfold IoCore.sentDrops
        split
        next i _ =>
          unfold IoCore.waitQueueDrops
          split
          next j _ =>
            exact IoCore.waitLoopDrops_nil _ (hc.tidy.sound.waiting j) (hserves.wantedOn j)
          next => rfl
        next => rfl
      next => rfl
    next => rfl
  | _ => rfl

end IoTask

namespace IoEnd

variable {N : Nat} {builder : ProtocolBuilder N} {e e' : IoEnd N} {a : IoAct}
  {outcome : Option ReadOutcome} {key : ChannelId × Id}

/-- What is owed stays so until it is answered. -/
theorem Adds.owes_still (h : Adds e e' a outcome)
    (hnone : answersUnder key (a.enqueues.filterMap QueuedItem.answer) = [])
    (howes : e.owes key = true) : e'.owes key = true := by
  by_cases hlt : key.1.get.toNat < N
  · rw [owes_of (i := ⟨_, hlt⟩) rfl, decide_eq_true_iff] at howes ⊢
    rw [h.unanswered, Finset.mem_sdiff, Finset.mem_union, List.mem_toFinset]
    refine ⟨.inl howes, ?_⟩
    intro hin
    obtain ⟨item, hitem, hid⟩ := List.mem_filterMap.mp hin
    obtain ⟨read, hread, hkey⟩ := (QueuedItem.answerOn_of rfl).mp hid
    have hmem : read ∈ answersUnder key (a.enqueues.filterMap QueuedItem.answer) :=
      List.mem_filter.mpr ⟨List.mem_filterMap.mpr ⟨item, hitem, hread⟩, by simpa using hkey⟩
    simp [hnone] at hmem
  · simp [owes_unknown hlt] at howes

/-- What has been reported and not answered is owed. -/
theorem Adds.owing (h : Adds e e' a outcome) (hlt : key.1.get.toNat < N)
    (hle : (requestsUnder key e.task.reads).length ≤ (answersUnder key e.answers).length +
      (e.owes key).toNat)
    (hopen : (requestsUnder key e'.task.reads).length ≤ (answersUnder key e'.answers).length + 1)
    (hok : ∀ item ∈ a.enqueues, item.Within builder ∧ ∀ i : Fin N, ∀ id ∈ item.answerOn i,
      id ∈ e.unanswered i) :
    (requestsUnder key e'.task.reads).length ≤ (answersUnder key e'.answers).length +
      (e'.owes key).toNat := by
  by_cases hnew : requestsUnder key (JulietProtocol.readsOf outcome) = []
  · have hreads : requestsUnder key e'.task.reads = requestsUnder key e.task.reads := by
      rw [h.reads, requestsUnder_append, hnew, List.append_nil]
    have hstill : answersUnder key (a.enqueues.filterMap QueuedItem.answer) = [] →
        (requestsUnder key e'.task.reads).length ≤ (answersUnder key e'.answers).length +
          (e'.owes key).toNat := by
      intro hnone
      have howes : (e.owes key).toNat ≤ (e'.owes key).toNat := by
        cases hbefore : e.owes key with
        | false => simp
        | true => rw [h.owes_still hnone hbefore]
      rw [hreads, h.answers, answersUnder_append, hnone, List.append_nil]
      omega
    cases a with
    | enqueue item =>
      cases hread : item.answer with
      | none => exact hstill (by simp [IoAct.enqueues, hread, answersUnder])
      | some read =>
        by_cases hkey : read.answered = some key
        · obtain ⟨hbefore, _⟩ := h.pays rfl (hok item List.mem_cons_self) hread hkey
          rw [hbefore] at hle
          rw [hreads, h.answers, answersUnder_append]
          simp only [IoAct.enqueues, List.filterMap_cons, hread, List.filterMap_nil, answersUnder,
            List.filter_cons, hkey, decide_true, if_true, List.filter_nil, List.length_append,
            List.length_singleton, Bool.toNat_true] at hle ⊢
          omega
        · exact hstill (by simp [IoAct.enqueues, hread, answersUnder, hkey])
    | _ => exact hstill rfl
  · have hitems : a.enqueues = [] := by
      by_contra hne
      rw [(h.quiet hne).1] at hnew
      exact hnew rfl
    have howes : e'.owes key = true := by
      rw [owes_of (i := ⟨_, hlt⟩) rfl, decide_eq_true_iff, h.unanswered, hitems]
      simp [(reportedBy_of rfl (JulietProtocol.readsOf outcome)).mpr hnew]
    rw [howes]
    exact hopen

end IoEnd

namespace IoNet

variable {N : Nat} {builder : ProtocolBuilder N} {s s' : IoNet N} {x : Bool}

/-- What carries on that nothing is forgotten between two cores. -/
structure Complete (builder : ProtocolBuilder N) (s : IoNet N) : Prop where
  conversing : Conversing builder s
  attended : ∀ x, (s x).task.Attended
  covered : ∀ x, (s x).task.Covered
  whole : ∀ x, (s x).task.Live → (s x).task.core.drawn [] = (s x).enqueued
  owing : ∀ x key, key.1.get.toNat < N → (requestsUnder key (s x).task.reads).length ≤
    (answersUnder key (s x).answers).length + ((s x).owes key).toNat

theorem complete_new (builder : ProtocolBuilder N) :
    Complete builder fun _ => IoEnd.new builder where
  conversing := conversing_new builder
  attended _ := .new builder
  covered _ := fun _ _ _ j item hm => by simp [IoEnd.new, IoTask.new, IoCore.new] at hm
  whole _ _ := by simp [IoEnd.new, IoTask.new, IoCore.new, IoCore.drawn, IoCore.held]
  owing _ _ _ := by simp [IoEnd.new, IoTask.new, IoTask.reads, readsIn, requestsUnder]

/-- The steps that two tasks take, with no answer read while a request waits that can get its id,
and nothing left behind in a wait queue. -/
def forgetsNothing (builder : ProtocolBuilder N) (s : IoNet N) (act : Bool × IoAct) : Bool :=
  keepsAnsweredIds builder s act && (s act.1).task.strandsNothing act.2

/-- All that is enqueued is in the local queue, waits, or has been created a message for. -/
theorem Complete.wholeStep {task : IoTask N} {a : IoAct} (h : Complete builder s)
    (hs : IoTask.Step (s x).task a task) (hlive : task.Live) :
    task.core.drawn [] = ((s x).enqueued ++ a.enqueues : List QueuedItem) := by
  obtain ⟨reported, wire, hl⟩ := h.conversing.linked
  have hplain : ∀ it ∈ wire !x, it.header.kind ≠ .ok .cancelReq :=
    fun it hit => (hl.coupled !x).tidy.plain it (List.mem_append_left _ hit)
  have hdrops := IoTask.droppedBy_nil ⟨reported x, hl.coupled x, hl.supplied x⟩ hplain a
  have hsound := (h.attended x).matching.sound
  have hwas := hs.live hsound hlive
  have hheld := hs.held_moved ((h.attended x).emitting hwas) hlive
  have hqueue := congrArg (fun l : List QueuedItem => (l : Multiset QueuedItem))
    (hs.queue_moved hsound hlive)
  have hwhole := h.whole x hwas
  simp only [← Multiset.coe_add] at hqueue
  rw [hdrops, Multiset.coe_nil, add_zero] at hheld
  rw [IoCore.drawn, Multiset.coe_nil, add_zero] at hwhole ⊢
  rw [← Multiset.coe_add, ← hwhole, hheld]
  calc
    (task.core.receiver.queue : Multiset QueuedItem) + ((s x).task.core.held + (s x).task.takenBy a)
      = ((s x).task.takenBy a + task.core.receiver.queue) + (s x).task.core.held := by abel
    _ = ((s x).task.core.receiver.queue + a.enqueues) + (s x).task.core.held := by rw [hqueue]
    _ = _ := by abel

theorem Complete.step (h : Complete builder s) {act : Bool × IoAct}
    (hok : forgetsNothing builder s act = true) (hs : s.step act = some s') :
    Complete builder s' := by
  obtain ⟨hkeep, hstrands⟩ := Bool.and_eq_true_iff.mp hok
  obtain ⟨hallowed, hkeeps⟩ := Bool.and_eq_true_iff.mp hkeep
  have hallowed := of_decide_eq_true hallowed
  have hc' := h.conversing.step hallowed hs
  obtain ⟨_, _, hl⟩ := h.conversing.linked
  obtain ⟨_, _, hl'⟩ := hc'.linked
  obtain ⟨x, a⟩ := act
  obtain ⟨task, hstep, rfl⟩ := Option.map_eq_some_iff.mp hs
  have hsteps := IoTask.step_steps hstep
  have hxx : (!x) ≠ x := by cases x <;> simp
  have hp' : task.core.pendingError = none := by
    simpa [IoEnd.acts] using (hl'.coupled x).tidy.noError
  obtain ⟨outcome, hadds⟩ :=
    (s x).acts_adds hsteps (h.conversing.balanced x).sound (hl.coupled x).tidy.noError hp'
  refine ⟨hc', ?_, ?_, ?_, ?_⟩
  all_goals
    intro y
    rcases eq_or_eq_not y x with rfl | rfl
  · simpa [IoEnd.acts] using (h.attended y).step hkeeps hsteps
  · simpa [hxx] using h.attended (!x)
  · simpa [IoEnd.acts] using (h.covered y).step (h.attended y).matching.sound hstrands hsteps
  · simpa [hxx] using h.covered (!x)
  · simpa [IoEnd.acts] using h.wholeStep hsteps
  · simpa [hxx] using h.whole (!x)
  · intro key hlt
    have hopen := hc'.open_requests y key
    simp only [if_true] at hopen ⊢
    exact hadds.owing hlt (h.owing y key hlt) hopen hallowed.1
  · intro key hlt
    simp only [hxx, if_false]
    exact h.owing (!x) key hlt

theorem complete_of_reach
    (h : Transition.Reach step (fun s act => forgetsNothing builder s act)
      (fun _ => .new builder) s) :
    Complete builder s :=
  Transition.Reach.invariant h (complete_new builder) fun hP hok hs => hP.step hok hs

/-- Nothing is to be sent or on its way, and all requests that have been reported are answered. -/
structure Quiet (s : IoNet N) : Prop where
  position : ∀ x, (s x).task.position = .select
  current : ∀ x, (s x).task.core.currentFrame = none
  ready : ∀ x, (s x).task.core.readyQueue = []
  queue : ∀ x, (s x).task.core.receiver.queue = []
  buffer : ∀ x, (s x).task.core.buffer = []
  pipe : ∀ x, (s x).pipe = []
  answered : ∀ x i, (s x).unanswered i = ∅

namespace Quiet

variable {reported : Bool → Fin N → Finset Id} {wire : Bool → List FrameIter}

theorem nothing_written (hq : Quiet s) (hl : Linked builder reported wire s) (x : Bool) :
    wire x = [] := by
  have hbytes := (hl.coupled x).joined.toward.bytes
  simp only [IoCore.side, IoCore.pendingBytes, hq.buffer, hq.pipe, hq.current,
    Option.map_none, Option.getD_none, List.append_nil] at hbytes
  exact Exchange.emits_eq_nil hbytes.symm

theorem sending (hq : Quiet s) (x : Bool) : (s x).task.core.sending = [] := by
  simp [IoCore.sending, hq.ready]

/-- The peer has read all that was announced. -/
theorem reads (hq : Quiet s) (hl : Linked builder reported wire s) (x : Bool) :
    (s !x).task.reads.Perm (s x).task.core.announced := by
  have hsame : ∀ header, readsUnder header (s !x).task.reads =
      readsUnder header (s x).task.core.announced := by
    intro header
    have hconveyed := (hl.coupled x).conveyed header
    rwa [hq.nothing_written hl, hq.sending, List.filterMap_nil, List.filterMap_nil,
      List.append_nil, List.append_nil,
      announced_of_made (hl.coupled x).tidy.sound.made] at hconveyed
  refine List.perm_iff_count.mpr fun read => ?_
  have hcount := congrArg (List.count read) (hsame read.header)
  rwa [readsUnder, readsUnder, List.count_filter (by simp), List.count_filter (by simp)] at hcount

/-- What waits are requests beyond the limit of their channel. -/
theorem waiting (hq : Quiet s) (h : Complete builder s) {x : Bool} {i : Fin N} {item : QueuedItem}
    (hin : item ∈ (s x).task.core.waitQueue i) : item.answer = none ∧
      ∃ channel : ChannelId, channel.get.toNat = i ∧
        ((s x).task.core.juliet.channels i).allowedToSendRequest = false := by
  obtain ⟨_, _, hl⟩ := h.conversing.linked
  have htidy := (hl.coupled x).tidy
  have hactive : (s x).task.core.activeMultiFrame i = none := by
    rw [Option.eq_none_iff_forall_ne_some]
    intro header hheader
    obtain ⟨k, hk, _⟩ := (htidy.exclusive.active i header).mp hheader
    simp [IoCore.flight, hq.current, hq.ready] at hk
  obtain ⟨channel, hwaits⟩ :=
    (h.covered x).notForgotten htidy.sound (hq.position x) htidy.noError (hq.current x)
    (hq.ready x) i item hin
  rcases QueuedItem.waitsOn_cases (htidy.sound.waiting i item hin) with
    ⟨channel, ioId, payload, rfl, hi⟩ | ⟨channel, id, payload, rfl, hi⟩
  · rw [itemShouldWait_request hi, hactive] at hwaits
    refine ⟨rfl, channel, hi, ?_⟩
    by_contra hne
    simp [Bool.eq_true_of_not_eq_false hne] at hwaits
  · rw [itemShouldWait_response hi, hactive] at hwaits
    simp at hwaits

theorem live (hq : Quiet s) (hl : Linked builder reported wire s) (x : Bool) : (s x).task.Live :=
  ⟨(hl.coupled x).tidy.noError, by simp [hq.position x], by simp [hq.position x]⟩

/-- All answers that were enqueued have been created messages for. -/
theorem created (hq : Quiet s) (h : Complete builder s) (x : Bool) (key : ChannelId × Id) :
    (answersUnder key (s x).answers).length =
      (answersUnder key (s x).task.core.announced).length := by
  obtain ⟨_, _, hl⟩ := h.conversing.linked
  have hwhole := congrArg (Multiset.filterMap QueuedItem.answer) (h.whole x (hq.live hl x))
  have hwaits : Multiset.filterMap QueuedItem.answer
      (∑ i, ((s x).task.core.waitQueue i : Multiset QueuedItem)) = 0 := by
    rw [Multiset.eq_zero_iff_forall_notMem]
    intro read hin
    obtain ⟨item, hitem, hread⟩ := (Multiset.mem_filterMap _ _).mp hin
    obtain ⟨i, _, hitem⟩ := Multiset.mem_sum.mp hitem
    simp [(hq.waiting h (Multiset.mem_coe.mp hitem)).1] at hread
  rw [IoCore.drawn, hq.queue, IoCore.held, Multiset.coe_nil, zero_add, add_zero,
    Multiset.filterMap_add, hwaits, zero_add, Multiset.filterMap_coe, Multiset.filterMap_coe,
    Multiset.coe_eq_coe] at hwhole
  rw [IoCore.announced, answersUnder_announced]
  exact ((hwhole.filter _).length_eq).symm

/-- No request is outstanding. -/
theorem awaits (hq : Quiet s) (h : Complete builder s) (x : Bool) (key : ChannelId × Id) :
    (s x).task.core.awaits key = false := by
  by_cases hlt : key.1.get.toNat < N
  · obtain ⟨_, _, hl⟩ := h.conversing.linked
    have htallied : (requestsUnder key (s x).task.core.announced).length =
        (answersUnder key (s x).task.reads).length + ((s x).task.core.awaits key).toNat :=
      (h.conversing.balanced x).tallied key
    have howes : (s !x).owes key = false := by
      rw [IoEnd.owes_of (i := ⟨_, hlt⟩) rfl, hq.answered]
      simp
    have hasked : (requestsUnder key (s !x).task.reads).length =
        (requestsUnder key (s x).task.core.announced).length :=
      ((hq.reads hl x).filter _).length_eq
    have howing := h.owing (!x) key hlt
    have hcreated := hq.created h (!x) key
    have hread := hq.reads hl !x
    rw [Bool.not_not] at hread
    have hheard : (answersUnder key (s x).task.reads).length =
        (answersUnder key (s !x).task.core.announced).length :=
      (hread.filter _).length_eq
    rw [howes, Bool.toNat_false] at howing
    have hnone : ((s x).task.core.awaits key).toNat = 0 := by omega
    simpa using hnone
  · exact IoCore.awaits_unknown hlt _

theorem outgoing (hq : Quiet s) (h : Complete builder s) (x : Bool) {channel : ChannelId}
    {i : Fin N} (hi : channel.get.toNat = i) :
    ((s x).task.core.juliet.channels i).outgoingRequests = ∅ := by
  rw [Finset.eq_empty_iff_forall_notMem]
  intro id hin
  have hnone := hq.awaits h x (channel, id)
  rw [IoCore.awaits_of hi] at hnone
  simp [hin] at hnone

/-- What has been received and not answered is outstanding on the other side. -/
theorem incoming (hq : Quiet s) (h : Complete builder s) (x : Bool) {channel : ChannelId}
    {i : Fin N} (hi : channel.get.toNat = i) :
    ((s x).task.core.juliet.channels i).incomingRequests = ∅ := by
  obtain ⟨_, _, hl⟩ := h.conversing.linked
  have hbalanced : Balanced i _ _ _ _ := (hl.coupled x).joined.back.balanced i
  have hout : ((s !x).task.core.juliet.channels i).outgoingRequests = ∅ := hq.outgoing h (!x) hi
  unfold Balanced at hbalanced
  have hnone := congrArg Multiset.card hbalanced
  simp only [IoCore.side, Side.chan, hout, Finset.empty_val, Multiset.card_zero, Multiset.card_add,
    Finset.card_val] at hnone
  exact Finset.card_eq_zero.mp (by omega)

theorem requestMap (hq : Quiet s) (h : Complete builder s) (x : Bool) :
    (s x).task.core.requestMap.pairs = [] := by
  obtain ⟨_, _, hl⟩ := h.conversing.linked
  rw [List.eq_nil_iff_forall_not_mem]
  rintro ⟨ioId, key⟩ hin
  rcases ((h.attended x).remembers (hq.live hl x)).awaited ioId key hin with ⟨hhole, _⟩ | hawaits
  · simp at hhole
  · simp [hq.awaits h x key] at hawaits

end Quiet

/-- In every run of two cores that talk to each other, in which no answer is read while a request
waits that can get its id and nothing that can be sent is left in a wait queue: once nothing is on
its way and all requests that have been reported are answered, nothing waits, no request is open on
either side, and each request that has been enqueued has been answered once. -/
theorem quiet_all_answered
    (h : Transition.Reach step (fun s act => forgetsNothing builder s act)
      (fun _ => .new builder) s)
    (hlimit : ∀ i, 0 < (builder.channelConfig i).requestLimit.toNat) (hq : Quiet s) (x : Bool) :
    (∀ i, (s x).task.core.waitQueue i = []) ∧
    (∀ (channel : ChannelId) (i : Fin N), channel.get.toNat = i →
      ((s x).task.core.juliet.channels i).outgoingRequests = ∅ ∧
      ((s x).task.core.juliet.channels i).incomingRequests = ∅) ∧
    (s x).task.core.requestMap.pairs = [] ∧
    ∀ channel ioId payload, .request channel ioId payload ∈ (s x).enqueued →
      (s x).task.answerIds.count ioId = 1 := by
  have hc := complete_of_reach h
  obtain ⟨_, _, hl⟩ := hc.conversing.linked
  have hwaits : ∀ i, (s x).task.core.waitQueue i = [] := by
    intro i
    rw [List.eq_nil_iff_forall_not_mem]
    intro item hin
    obtain ⟨_, channel, hi, hblocked⟩ := hq.waiting hc hin
    have hconfig : ((s x).task.core.juliet.channels i).config = builder.channelConfig i :=
      (hl.coupled x).joined.left.config i
    rw [Channel.allowedToSendRequest, hq.outgoing hc x hi, hconfig] at hblocked
    simp [hlimit i] at hblocked
  refine ⟨hwaits, fun channel i hi => ⟨hq.outgoing hc x hi, hq.incoming hc x hi⟩,
    hq.requestMap hc x, ?_⟩
  intro channel ioId payload hin
  have hlive := hq.live hl x
  have hwhole := hc.whole x hlive
  rw [← Multiset.mem_coe, ← hwhole, IoCore.drawn, IoCore.held, hq.queue] at hin
  simp only [hwaits, Multiset.coe_nil, Finset.sum_const_zero, zero_add, add_zero, Multiset.mem_coe,
    List.mem_map] at hin
  obtain ⟨sent, hsent, hitem⟩ := hin
  rcases ((hc.attended x).remembers hlive).made sent hsent ioId (by simp [hitem,
    QueuedItem.isRequest]) with
    hanswered | ⟨key, hpair⟩
  · exact List.count_eq_one_of_mem (hc.attended x).matching.once hanswered
  · simp [hq.requestMap hc x] at hpair

/-- Two requests on a channel for one, both answered: the second one waits for the response to the
first. -/
def bothAnswered : List (Bool × IoAct) :=
  [(false, .enqueue (.request ⟨0⟩ ⟨1⟩ none)), (false, .enqueue (.request ⟨0⟩ ⟨2⟩ none)),
    (false, .turn), (false, .recv), (false, .tryRecv), (false, .tryRecv), (false, .turn),
    (false, .write 4), (false, .turn), (true, .turn), (true, .read [0, 0, 1, 0]), (true, .turn),
    (true, .enqueue (.response ⟨0⟩ ⟨1⟩ none)), (true, .turn), (true, .recv),
    (true, .tryRecv), (true, .turn), (true, .write 4), (true, .turn), (false, .read [1, 0, 1, 0]),
    (false, .turn), (false, .turn), (false, .write 4), (false, .turn), (true, .read [0, 0, 2, 0]),
    (true, .turn), (true, .enqueue (.response ⟨0⟩ ⟨2⟩ none)), (true, .turn), (true, .recv),
    (true, .tryRecv), (true, .turn), (true, .write 4), (true, .turn), (false, .read [1, 0, 2, 0]),
    (false, .turn), (false, .turn)]

theorem quiet_all_answered_both : ∃ s : IoNet 1, Quiet s ∧
    (s false).enqueued = [.request ⟨0⟩ ⟨1⟩ none, .request ⟨0⟩ ⟨2⟩ none] ∧
    (s false).task.answerIds.count ⟨2⟩ = 1 := by
  have hrun : (Transition.exec step (forgetsNothing JulietProtocol.smallBuilder) bothAnswered
      fun _ => .new JulietProtocol.smallBuilder).map (fun s => ((s false).enqueued,
        [false, true].map fun x =>
        ((s x).task.position, (s x).task.core.currentFrame, (s x).task.core.readyQueue,
          (s x).task.core.receiver.queue,
          (s x).task.core.buffer, (s x).pipe, (s x).unanswered 0))) =
        some ([.request ⟨0⟩ ⟨1⟩ none, .request ⟨0⟩ ⟨2⟩ none],
          List.replicate 2 (.select, none, [], [], [], [], ∅)) := rfl
  obtain ⟨s, hs, he⟩ := Option.map_eq_some_iff.mp hrun
  obtain ⟨henqueued, hidle⟩ := Prod.mk.inj he
  simp only [List.map_cons, List.map_nil, List.replicate_succ, List.replicate_zero,
    List.cons.injEq, Prod.mk.injEq, and_true] at hidle
  obtain ⟨⟨hp, hc, hr, hqu, hb, hpi, hu⟩, hp', hc', hr', hqu', hb', hpi', hu'⟩ := hidle
  have hq : Quiet s := by
    constructor
    case answered =>
      intro x i
      rw [Subsingleton.elim i 0]
      cases x <;> assumption
    all_goals
      intro x
      cases x <;> assumption
  refine ⟨s, hq, henqueued, ?_⟩
  have hall := quiet_all_answered (Transition.Reach.exec .start hs) (by decide) hq false
  exact hall.2.2.2 ⟨0⟩ ⟨2⟩ none (by simp [henqueued])

end IoNet

end Juliet
