import Mathlib.Algebra.BigOperators.Group.Finset.Basic
import Mathlib.Algebra.Order.Group.Multiset
import Mathlib.Tactic.Abel
import Juliet.Emission

namespace Juliet

open Rust

namespace IoCore

variable {N : Nat} {self c : IoCore N} {i : Fin N}

/-- Whether nothing is to be sent for an item: the call that would create its message returns
`None`, or there is no call to make since the request to cancel is unknown. -/
def unwanted (self : IoCore N) (item : QueuedItem) : Bool :=
  match item with
  | .response channel id payload =>
    match self.juliet.createResponse channel id payload with
    | (.ok none, _) => true
    | _ => false
  | .responseCancellation channel id =>
    match self.juliet.cancelResponse channel id with
    | (.ok none, _) => true
    | _ => false
  | .requestCancellation ioId =>
    match self.requestMap.getByLeft ioId with
    | some (channel, id) =>
      match self.juliet.cancelRequest channel id with
      | (.ok none, _) => true
      | _ => false
    | none => true
  | _ => false

/-- What `send_to_ready_queue` drops of an item: all or nothing. -/
def sendDrops (self : IoCore N) (item : QueuedItem) : List QueuedItem :=
  if self.unwanted item then [item] else []

/-- The items that the loop of `process_wait_queue` drops. -/
def waitLoopDrops (channel : ChannelId) (i : Fin N) : Nat → IoCore N → List QueuedItem
  | 0, _ => []
  | remaining + 1, self =>
    match self.waitQueue i with
    | [] => []
    | item :: rest =>
      let self := self.setWaitQueue i rest
      match itemShouldWait item self.juliet self.activeMultiFrame with
      | .ok (.ok (some _)) =>
        waitLoopDrops channel i remaining (self.setWaitQueue i (self.waitQueue i ++ [item]))
      | .ok (.ok none) =>
        match self.sendToReadyQueue item with
        | .ok (.ok (), sent) =>
          match sent.juliet.allowedToSendRequest channel with
          | .ok true => self.sendDrops item ++ waitLoopDrops channel i remaining sent
          | _ => self.sendDrops item
        | _ => []
      | _ => []

def waitQueueDrops (self : IoCore N) (channel : ChannelId) : List QueuedItem :=
  match channelIndex N channel with
  | .ok i => waitLoopDrops channel i (self.waitQueue i).length self
  | .error _ => []

/-- The items that are dropped when an item of the local queue is handled. -/
def itemDrops (self : IoCore N) (item : QueuedItem) : List QueuedItem :=
  match itemShouldWait item self.juliet self.activeMultiFrame with
  | .ok (.ok none) => self.sendDrops item
  | _ => []

/-- The items that are dropped when the wait queue is processed for an incoming response. -/
def parseDrops (self : IoCore N) : List QueuedItem :=
  if self.nextParseAt ≤ self.buffer.length then
    match self.juliet.processIncoming self.buffer with
    | .ok (.success (.receivedResponse channel _ _), juliet, buffer) =>
      (self.parsed juliet buffer).waitQueueDrops channel
    | _ => []
  else []

/-- The items that are dropped when the wait queue is processed behind a frame. -/
def sentDrops (self : IoCore N) (sent : CurrentFrame) : List QueuedItem :=
  match channelIndex N sent.frame.header.channel with
  | .ok i => (self.cleared sent i).waitQueueDrops sent.frame.header.channel
  | .error _ => []

theorem sendDrops_mem {item item' : QueuedItem} (h : item' ∈ self.sendDrops item) (ioId : IoId) :
    item'.isRequest ioId = false := by
  unfold sendDrops at h
  split at h
  next hu =>
    rw [List.mem_singleton.mp h]
    cases item with
    | request channel ioId' payload => simp [unwanted] at hu
    | _ => rfl
  next => simp at h

/-- No request is dropped by the loop. -/
theorem waitLoopDrops_mem {channel : ChannelId} (remaining : Nat) {self : IoCore N}
    {item : QueuedItem} (h : item ∈ waitLoopDrops channel i remaining self) (ioId : IoId) :
    item.isRequest ioId = false := by
  induction remaining generalizing self with
  | zero => simp [waitLoopDrops] at h
  | succ remaining ih =>
    unfold waitLoopDrops at h
    split at h
    next => simp at h
    next =>
      dsimp only at h
      split at h
      next => exact ih h
      next =>
        split at h
        next =>
          split at h
          next =>
            rcases List.mem_append.mp h with h | h
            · exact sendDrops_mem h ioId
            · exact ih h
          next => exact sendDrops_mem h ioId
        next => simp at h
      next => simp at h

theorem waitQueueDrops_mem {channel : ChannelId} {item : QueuedItem}
    (h : item ∈ self.waitQueueDrops channel) (ioId : IoId) : item.isRequest ioId = false := by
  unfold waitQueueDrops at h
  split at h
  next => exact waitLoopDrops_mem _ h ioId
  next => simp at h

theorem itemDrops_mem {item item' : QueuedItem} (h : item' ∈ self.itemDrops item) (ioId : IoId) :
    item'.isRequest ioId = false := by
  unfold itemDrops at h
  split at h
  next => exact sendDrops_mem h ioId
  next => simp at h

theorem parseDrops_mem {item : QueuedItem} (h : item ∈ self.parseDrops) (ioId : IoId) :
    item.isRequest ioId = false := by
  unfold parseDrops at h
  split at h
  next =>
    split at h
    next => exact waitQueueDrops_mem h ioId
    next => simp at h
  next => simp at h

theorem sentDrops_mem {sent : CurrentFrame} {item : QueuedItem} (h : item ∈ self.sentDrops sent)
    (ioId : IoId) :
    item.isRequest ioId = false := by
  unfold sentDrops at h
  split at h
  next => exact waitQueueDrops_mem h ioId
  next => simp at h

theorem markActive_rest {channel : ChannelId} {msg : OutgoingMessage}
    (h : self.markActive channel msg = .ok c) :
    c.history = self.history ∧ c.waitQueue = self.waitQueue := by
  unfold markActive at h
  split at h
  next =>
    obtain ⟨i, _, h⟩ := bind_eq_ok.mp h
    cases Except.ok.inj h
    exact ⟨rfl, rfl⟩
  next =>
    cases Except.ok.inj h
    exact ⟨rfl, rfl⟩

/-- An item that is sent is created a message for, or dropped. -/
theorem sendToReadyQueue_once {item : QueuedItem} (h : self.sendToReadyQueue item = .ok (.ok (), c))
    (hp : c.pendingError = none) :
    ∃ new : List Sent, c.history = self.history ++ new ∧ c.waitQueue = self.waitQueue ∧
      new.map Sent.item ++ self.sendDrops item = [item] := by
  unfold sendToReadyQueue at h
  unfold sendDrops unwanted
  cases item with
  | request channel ioId payload =>
    obtain ⟨⟨created, juliet⟩, _, h⟩ := bind_eq_ok.mp h
    cases created with
    | error violation => simp at h
    | ok msg =>
      obtain ⟨c', hactive, h⟩ := bind_eq_ok.mp h
      obtain ⟨_, rfl⟩ := ok_pair h
      obtain ⟨hh, hw⟩ := markActive_rest hactive
      exact ⟨[⟨.request channel ioId payload, msg⟩], by simp [pushReady, hh], hw, rfl⟩
  | requestCancellation ioId =>
    dsimp only at h ⊢
    rcases Option.eq_none_or_eq_some (self.requestMap.getByLeft ioId) with
      hget | ⟨⟨channel, id⟩, hget⟩
    · simp only [hget] at h
      obtain ⟨_, rfl⟩ := ok_pair h
      exact ⟨[], by simp, rfl, by simp [hget]⟩
    · simp only [hget] at h ⊢
      split at h
      next => simp at h
      next msg juliet hc =>
        obtain ⟨_, rfl⟩ := ok_pair h
        exact ⟨[⟨.requestCancellation ioId, msg⟩], rfl, rfl, by simp [hc]⟩
      next juliet hc =>
        obtain ⟨_, rfl⟩ := ok_pair h
        exact ⟨[], by simp, rfl, by simp [hc]⟩
  | response channel id payload =>
    dsimp only at h ⊢
    split at h
    next => simp at h
    next msg juliet hc =>
      obtain ⟨c', hactive, h⟩ := bind_eq_ok.mp h
      obtain ⟨_, rfl⟩ := ok_pair h
      obtain ⟨hh, hw⟩ := markActive_rest hactive
      exact ⟨[⟨.response channel id payload, msg⟩], by simp [pushReady, hh], hw, by simp [hc]⟩
    next juliet hc =>
      obtain ⟨_, rfl⟩ := ok_pair h
      exact ⟨[], by simp, rfl, by simp [hc]⟩
  | responseCancellation channel id =>
    dsimp only at h ⊢
    split at h
    next => simp at h
    next msg juliet hc =>
      obtain ⟨_, rfl⟩ := ok_pair h
      exact ⟨[⟨.responseCancellation channel id, msg⟩], rfl, rfl, by simp [hc]⟩
    next juliet hc =>
      obtain ⟨_, rfl⟩ := ok_pair h
      exact ⟨[], by simp, rfl, by simp [hc]⟩
  | error channel id payload =>
    dsimp only at h
    split at h
    next => simp at h
    next errMsg hc =>
      obtain ⟨c', hinj, h⟩ := bind_eq_ok.mp h
      obtain ⟨_, rfl⟩ := ok_pair h
      obtain ⟨frame, rfl, _⟩ := injectError_cases hinj
      simp [erroring] at hp

/-- The items that have been waiting or been created messages for. -/
def held (self : IoCore N) : Multiset QueuedItem :=
  ∑ j, (self.waitQueue j : Multiset QueuedItem) + (self.history.map Sent.item : List QueuedItem)

/-- A pass over the wait queue of a channel: what leaves it is created a message for, or dropped. -/
structure Drained (i : Fin N) (drops : List QueuedItem) (core core' : IoCore N) : Prop where
  others : ∀ j ≠ i, core'.waitQueue j = core.waitQueue j
  once : ∃ new : List Sent, core'.history = core.history ++ new ∧
    (core.waitQueue i).Perm (core'.waitQueue i ++ (new.map Sent.item ++ drops))

theorem waitLoop_drains {channel : ChannelId} (remaining : Nat) {self : IoCore N}
    (hw : ∀ item ∈ self.waitQueue i, item.waitsOn i) (hp : self.pendingError = none)
    (h : waitLoop channel i remaining self = .ok (.ok (), c)) :
    Drained i (waitLoopDrops channel i remaining self) self c := by
  induction remaining generalizing self with
  | zero =>
    obtain ⟨_, rfl⟩ := ok_pair h
    exact ⟨fun _ _ => rfl, [], by simp, by simp [waitLoopDrops]⟩
  | succ remaining ih =>
    unfold waitLoop at h
    split at h
    next hq =>
      obtain ⟨_, rfl⟩ := ok_pair h
      exact ⟨fun _ _ => rfl, [], by simp, by simp [waitLoopDrops, hq]⟩
    next item rest hq =>
      have hitem := hw item (hq ▸ List.mem_cons_self)
      have hrest : ∀ item' ∈ rest, item'.waitsOn i :=
        fun item' hm => hw item' (hq ▸ List.mem_cons_of_mem item hm)
      obtain ⟨waits, hwaits, h⟩ := bind_eq_ok.mp h
      simp only [waitLoopDrops, hq, hwaits]
      split at h
      next => simp at h
      next channel' =>
        -- the item goes round to the back of the queue
        have hmem : ∀ item' ∈ (self.setWaitQueue i (rest ++ [item])).waitQueue i,
            item'.waitsOn i := by
          intro item' hm
          rw [setWaitQueue_self] at hm
          rcases List.mem_append.mp hm with hm | hm
          · exact hrest item' hm
          · rw [List.mem_singleton.mp hm]
            exact hitem
        simp only [setWaitQueue_self, setWaitQueue_twice] at h ⊢
        have hloop := ih hmem hp h
        obtain ⟨new, hh, hperm⟩ := hloop.once
        rw [setWaitQueue_self] at hperm
        refine ⟨fun j hj => (hloop.others j hj).trans (by simp [setWaitQueue, hj]), new, hh, ?_⟩
        rw [hq]
        exact (List.perm_append_singleton item rest).symm.trans hperm
      next =>
        obtain ⟨⟨r, c'⟩, hsend, h⟩ := bind_eq_ok.mp h
        cases r with
        | error violation => simp at h
        | ok _ =>
          have hp' : c'.pendingError = none :=
            ((sendToReadyQueue_steps hsend).pendingError_eq hitem).trans hp
          obtain ⟨made, hmade, hwq, honce⟩ := sendToReadyQueue_once hsend hp'
          have hqueue : c'.waitQueue i = rest := by rw [hwq, setWaitQueue_self]
          have hother : ∀ j ≠ i, c'.waitQueue j = self.waitQueue j := by
            intro j hj
            rw [hwq]
            simp [setWaitQueue, hj]
          have hstop : Drained i ((self.setWaitQueue i rest).sendDrops item) self c' := by
            refine ⟨hother, made, hmade, ?_⟩
            rw [hq, hqueue, honce]
            exact (List.perm_append_singleton item rest).symm
          simp only [hsend]
          dsimp only at h
          split at h
          next => simp at h
          next hfull =>
            obtain ⟨_, rfl⟩ := ok_pair h
            simp only [hfull]
            exact hstop
          next hfree =>
            simp only [hfree]
            have hloop := ih (by rw [hqueue]; exact hrest) hp' h
            obtain ⟨new, hh, hperm⟩ := hloop.once
            refine ⟨fun j hj => (hloop.others j hj).trans (hother j hj), made ++ new, ?_, ?_⟩
            · rw [hh, hmade, List.append_assoc]
              rfl
            · rw [hqueue] at hperm
              have hall : (item :: rest).Perm
                  ((made.map Sent.item ++ (self.setWaitQueue i rest).sendDrops item) ++
                    (c.waitQueue i ++
                      (new.map Sent.item ++ waitLoopDrops channel i remaining c'))) := by
                rw [honce]
                exact hperm.cons item
              rw [hq]
              refine hall.trans ?_
              rw [List.map_append, ← Multiset.coe_eq_coe]
              simp only [← Multiset.coe_add]
              abel

theorem processWaitQueue_drains {channel : ChannelId} (hi : channel.get.toNat = i)
    (hw : ∀ item ∈ self.waitQueue i, item.waitsOn i) (hp : self.pendingError = none)
    (h : self.processWaitQueue channel = .ok (.ok (), c)) :
    Drained i (self.waitQueueDrops channel) self c := by
  simp only [processWaitQueue, channelIndex_of hi, bind_ok] at h
  simp only [waitQueueDrops, channelIndex_of hi]
  exact waitLoop_drains _ hw hp h

/-- What is held depends on the wait queues and on the items of the history alone. -/
theorem held_congr (hw : c.waitQueue = self.waitQueue) (hh : c.history = self.history) :
    c.held = self.held := by
  rw [held, held, hw, hh]

theorem waiting_of_others (h : ∀ j ≠ i, c.waitQueue j = self.waitQueue j) :
    ∑ j, (c.waitQueue j : Multiset QueuedItem) + self.waitQueue i =
      ∑ j, (self.waitQueue j : Multiset QueuedItem) + c.waitQueue i := by
  have hsum := Finset.add_sum_erase Finset.univ (fun j => (self.waitQueue j : Multiset QueuedItem))
    (Finset.mem_univ i)
  have hsum' := Finset.add_sum_erase Finset.univ (fun j => (c.waitQueue j : Multiset QueuedItem))
    (Finset.mem_univ i)
  have hrest : ∑ j ∈ Finset.univ.erase i, (c.waitQueue j : Multiset QueuedItem) =
      ∑ j ∈ Finset.univ.erase i, (self.waitQueue j : Multiset QueuedItem) := by
    refine Finset.sum_congr rfl ?_
    intro j hj
    rw [h j (Finset.ne_of_mem_erase hj)]
  rw [← hsum, ← hsum', hrest]
  abel

theorem Drained.held {drops : List QueuedItem} (h : Drained i drops self c) :
    c.held + drops = self.held := by
  obtain ⟨new, hh, hperm⟩ := h.once
  have hwait := waiting_of_others h.others
  rw [Multiset.coe_eq_coe.mpr hperm, ← Multiset.coe_add, ← Multiset.coe_add] at hwait
  have hall : ∑ j, (c.waitQueue j : Multiset QueuedItem) +
      ((new.map Sent.item : List QueuedItem) + drops) =
      ∑ j, (self.waitQueue j : Multiset QueuedItem) := by
    refine add_right_cancel (b := (c.waitQueue i : Multiset QueuedItem)) ?_
    rw [← hwait]
    abel
  rw [IoCore.held, IoCore.held, hh, List.map_append, ← Multiset.coe_add, ← hall]
  abel

/-- An item of the local queue waits, is created a message for, or is dropped. -/
theorem handleIncomingItem_held {item : QueuedItem}
    (h : self.handleIncomingItem item = .ok (.ok (), c)) (hp : c.pendingError = none) :
    c.held + self.itemDrops item = self.held + {item} := by
  obtain ⟨waits, hwaits, h⟩ := bind_eq_ok.mp h
  simp only [itemDrops, hwaits]
  split at h
  next => simp at h
  next channel =>
    obtain ⟨i, _, h⟩ := bind_eq_ok.mp h
    obtain ⟨_, rfl⟩ := ok_pair h
    have hothers : ∀ j ≠ i, (self.setWaitQueue i (self.waitQueue i ++ [item])).waitQueue j =
        self.waitQueue j :=
      fun j hj => by simp [setWaitQueue, hj]
    have hwait := waiting_of_others hothers
    rw [setWaitQueue_self, ← Multiset.coe_add] at hwait
    have hone : ∑ j,
        ((self.setWaitQueue i (self.waitQueue i ++ [item])).waitQueue j : Multiset QueuedItem) =
        ∑ j, (self.waitQueue j : Multiset QueuedItem) + {item} := by
      refine add_right_cancel (b := (self.waitQueue i : Multiset QueuedItem)) ?_
      rw [hwait, Multiset.coe_singleton]
      abel
    rw [held, held, hone, show (self.setWaitQueue i (self.waitQueue i ++ [item])).history =
      self.history from rfl, Multiset.coe_nil]
    abel
  next =>
    obtain ⟨new, hh, hw, honce⟩ := sendToReadyQueue_once h hp
    have hitem : ((new.map Sent.item : List QueuedItem) : Multiset QueuedItem) +
        self.sendDrops item = {item} := by
      rw [Multiset.coe_add, honce, Multiset.coe_singleton]
    rw [held, held, hh, hw, List.map_append, ← Multiset.coe_add, ← hitem]
    abel

theorem handleCompletedRead_held (self : IoCore N) (read : CompletedRead) :
    (self.handleCompletedRead read).2.held = self.held := by
  rcases self.handleCompletedRead_core read with he | ⟨key, he⟩
  · rw [he]
  · rw [he]
    rfl

theorem ReadyStep.held (hs : ReadyStep self c) : c.held = self.held :=
  held_congr hs.keeps.1 hs.rest.2.1

theorem ParseStep.held {outcome : Option ReadOutcome} {result : Option (Except CoreError IoEvent)}
    (hs : ParseStep self outcome result c) (hsound : self.Sound) (hp : self.pendingError = none)
    (hp' : c.pendingError = none)
    (hr : ∀ violation, result ≠ some (.error (.localProtocolViolation violation))) :
    c.held + self.parseDrops = self.held := by
  have hnone : ∀ {outcome juliet buffer}, self.juliet.processIncoming self.buffer =
      .ok (outcome, juliet, buffer) →
      (∀ channel id payload, outcome ≠ .success (.receivedResponse channel id payload)) →
        self.parseDrops = [] := by
    intro outcome juliet buffer hin hne
    unfold parseDrops
    split
    next =>
      rw [hin]
      split
      next he =>
        simp only [Except.ok.injEq, Prod.mk.injEq] at he
        exact absurd he.1 (hne _ _ _)
      next => rfl
    next => rfl
  cases hs with
  | skip hlt =>
    have hle : ¬ self.nextParseAt ≤ self.buffer.length := by omega
    simp [parseDrops, hle]
  | incomplete n juliet buffer hin =>
    rw [hnone hin (by simp), Multiset.coe_nil, add_zero]
    rfl
  | fatal errMsg juliet buffer frame _ _ _ => simp [erroring] at hp'
  | event read juliet buffer hin hne =>
    rw [hnone hin (by simpa using hne), Multiset.coe_nil, add_zero, handleCompletedRead_held]
    rfl
  | response channel id payload juliet buffer c hin hq hparse =>
    obtain ⟨i, hi, _⟩ := processWaitQueue_scans hq
    have hwaiting : ∀ item ∈ (self.parsed juliet buffer).waitQueue i, item.waitsOn i :=
      hsound.waiting i
    have hdrained := (processWaitQueue_drains hi hwaiting hp hq).held
    rw [handleCompletedRead_held]
    simp only [parseDrops, hparse, if_true, hin]
    exact hdrained
  | violation channel id payload juliet buffer err c _ _ => exact absurd rfl (hr err)

end IoCore

/-- The items taken from the local queue so far and those of them that have been dropped. -/
structure Ledger where
  taken : List QueuedItem
  dropped : List QueuedItem
  deriving DecidableEq, Repr

namespace IoTask

variable {N : Nat} {t t' : IoTask N}

/-- The items that a step takes from the local queue. -/
def takenBy (t : IoTask N) : IoAct → List QueuedItem
  | .recv | .tryRecv => t.core.receiver.queue.take 1
  | _ => []

/-- The items that a step drops. -/
def droppedBy (t : IoTask N) : IoAct → List QueuedItem
  | .recv | .tryRecv =>
    match t.core.receiver.queue with
    | item :: rest => (t.dequeued rest).itemDrops item
    | [] => []
  | .turn => t.core.parseDrops
  | .write k =>
    match t.core.currentFrame with
    | some current => if k = current.frame.remaining then t.core.sentDrops current else []
    | none => []
  | _ => []

/-- A step together with its entries in the ledger. A panic undoes a step and has none. -/
def recordedStep (s : IoTask N × Ledger) (a : IoAct) : Option (IoTask N × Ledger) :=
  (s.1.step a).map fun t' =>
    if t'.position = .panicked then (t', s.2)
    else (t', ⟨s.2.taken ++ s.1.takenBy a, s.2.dropped ++ s.1.droppedBy a⟩)

/-- No error is injected or returned. -/
def flawless (t : IoTask N) (a : IoAct) : Bool :=
  (t.step a).all fun t' => t'.core.pendingError.isNone &&
    match t'.position with
    | .done (.failed _) => false
    | _ => true

/-- The runs before an error, with what they have taken and dropped. -/
abbrev RecordedReach (builder : ProtocolBuilder N) : IoTask N × Ledger → Prop :=
  Transition.Reach recordedStep (fun s a => flawless s.1 a) (.new builder, ⟨[], []⟩)

/-- Every item taken is in one place, or dropped. -/
def Accounted (t : IoTask N) (l : Ledger) : Prop :=
  (l.taken : Multiset QueuedItem) = t.core.held + l.dropped

theorem Accounted.step {a : IoAct} {l : Ledger} (h : Accounted t l) (he : Emitting t)
    (hs : Step t a t') (hp : t'.core.pendingError = none)
    (hok : ∀ err, t'.position ≠ .done (.failed err)) (hpanic : t'.position ≠ .panicked) :
    Accounted t' ⟨l.taken ++ t.takenBy a, l.dropped ++ t.droppedBy a⟩ := by
  have hmoved : t'.core.held + t.droppedBy a = t.core.held + t.takenBy a →
      Accounted t' ⟨l.taken ++ t.takenBy a, l.dropped ++ t.droppedBy a⟩ := by
    intro hheld
    have hl : (l.taken : Multiset QueuedItem) = t.core.held + l.dropped := h
    show ((l.taken ++ t.takenBy a : List QueuedItem) : Multiset QueuedItem) =
      t'.core.held + (l.dropped ++ t.droppedBy a : List QueuedItem)
    rw [← Multiset.coe_add, ← Multiset.coe_add, hl, add_right_comm, ← hheld]
    abel
  have hquiet : t'.core.held = t.core.held → t.takenBy a = [] → t.droppedBy a = [] →
      Accounted t' ⟨l.taken ++ t.takenBy a, l.dropped ++ t.droppedBy a⟩ := by
    intro hheld htaken hdropped
    apply hmoved
    rw [hheld, htaken, hdropped]
  cases hs with
  | panic _ _ => exact absurd rfl hpanic
  | pending frame data _ herr _ => simp [he.noError] at herr
  | event outcome event core _ _ hparse =>
    apply hmoved
    have hheld := hparse.held he.sound he.noError hp (by simp)
    simpa [takenBy, droppedBy] using hheld
  | failed outcome err core _ _ _ => exact absurd rfl (hok err)
  | selecting outcome core core' _ _ hparse hready =>
    apply hmoved
    have hheld := hparse.held he.sound he.noError (hready.keeps.2.symm.trans hp) (by simp)
    rw [← hready.held] at hheld
    simpa [takenBy, droppedBy] using hheld
  | writeSome current k _ hc _ hk =>
    refine hquiet rfl rfl ?_
    have hne : k ≠ current.frame.remaining := by omega
    simp [droppedBy, hc, hne]
  | writeAll current core position r _ hc _ hsent hpos =>
    subst hpos
    cases hsent with
    | error active _ => exact absurd rfl (hok _)
    | violation i c err _ _ => exact absurd rfl (hok _)
    | scanned i c hi hq =>
      rw [header_advance] at hi
      rw [cleared_currentWritten, header_advance] at hq
      have hwaiting : ∀ item ∈ (t.core.cleared current i).waitQueue i, item.waitsOn i :=
        he.sound.waiting i
      have hdrained := (IoCore.processWaitQueue_drains hi hwaiting he.noError hq).held
      apply hmoved
      simp only [takenBy, droppedBy, hc, if_true, IoCore.sentDrops, IoCore.channelIndex_of hi,
        Multiset.coe_nil, add_zero]
      exact hdrained
  | writeAllPanic current _ _ _ _ => exact absurd rfl hpanic
  | writeSomeError pending data k _ herr _ _ => simp [he.noError] at herr
  | writeAllError pending data _ herr _ => simp [he.noError] at herr
  | writeFailed _ => exact absurd rfl (hok _)
  | readFailed _ => exact absurd rfl (hok _)
  | taken a item rest core ha _ hq hi =>
    apply hmoved
    have hheld := IoCore.handleIncomingItem_held hi hp
    have hsame : IoCore.held (t.dequeued rest) = t.core.held := IoCore.held_congr rfl rfl
    rw [hsame] at hheld
    rcases ha with rfl | rfl <;> simpa [takenBy, droppedBy, hq] using hheld
  | rejected a item rest core violation _ _ _ _ => exact absurd rfl (hok _)
  | recvClosed _ hq _ => exact hquiet rfl (by simp [takenBy, hq]) (by simp [droppedBy, hq])
  | drained _ hq _ => exact hquiet rfl (by simp [takenBy, hq]) (by simp [droppedBy, hq])
  | drainedClosed _ hq ha =>
    rcases ha with ⟨rfl, _⟩ | ⟨rfl, _⟩
    · exact hquiet rfl (by simp [takenBy, hq]) (by simp [droppedBy, hq])
    · exact hquiet rfl rfl rfl
  | timeout data _ => exact absurd rfl (hok _)
  | _ => exact hquiet rfl rfl rfl

theorem droppedBy_mem {a : IoAct} {item : QueuedItem} (h : item ∈ t.droppedBy a) (ioId : IoId) :
    item.isRequest ioId = false := by
  cases a with
  | recv | tryRecv =>
    simp only [droppedBy] at h
    split at h
    next => exact IoCore.itemDrops_mem h ioId
    next => simp at h
  | turn => exact IoCore.parseDrops_mem h ioId
  | write k =>
    simp only [droppedBy] at h
    split at h
    next =>
      split at h
      next => exact IoCore.sentDrops_mem h ioId
      next => simp at h
    next => simp at h
  | _ => simp [droppedBy] at h

/-- A panic leaves what is held alone. -/
theorem Step.held_of_panicked {a : IoAct} (hs : Step t a t') (hp : t'.position = .panicked) :
    t'.core.held = t.core.held := by
  cases hs with
  | event outcome event core htop _ _ => simp [htop] at hp
  | writeAll current core position r _ _ _ _ hpos =>
    subst hpos
    cases r <;> simp at hp
  | failed | selecting | taken | rejected => simp at hp
  | _ => rfl

/-- What carries the account from step to step. -/
structure Recorded (s : IoTask N × Ledger) : Prop where
  emitting : Emitting s.1
  accounted : Accounted s.1 s.2
  responses : ∀ item ∈ s.2.dropped, ∀ ioId, item.isRequest ioId = false

theorem Recorded.step {s s' : IoTask N × Ledger} {a : IoAct} (h : Recorded s)
    (hok : flawless s.1 a = true) (hs : recordedStep s a = some s') : Recorded s' := by
  obtain ⟨t', hstep, rfl⟩ := Option.map_eq_some_iff.mp hs
  have hgood : t'.core.pendingError = none ∧ ∀ err, t'.position ≠ .done (.failed err) := by
    simp only [flawless, hstep, Option.all_some, Bool.and_eq_true, Option.isNone_iff_eq_none] at hok
    refine ⟨hok.1, ?_⟩
    intro err he
    simp [he] at hok
  have hsteps := step_steps hstep
  have hemitting := h.emitting.step hsteps hgood.1
  split
  next hpanic =>
    refine ⟨hemitting, ?_, h.responses⟩
    rw [Accounted, hsteps.held_of_panicked hpanic]
    exact h.accounted
  next hpanic =>
    refine ⟨hemitting, h.accounted.step h.emitting hsteps hgood.1 hgood.2 hpanic, ?_⟩
    intro item hm
    rcases List.mem_append.mp hm with hm | hm
    · exact h.responses item hm
    · exact droppedBy_mem hm

/-- In every run before an error, each item taken from the local queue waits on its channel, is
created one message for, or is dropped since it is not wanted any more, and no request is dropped.
Each message is in flight or completely written, and what is written of it are its first frames, in
order. -/
theorem exactly_once {builder : ProtocolBuilder N} {l : Ledger} (h : RecordedReach builder (t, l)) :
    (l.taken : Multiset QueuedItem) = ∑ i, (t.core.waitQueue i : Multiset QueuedItem) +
      (t.core.history.map Sent.item : List QueuedItem) + l.dropped ∧
    (∀ i : Fin N, ∀ item ∈ t.core.waitQueue i, item.waitsOn i) ∧
    (∀ item ∈ l.dropped, ∀ ioId, item.isRequest ioId = false) ∧
    (∀ k sent, t.core.history[k]? = some sent → sent.Made N ∧
      Xor (k ∈ t.core.flight) (t.completeFrames k = sent.msg.frameList t.core.juliet.maxFrameSize) ∧
      (t.core.readyQueue.map ReadyEntry.serial).count k ≤ 1 ∧
      t.writtenFrames k <+: sent.msg.frameList t.core.juliet.maxFrameSize) ∧
    ∀ (core c : IoCore N) (channel : ChannelId) (i : Fin N), channel.get.toNat = i →
      (∀ item ∈ core.waitQueue i, item.waitsOn i) → core.pendingError = none →
      core.processWaitQueue channel = .ok (.ok (), c) →
      core.Drained i (core.waitQueueDrops channel) c := by
  have hinv : Recorded (t, l) := by
    refine Transition.Reach.invariant h ⟨Emitting.new builder,
      ?_, by simp⟩ fun hr hok hs => hr.step hok hs
    simp [Accounted, IoCore.held, IoTask.new, IoCore.new]
  obtain ⟨hemit, hacc, hresp⟩ := hinv
  refine ⟨hacc, hemit.sound.waiting, hresp, ?_, ?_⟩
  · intro k sent hk
    refine ⟨hemit.sound.made sent (List.mem_of_getElem? hk), ?_,
      List.nodup_iff_count_le_one.mp hemit.lined.once k, hemit.written_isPrefix hk⟩
    have hiff := hemit.complete_iff hk
    by_cases hf : k ∈ t.core.flight
    · exact .inl ⟨hf, fun he => hiff.mp he hf⟩
    · exact .inr ⟨hiff.mpr hf, hf⟩
  · intro core c channel i hi hw hp hq
    exact IoCore.processWaitQueue_drains hi hw hp hq

/-- A request of two frames of which one is sent, one that waits and an answer that nobody asked
for. -/
def mixedSend : List IoAct :=
  [.enqueue (.request ⟨0⟩ ⟨1⟩ (some [1, 2, 3, 4, 5, 6, 7, 8])), .enqueue (.request ⟨0⟩ ⟨2⟩ none),
    .enqueue (.response ⟨0⟩ ⟨7⟩ none), .turn, .recv, .tryRecv, .tryRecv, .tryRecv, .turn,
    .write 10, .turn, .write 2]

theorem exactly_once_mixed :
    ∃ t l, RecordedReach longBuilder (t, l) ∧ l.taken.length = 3 ∧
      l.dropped = [.response ⟨0⟩ ⟨7⟩ none] ∧
      t.core.waitQueue 0 = [.request ⟨0⟩ ⟨2⟩ none] ∧ t.core.flight = [0] ∧
      (t.writtenFrames 0).length = 2 ∧
      (t.completeFrames 0).length = 1 ∧
      (l.taken : Multiset QueuedItem) = ∑ i, (t.core.waitQueue i : Multiset QueuedItem) +
        (t.core.history.map Sent.item : List QueuedItem) + l.dropped := by
  have hrun : (Transition.exec recordedStep (fun s a => flawless s.1 a) mixedSend
      (IoTask.new longBuilder, ⟨[], []⟩)).map (fun s => (s.2.taken.length, s.2.dropped,
        s.1.core.waitQueue 0,
        s.1.core.flight, (s.1.writtenFrames 0).length, (s.1.completeFrames 0).length)) =
      some (3, [.response ⟨0⟩ ⟨7⟩ none], [.request ⟨0⟩ ⟨2⟩ none], [0], 2, 1) := rfl
  obtain ⟨⟨t, l⟩, hs, he⟩ := Option.map_eq_some_iff.mp hrun
  simp only [Prod.mk.injEq] at he
  obtain ⟨htaken, hdropped, hwait, hflight, hwritten, hcomplete⟩ := he
  have hreach : RecordedReach longBuilder (t, l) := Transition.Reach.exec .start hs
  exact ⟨t, l, hreach, htaken, hdropped, hwait, hflight, hwritten, hcomplete,
    (exactly_once hreach).1⟩

end IoTask

end Juliet
