import Juliet.Answers
import Juliet.PendingError

namespace Juliet

open Rust

section ItemShouldWait

variable {N : Nat} {juliet : JulietProtocol N} {active : Fin N → Option Header}
  {channel : ChannelId} {i : Fin N}

theorem waitsForTransfer_of {m : MaxFrameSize} (hi : channel.get.toNat = i)
    (payload : Option Bytes) :
    waitsForTransfer m active channel payload =
      .ok (if (active i).isSome ∧
        payload.any (fun payload => payloadIsMultiFrame m payload.length) then some channel
        else none) := by
  simp only [waitsForTransfer, IoCore.channelIndex_of hi, bind_ok]
  split <;> rfl

theorem itemShouldWait_request (hi : channel.get.toNat = i) (ioId : IoId) (payload : Option Bytes) :
    itemShouldWait (.request channel ioId payload) juliet active =
      .ok (.ok (if (juliet.channels i).allowedToSendRequest then
        if (active i).isSome ∧ payload.any (fun payload =>
          payloadIsMultiFrame juliet.maxFrameSize payload.length) then
          some channel else none
        else some channel)) := by
  simp only [itemShouldWait, JulietProtocol.allowedToSendRequest,
    JulietProtocol.lookupChannel_of hi, Except.map]
  cases (juliet.channels i).allowedToSendRequest with
  | false => rfl
  | true =>
    simp only [waitsForTransfer_of hi, bind_ok, if_true]
    rfl

theorem itemShouldWait_response (hi : channel.get.toNat = i) (id : Id) (payload : Option Bytes) :
    itemShouldWait (.response channel id payload) juliet active =
      .ok (.ok (if (active i).isSome ∧
        payload.any (fun payload => payloadIsMultiFrame juliet.maxFrameSize payload.length) then
          some channel
        else none)) := by
  simp only [itemShouldWait, waitsForTransfer_of hi, bind_ok]
  rfl

theorem QueuedItem.waitsOn_cases {item : QueuedItem} {j : Nat} (h : item.waitsOn j) :
    (∃ channel ioId payload, item = .request channel ioId payload ∧ channel.get.toNat = j) ∨
      ∃ channel id payload, item = .response channel id payload ∧ channel.get.toNat = j := by
  cases item with
  | request channel ioId payload => exact .inl ⟨channel, ioId, payload, rfl, h⟩
  | response channel id payload => exact .inr ⟨channel, id, payload, rfl, h⟩
  | _ => exact h.elim

/-- Whether a waiting item waits is decided, without a violation. -/
theorem itemShouldWait_of_waitsOn {item : QueuedItem} (juliet : JulietProtocol N)
    (active : Fin N → Option Header) (h : item.waitsOn i) :
    ∃ waits, itemShouldWait item juliet active = .ok (.ok waits) := by
  rcases QueuedItem.waitsOn_cases h with ⟨channel, ioId, payload, rfl, hi⟩ | ⟨channel,
    id, payload, rfl, hi⟩
  · exact ⟨_, itemShouldWait_request hi ioId payload⟩
  · exact ⟨_, itemShouldWait_response hi id payload⟩

end ItemShouldWait

namespace IoCore

variable {N : Nat} {self c : IoCore N} {i : Fin N}

/-- Whether an item need not wait. -/
def sendable (self : IoCore N) (item : QueuedItem) : Bool :=
  match itemShouldWait item self.juliet self.activeMultiFrame with
  | .ok (.ok none) => true
  | _ => false

/-- Whether a frame of the channel is still to be sent. -/
def inFlight (self : IoCore N) (i : Nat) : Bool :=
  self.readyQueue.any (fun entry => entry.frames.header.channel.get.toNat = i) ||
    self.currentFrame.any (fun current => current.frame.header.channel.get.toNat = i)

/-- Of the items that wait on a channel the first that can be sent is an answer that is not wanted
any more, and others behind it can be sent although no request can. -/
def stuckOn (self : IoCore N) (i : Fin N) (queue : List QueuedItem) : Bool :=
  !(self.juliet.channels i).allowedToSendRequest &&
    match queue.filter self.sendable with
    | .response _ id _ :: _ :: _ => id ∉ (self.juliet.channels i).incomingRequests
    | _ => false

/-- Behind every item that waits for nothing there is a frame that brings the wait queue up
again. -/
def CoversAt (self : IoCore N) (i : Fin N) : Prop :=
  ∀ item ∈ self.waitQueue i, self.sendable item = true → self.inFlight i = true

theorem sendable_iff {item : QueuedItem} :
    self.sendable item = true ↔ itemShouldWait item self.juliet self.activeMultiFrame =
      .ok (.ok none) := by
  unfold sendable
  split
  next h => simp [h]
  next h =>
    simp only [Bool.false_eq_true, false_iff]
    exact h

theorem sendable_congr {item : QueuedItem} (hw : item.waitsOn i)
    (ho : (c.juliet.channels i).outgoingRequests = (self.juliet.channels i).outgoingRequests)
    (hc : (c.juliet.channels i).config = (self.juliet.channels i).config)
    (hm : c.juliet.maxFrameSize = self.juliet.maxFrameSize)
    (ha : c.activeMultiFrame i = self.activeMultiFrame i) :
    c.sendable item = self.sendable item := by
  have hallowed : (c.juliet.channels i).allowedToSendRequest =
      (self.juliet.channels i).allowedToSendRequest := by
    simp only [Channel.allowedToSendRequest, ho, hc]
  unfold sendable
  rcases QueuedItem.waitsOn_cases hw with ⟨channel, ioId, payload, rfl, hi⟩ | ⟨channel,
    id, payload, rfl, hi⟩
  · rw [itemShouldWait_request hi, itemShouldWait_request hi, hallowed, hm, ha]
  · rw [itemShouldWait_response hi, itemShouldWait_response hi, hm, ha]

theorem inFlight_of_ready {entry : ReadyEntry} (h : entry ∈ self.readyQueue) :
    self.inFlight entry.frames.header.channel.get.toNat = true := by
  simp only [inFlight, Bool.or_eq_true, List.any_eq_true, decide_eq_true_eq]
  exact .inl ⟨entry, h, rfl⟩

theorem created_inFlight {item : QueuedItem} {msg : OutgoingMessage} {juliet : JulietProtocol N}
    {requestMap : BiMap IoId (ChannelId × Id)} (hi : msg.header.channel.get.toNat = i) :
    (self.created i item msg juliet requestMap).inFlight i = true := by
  have hmem : (⟨self.history.length, msg.frames⟩ : ReadyEntry) ∈
      (self.created i item msg juliet requestMap).readyQueue := by simp
  have := inFlight_of_ready hmem
  rwa [show (ReadyEntry.mk self.history.length msg.frames).frames.header.channel.get.toNat =
    i from hi] at this

theorem created_inFlight_of {item : QueuedItem} {msg : OutgoingMessage} {juliet : JulietProtocol N}
    {requestMap : BiMap IoId (ChannelId × Id)} {j : Nat} (h : self.inFlight j = true) :
    (self.created i item msg juliet requestMap).inFlight j = true := by
  unfold inFlight at *
  rw [created_readyQueue, created_currentFrame, List.any_append]
  simp only [Bool.or_eq_true] at *
  exact h.imp .inl id

/-- Creating a message for one channel leaves the others covered. -/
theorem CoversAt.created {j : Fin N} {item : QueuedItem} {msg : OutgoingMessage}
    {juliet : JulietProtocol N} {requestMap : BiMap IoId (ChannelId × Id)} (h : self.CoversAt j)
    (hs : self.Sound) (hj : j ≠ i) (hch : juliet.channels j = self.juliet.channels j)
    (hm : juliet.maxFrameSize = self.juliet.maxFrameSize) :
    (self.created i item msg juliet requestMap).CoversAt j := by
  intro item' hmem hsend
  rw [created_waitQueue] at hmem
  apply created_inFlight_of
  apply h item' hmem
  rw [← hsend]
  symm
  apply sendable_congr (hs.waiting j item' hmem)
  · rw [created_juliet, hch]
  · rw [created_juliet, hch]
  · rw [created_juliet, hm]
  · rw [created_active]
    split
    next => rw [Function.update_of_ne hj]
    next => rfl

/-- A core with one more message on a channel. -/
structure Extends (i : Fin N) (core core' : IoCore N) : Prop where
  here : core'.inFlight i = true
  mono : ∀ j : Nat, core.inFlight j = true → core'.inFlight j = true
  waitQueue : core'.waitQueue = core.waitQueue
  others : ∀ j ≠ i, core.CoversAt j → core'.CoversAt j

theorem Extends.created {item : QueuedItem} {msg : OutgoingMessage} {juliet : JulietProtocol N}
    {requestMap : BiMap IoId (ChannelId × Id)} (hs : self.Sound)
    (hi : msg.header.channel.get.toNat = i)
    (hch : ∀ j ≠ i, juliet.channels j = self.juliet.channels j)
    (hm : juliet.maxFrameSize = self.juliet.maxFrameSize) :
    Extends i self (self.created i item msg juliet requestMap) where
  here := created_inFlight hi
  mono := fun _ h => created_inFlight_of h
  waitQueue := created_waitQueue i item msg juliet requestMap
  others := fun j hj h => h.created hs hj (hch j hj) hm

/-- Sending an item puts a message on one channel, or does nothing, or injects an error. -/
theorem SendStep.covers {item : QueuedItem} {r : Except LocalProtocolViolation Unit}
    (hs : SendStep self item r c) (hsound : self.Sound) (hr : r = .ok ())
    (hp : c.pendingError = none) :
    (∃ i : Fin N, Extends i self c ∧ ∀ j : Nat, item.waitsOn j → j = i) ∨
      c = self ∧ ∀ j : Fin N, item.waitsOn j → ∃ channel id payload, item =
        .response channel id payload ∧
        id ∉ (self.juliet.channels j).incomingRequests := by
  cases hs with
  | request channel ioId payload i id hi _ _ _ =>
    refine .inl ⟨i,
      .created hsound (by simpa [Channel.requestMessage, OutgoingMessage.new] using hi) ?_ rfl, ?_⟩
    · intro j hj
      exact JulietProtocol.setChannel_of_ne _ hj _
    · exact fun j hj => hj.symm.trans hi
  | cancel ioId channel i id hi _ _ =>
    exact .inl ⟨i,
      .created hsound (by simpa [createUncheckedRequestCancellation, OutgoingMessage.new] using hi)
      (fun _ _ => rfl) rfl, fun j hj => hj.elim⟩
  | response channel id payload i hi _ _ =>
    refine .inl ⟨i, .created hsound ?_ ?_ rfl, ?_⟩
    · cases payload <;> simpa [createUncheckedResponse, OutgoingMessage.new] using hi
    · intro j hj
      exact JulietProtocol.setChannel_of_ne _ hj _
    · exact fun j hj => hj.symm.trans hi
  | responseCancellation channel id i hi _ =>
    refine .inl ⟨i, .created hsound (by simpa [createUncheckedResponseCancellation,
      OutgoingMessage.new] using hi) ?_ rfl, fun j hj => hj.elim⟩
    intro j hj
    exact JulietProtocol.setChannel_of_ne _ hj _
  | late _ hreq hresp =>
    refine .inr ⟨rfl, ?_⟩
    intro j hw
    rcases QueuedItem.waitsOn_cases hw with ⟨channel, ioId, payload, he, _⟩ | ⟨channel,
      id, payload, he, hj⟩
    · exact absurd he (hreq channel ioId payload)
    · exact ⟨channel, id, payload, he, hresp channel id payload he j hj⟩
  | refused _ _ => simp at hr
  | oversized _ _ _ _ _ _ _ _ => simp at hr
  | error _ _ _ frame _ _ => simp [erroring] at hp

@[simp]
theorem setWaitQueue_sendable (self : IoCore N) (i : Fin N) (queue : List QueuedItem) :
    (self.setWaitQueue i queue).sendable = self.sendable := rfl

@[simp]
theorem setWaitQueue_inFlight (self : IoCore N) (i : Fin N) (queue : List QueuedItem) :
    (self.setWaitQueue i queue).inFlight = self.inFlight := rfl

@[simp]
theorem setWaitQueue_self (self : IoCore N) (i : Fin N) (queue : List QueuedItem) :
    (self.setWaitQueue i queue).waitQueue i = queue := by
  simp [setWaitQueue]

@[simp]
theorem setWaitQueue_twice (self : IoCore N) (i : Fin N) (queue queue' : List QueuedItem) :
    (self.setWaitQueue i queue).setWaitQueue i queue' = self.setWaitQueue i queue' := by
  simp [setWaitQueue]

theorem CoversAt.setWaitQueue {j : Fin N} (h : self.CoversAt j) (hj : j ≠ i)
    (queue : List QueuedItem) :
    (self.setWaitQueue i queue).CoversAt j := by
  intro item hm
  simp only [IoCore.setWaitQueue, Function.update_of_ne hj] at hm
  exact h item hm

/-- A channel with nothing in flight is covered when none of its items can be sent. -/
theorem covers_of_here (hothers : ∀ j ≠ i, self.CoversAt j)
    (hhere : self.inFlight i = true ∨ ∀ item ∈ self.waitQueue i, self.sendable item = false) :
    ∀ j, self.CoversAt j := by
  intro j
  by_cases hj : j = i
  · subst hj
    intro item hm hsend
    rcases hhere with hflight | hwaiting
    · exact hflight
    · rw [hwaiting item hm] at hsend
      simp at hsend
  · exact hothers j hj

/-- Dropping an answer that is not wanted strands nothing unless the channel is stuck. -/
theorem unsendable_of_not_stuck {channel : ChannelId} {id : Id} {payload : Option Bytes}
    {queue : List QueuedItem}
    (hstuck : self.stuckOn i (.response channel id payload :: queue) = false)
    (hsend : self.sendable (.response channel id payload) = true)
    (hlate : id ∉ (self.juliet.channels i).incomingRequests)
    (hfull : (self.juliet.channels i).allowedToSendRequest = false) :
    ∀ item ∈ queue, self.sendable item = false := by
  simp only [stuckOn, hfull, List.filter_cons, hsend, if_true, Bool.not_false,
    Bool.true_and] at hstuck
  have hnil : queue.filter self.sendable = [] := by
    cases hf : queue.filter self.sendable with
    | nil => rfl
    | cons item rest => simp [hf, hlate] at hstuck
  intro item hm
  have := List.filter_eq_nil_iff.mp hnil item hm
  simpa using this

/-- A pass over the wait queue leaves no item behind that waits for nothing, unless a frame of the
channel is in flight. The items in front have not been looked at, those behind wait. -/
theorem waitLoop_covers {channel : ChannelId} (hi : channel.get.toNat = i) (visit : List QueuedItem)
    {self : IoCore N} {settled : List QueuedItem} (hs : self.Sound) (hp : self.pendingError = none)
    (hq : self.waitQueue i = visit ++ settled) (hothers : ∀ j ≠ i, self.CoversAt j)
    (hcover : self.inFlight i = true ∨
      (∀ item ∈ settled, self.sendable item = false) ∧ self.stuckOn i visit = false)
    (h : waitLoop channel i visit.length self = .ok (.ok (), c)) : ∀ j, c.CoversAt j := by
  induction visit generalizing self settled with
  | nil =>
    obtain ⟨_, rfl⟩ := ok_pair h
    refine covers_of_here hothers (hcover.imp_right ?_)
    rintro ⟨hsettled, _⟩
    rw [hq]
    exact hsettled
  | cons item visit ih =>
    have hq' : self.waitQueue i = item :: (visit ++ settled) := hq
    have hw : item.waitsOn i := hs.waiting i item (by simp [hq'])
    simp only [List.length_cons, waitLoop, hq'] at h
    obtain ⟨waits, hwaits, h⟩ := bind_eq_ok.mp h
    simp only [setWaitQueue_juliet, setWaitQueue_active] at hwaits
    have hrest : ∀ item' ∈ visit ++ settled, item'.waitsOn i := by
      intro item' hm
      exact hs.waiting i item' (hq' ▸ List.mem_cons_of_mem item hm)
    split at h
    next => simp at h
    next ch =>
      -- the item waits on at the back of the queue
      have hblocked : self.sendable item = false := by simp [sendable, hwaits]
      simp only [setWaitQueue_self, setWaitQueue_twice, List.append_assoc] at h
      refine ih (hs.setWaitQueue ?_) hp (setWaitQueue_self _ _ _)
        (fun j hj => (hothers j hj).setWaitQueue hj _) ?_ h
      · intro item' hm
        rw [← List.append_assoc, List.mem_append, List.mem_singleton] at hm
        rcases hm with hm | rfl
        · exact hrest item' hm
        · exact hw
      · rcases hcover with hcover | ⟨hsettled, hstuck⟩
        · exact .inl hcover
        · refine .inr ⟨?_, ?_⟩
          · intro item' hm
            rw [List.mem_append, List.mem_singleton] at hm
            rcases hm with hm | rfl
            · exact hsettled item' hm
            · exact hblocked
          · simp only [stuckOn, List.filter_cons, hblocked, Bool.false_eq_true, if_false] at hstuck
            exact hstuck
    next =>
      have hsend : self.sendable item = true := sendable_iff.mpr hwaits
      obtain ⟨⟨r, c'⟩, hready, hloop⟩ := bind_eq_ok.mp h
      have hstep := sendToReadyQueue_steps hready
      have hs₁ := hs.setWaitQueue hrest
      have hs' := hs₁.sendStep hstep
      have hp' : c'.pendingError = none := (hstep.pendingError_eq hw).trans hp
      have hothers₁ : ∀ j ≠ i, (self.setWaitQueue i (visit ++ settled)).CoversAt j :=
        fun j hj => (hothers j hj).setWaitQueue hj _
      cases r with
      | error err => simp at hloop
      | ok _ =>
        simp only [JulietProtocol.allowedToSendRequest, JulietProtocol.lookupChannel_of hi,
          Except.map] at hloop
        rcases hstep.covers hs₁ rfl hp' with ⟨i', hext, hi'⟩ | ⟨rfl, hlate⟩
        · -- a frame of the channel is in flight from here on
          have he : i' = i := Fin.ext (hi' i hw).symm
          subst he
          have hothers' : ∀ j ≠ i', c'.CoversAt j := fun j hj => hext.others j hj (hothers₁ j hj)
          split at hloop
          next he => simp at he
          next he =>
            obtain ⟨_, rfl⟩ := ok_pair hloop
            exact covers_of_here hothers' (.inl hext.here)
          next he =>
            have hqueue : c'.waitQueue i' = visit ++ settled := by
              rw [hext.waitQueue, setWaitQueue_self]
            exact ih hs' hp' hqueue hothers' (.inl hext.here) hloop
        · -- the answer is not wanted any more
          obtain ⟨ch, id, payload, rfl, hid⟩ := hlate i hw
          split at hloop
          next he => simp at he
          next he =>
            obtain ⟨_, rfl⟩ := ok_pair hloop
            refine covers_of_here hothers₁ (hcover.imp_right ?_)
            rintro ⟨hsettled, hstuck⟩ item' hm
            rw [setWaitQueue_self, List.mem_append] at hm
            rcases hm with hm | hm
            · exact unsendable_of_not_stuck hstuck hsend hid (Except.ok.inj he) item' hm
            · exact hsettled item' hm
          next he =>
            refine ih hs' hp' (setWaitQueue_self _ _ _) hothers₁
              (hcover.imp_right fun hc => ⟨hc.1, ?_⟩) hloop
            have hfree : (self.juliet.channels i).allowedToSendRequest = true := Except.ok.inj he
            simp [stuckOn, hfree]

/-- Processing the wait queue of a channel that is not stuck. -/
theorem processWaitQueue_covers {channel : ChannelId} (hi : channel.get.toNat = i) (hs : self.Sound)
    (hp : self.pendingError = none) (hothers : ∀ j ≠ i, self.CoversAt j)
    (hcover : self.inFlight i = true ∨ self.stuckOn i (self.waitQueue i) = false)
    (h : self.processWaitQueue channel = .ok (.ok (), c)) : ∀ j, c.CoversAt j := by
  simp only [processWaitQueue, channelIndex_of hi, bind_ok] at h
  exact waitLoop_covers hi (self.waitQueue i) hs hp (List.append_nil _).symm hothers
    (hcover.imp_right fun hstuck => ⟨by simp, hstuck⟩) h

end IoCore

end Juliet
