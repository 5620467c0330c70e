import Juliet.WaitQueue
import Juliet.RequestIds

namespace Juliet

open Rust

/-- The ids of the next `n` requests on a channel: `taken` are outstanding, `prev` was the last
one. -/
def upcomingIds (taken : Finset Id) (prev : UInt16) : Nat → List Id
  | 0 => []
  | n + 1 =>
    match Channel.searchId taken (2 ^ 16) ⟨prev + 1⟩ with
    | .ok id => id :: upcomingIds (insert id taken) id.get n
    | .error _ => []

theorem upcomingIds_initial {taken : Finset Id} {prev : UInt16} {k n : Nat} (hk : k ≤ n) :
    upcomingIds taken prev k <+: upcomingIds taken prev n := by
  induction k generalizing taken prev n with
  | zero => exact List.nil_prefix
  | succ k ih =>
    obtain ⟨n, rfl⟩ : ∃ m, n = m + 1 := ⟨n - 1, by omega⟩
    simp only [upcomingIds]
    split
    next => exact List.cons_prefix_cons.mpr ⟨rfl, ih (by omega)⟩
    next => exact List.prefix_rfl

def QueuedItem.asksOn : QueuedItem → Bool
  | .request _ _ _ => true
  | _ => false

namespace Channel

def upcoming (self : Channel) (n : Nat) : List Id :=
  upcomingIds self.outgoingRequests self.prevRequestId n

theorem Generates.upcoming {self : Channel} {id : Id} (h : self.Generates id) (n : Nat) :
    self.upcoming (n + 1) = id :: (self.withRequest id).upcoming n := by
  unfold Generates at h
  simp only [Channel.upcoming, upcomingIds, h]
  rfl

theorem upcoming_congr {self c : Channel} (ho : c.outgoingRequests = self.outgoingRequests)
    (hp : c.prevRequestId = self.prevRequestId) (n : Nat) : c.upcoming n = self.upcoming n := by
  rw [upcoming, upcoming, ho, hp]

end Channel

namespace IoCore

variable {N : Nat} {self c x : IoCore N} {i : Fin N} {ids : List Id}

/-- A request that waits for nothing. -/
def askable (self : IoCore N) (item : QueuedItem) : Bool := item.asksOn && self.sendable item

/-- The requests that can be created when the wait queue of the channel is processed are at most as
many as there are waiting requests that can be sent, and as the channel has capacity for. -/
def newRequests (self : IoCore N) (i : Fin N) : Nat :=
  min ((self.waitQueue i).countP self.askable)
    ((self.juliet.channels i).config.requestLimit.toNat -
      (self.juliet.channels i).outgoingRequests.card)

/-- What processing the wait queue of a channel has done so far: it has created requests with
`ids`. -/
structure Grown (i : Fin N) (ids : List Id) (before after : IoCore N) : Prop where
  config : (after.juliet.channels i).config = (before.juliet.channels i).config
  maxFrameSize : after.juliet.maxFrameSize = before.juliet.maxFrameSize
  active : (before.activeMultiFrame i).isSome = true → (after.activeMultiFrame i).isSome = true
  outgoing : ∀ id, id ∈ (after.juliet.channels i).outgoingRequests ↔
    id ∈ (before.juliet.channels i).outgoingRequests ∨ id ∈ ids
  card : (after.juliet.channels i).outgoingRequests.card =
    (before.juliet.channels i).outgoingRequests.card + ids.length
  upcoming : ∀ n, (before.juliet.channels i).upcoming (ids.length + n) =
    ids ++ (after.juliet.channels i).upcoming n
  waiting : ids.length + (after.waitQueue i).countP before.askable ≤
    (before.waitQueue i).countP before.askable

namespace Grown

theorem refl (self : IoCore N) (i : Fin N) : Grown i [] self self where
  config := rfl
  maxFrameSize := rfl
  active := fun h => h
  outgoing := by simp
  card := rfl
  upcoming := by simp
  waiting := by simp

/-- What can be sent later can be sent now. -/
theorem askable {item : QueuedItem} (h : Grown i ids self x) (hw : item.waitsOn i)
    (ha : x.askable item = true) :
    self.askable item = true := by
  obtain ⟨hreq, hsend⟩ := Bool.and_eq_true_iff.mp ha
  rcases QueuedItem.waitsOn_cases hw with ⟨channel, ioId, payload, rfl, hi⟩ | ⟨channel,
    id, payload, rfl, hi⟩
  · refine Bool.and_eq_true_iff.mpr ⟨rfl, sendable_iff.mpr ?_⟩
    have hnone := sendable_iff.mp hsend
    rw [itemShouldWait_request hi] at hnone ⊢
    have hcard := h.card
    have hallowed : (x.juliet.channels i).allowedToSendRequest = true →
        (self.juliet.channels i).allowedToSendRequest = true := by
      simp only [Channel.allowedToSendRequest, h.config, decide_eq_true_eq]
      omega
    rw [h.maxFrameSize] at hnone
    simp only [Except.ok.injEq] at hnone ⊢
    split at hnone
    next hx =>
      rw [if_pos (hallowed hx)]
      split at hnone
      next => simp at hnone
      next hidle => rw [if_neg (fun hbusy => hidle ⟨h.active hbusy.1, hbusy.2⟩)]
    next => simp at hnone
  · simp [QueuedItem.asksOn] at hreq

/-- A step that leaves the requests of the channel alone. -/
theorem congr (h : Grown i ids self x)
    (hconfig : (c.juliet.channels i).config = (x.juliet.channels i).config)
    (hm : c.juliet.maxFrameSize = x.juliet.maxFrameSize)
    (hactive : (x.activeMultiFrame i).isSome = true → (c.activeMultiFrame i).isSome = true)
    (ho : (c.juliet.channels i).outgoingRequests = (x.juliet.channels i).outgoingRequests)
    (hp : (c.juliet.channels i).prevRequestId = (x.juliet.channels i).prevRequestId)
    (hq : (c.waitQueue i).countP self.askable ≤ (x.waitQueue i).countP self.askable) :
    Grown i ids self c where
  config := hconfig.trans h.config
  maxFrameSize := hm.trans h.maxFrameSize
  active := fun ha => hactive (h.active ha)
  outgoing := by
    rw [ho]
    exact h.outgoing
  card := by
    rw [ho]
    exact h.card
  upcoming := by
    intro n
    rw [Channel.upcoming_congr ho hp]
    exact h.upcoming n
  waiting := (Nat.add_le_add_left hq _).trans h.waiting

theorem withRequest {item : QueuedItem} {rest : List QueuedItem} {msg : OutgoingMessage} {id : Id}
    {requestMap : BiMap IoId (ChannelId × Id)} (h : Grown i ids self x)
    (hq : x.waitQueue i = item :: rest) (ha : self.askable item = true)
    (hid : (x.juliet.channels i).Generates id) :
    Grown i (ids ++ [id]) self ((x.setWaitQueue i rest).created i item msg
      (x.juliet.setChannel i ((x.juliet.channels i).withRequest id)) requestMap) where
  config := by simpa [Channel.withRequest] using h.config
  maxFrameSize := by
    rw [created_juliet]
    exact h.maxFrameSize
  active := by
    intro hs
    rw [created_active]
    split
    next => simp
    next => exact h.active hs
  outgoing := by
    intro id'
    have := h.outgoing id'
    rw [created_juliet, JulietProtocol.setChannel_self, Channel.withRequest, Finset.mem_insert,
      this, List.mem_append, List.mem_singleton]
    tauto
  card := by
    rw [created_juliet, JulietProtocol.setChannel_self, Channel.withRequest,
      Finset.card_insert_of_notMem hid.free, h.card, List.length_append,
      List.length_singleton, Nat.add_assoc]
  upcoming := by
    intro n
    have hnext := h.upcoming (n + 1)
    rw [hid.upcoming n] at hnext
    rw [created_juliet, JulietProtocol.setChannel_self, List.length_append,
      List.length_singleton, List.append_assoc, List.singleton_append, ← hnext]
    congr 1
    omega
  waiting := by
    have hle := h.waiting
    rw [hq, List.countP_cons_of_pos ha] at hle
    rw [created_waitQueue, setWaitQueue_self, List.length_append, List.length_singleton]
    omega

theorem sendStep {item : QueuedItem} {rest : List QueuedItem}
    {r : Except LocalProtocolViolation Unit} (h : Grown i ids self x)
    (hq : x.waitQueue i = item :: rest) (hw : item.waitsOn i) (ha : x.sendable item = true)
    (hs : SendStep (x.setWaitQueue i rest) item r c) : ∃ ids', Grown i ids' self c := by
  have hrest : rest.countP self.askable ≤ (x.waitQueue i).countP self.askable := by
    rw [hq, List.countP_cons]
    exact Nat.le_add_right _ _
  have hset : Grown i ids self (x.setWaitQueue i rest) := by
    refine h.congr rfl rfl (fun ha => ha) rfl rfl ?_
    rwa [setWaitQueue_self]
  have hanswered : ∀ id, ((x.juliet.answered i id).channels i).config =
      (x.juliet.channels i).config ∧
      ((x.juliet.answered i id).channels i).prevRequestId =
        (x.juliet.channels i).prevRequestId := by
    intro id
    simp [JulietProtocol.answered]
  cases hs with
  | request channel ioId payload j id hj _ _ hid =>
    have he : j = i := Fin.ext (hj.symm.trans hw)
    subst he
    exact ⟨ids ++ [id],
      h.withRequest hq (h.askable hw (by simpa [IoCore.askable, QueuedItem.asksOn] using ha)) hid⟩
  | response channel id payload j hj _ _ =>
    have he : j = i := Fin.ext (hj.symm.trans hw)
    subst he
    refine ⟨ids, hset.congr ?_ ?_ ?_ ?_ ?_ ?_⟩
    · rw [created_juliet]
      exact (hanswered id).1
    · rw [created_juliet]
      rfl
    · intro hsome
      rw [created_active]
      split
      next => simp
      next => exact hsome
    · rw [created_juliet, JulietProtocol.answered_outgoing]
    · rw [created_juliet]
      exact (hanswered id).2
    · rw [created_waitQueue]
  | oversized channel id payload j _ hj _ _ =>
    have he : j = i := Fin.ext (hj.symm.trans hw)
    subst he
    exact ⟨ids,
      hset.congr (hanswered id).1 rfl (fun ha => ha) (JulietProtocol.answered_outgoing _ _ _ _)
      (hanswered id).2 le_rfl⟩
  | late _ _ _ => exact ⟨ids, hset⟩
  | refused _ _ => exact ⟨ids, hset⟩
  | _ => exact hw.elim

theorem scanStep (h : Grown i ids self x) (hsound : x.Sound) (hs : ScanStep i x c) :
    ∃ ids', Grown i ids' self c := by
  cases hs with
  | rotate item rest channel hq _ =>
    refine ⟨ids, h.congr rfl rfl (fun ha => ha) rfl rfl ?_⟩
    rw [setWaitQueue_self, hq]
    exact (List.perm_append_singleton item rest).countP_eq _ |>.le
  | promote item rest r c hq hw hs =>
    exact h.sendStep hq (hsound.waiting i item (hq ▸ List.mem_cons_self)) (sendable_iff.mpr hw) hs
  | lose item rest hq =>
    refine ⟨ids, h.congr rfl rfl (fun ha => ha) rfl rfl ?_⟩
    rw [setWaitQueue_self, hq, List.countP_cons]
    exact Nat.le_add_right _ _

theorem scans (hsound : self.Sound) (hs : Relation.ReflTransGen (ScanStep i) self c) :
    ∃ ids, Grown i ids self c := by
  have hall : (∃ ids, Grown i ids self c) ∧ c.Sound := by
    induction hs with
    | refl => exact ⟨⟨[], refl self i⟩, hsound⟩
    | tail _ hstep ih =>
      obtain ⟨⟨ids, hg⟩, hx⟩ := ih
      exact ⟨hg.scanStep hx hstep, hx.scanStep hstep⟩
  exact hall.1

end Grown

/-- The ids that processing the wait queue hands out are among the upcoming ones. -/
theorem processWaitQueue_outgoing {channel : ChannelId} {id : Id}
    {r : Except LocalProtocolViolation Unit} (hi : channel.get.toNat = i) (hsound : self.Sound)
    (h : self.processWaitQueue channel = .ok (r, c))
    (hid : id ∈ (c.juliet.channels i).outgoingRequests) :
    id ∈ (self.juliet.channels i).outgoingRequests ∨
    id ∈ (self.juliet.channels i).upcoming (self.newRequests i) := by
  obtain ⟨j, hj, hs⟩ := processWaitQueue_scans h
  have he : j = i := Fin.ext (hj.symm.trans hi)
  subst he
  obtain ⟨ids, hg⟩ := Grown.scans hsound hs
  refine ((hg.outgoing id).mp hid).imp_right fun hmem => ?_
  have hlimit := ((hsound.scans hs).valid j).outgoing_le
  have hcard := hg.card
  have hwaiting := hg.waiting
  rw [hg.config] at hlimit
  have hle : ids.length ≤ self.newRequests j := by
    unfold newRequests
    omega
  have hids : (self.juliet.channels j).upcoming ids.length = ids := by
    simpa [Channel.upcoming, upcomingIds] using hg.upcoming 0
  have hupcoming : id ∈ (self.juliet.channels j).upcoming ids.length := by rwa [hids]
  exact (upcomingIds_initial hle).subset hupcoming

end IoCore

end Juliet
