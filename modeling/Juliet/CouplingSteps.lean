import Juliet.Supply

namespace Juliet

open Rust

namespace IoCore

variable {N : Nat} {self c : IoCore N} {i : Fin N} {builder : ProtocolBuilder N} {peer : Side N}
  {reads : List CompletedRead} {ab ba : List FrameIter} {pipe : Bytes}
  {enqueued hand : List QueuedItem} {unanswered : Fin N → Finset Id} {item : QueuedItem}

/-- What holds of a core between two steps, and while it has an item in hand within one. -/
def Serves (builder : ProtocolBuilder N) (peer : Side N) (reads : List CompletedRead)
    (ab ba : List FrameIter) (pipe : Bytes) (enqueued : List QueuedItem)
    (unanswered : Fin N → Finset Id) (hand : List QueuedItem) (core : IoCore N) : Prop :=
  ∃ reported, Coupled builder peer reads ab ba pipe reported core ∧
    Supplied builder enqueued unanswered reported hand core

/-- What sending an item to the ready queue leaves alone. -/
theorem SendStep.supply {r : Except LocalProtocolViolation Unit} (hs : SendStep self item r c)
    (hw : item.Within builder) : c.receiver = self.receiver ∧ c.waitQueue = self.waitQueue ∧
      (c.history.map Sent.item = self.history.map Sent.item ∨
        c.history.map Sent.item = self.history.map Sent.item ++ [item]) := by
  cases hs with
  | error _ _ _ _ _ _ => exact hw.elim
  | late _ _ _ | refused _ _ | oversized _ _ _ _ _ _ _ _ => exact ⟨rfl, rfl, .inl rfl⟩
  | _ => exact ⟨by simp, by simp, .inr (by simp)⟩

namespace Serves

theorem send {r : Except LocalProtocolViolation Unit}
    (h : Serves builder peer reads ab ba pipe enqueued unanswered [item] self)
    (hs : SendStep self item r c)
    (hw : itemShouldWait item self.juliet self.activeMultiFrame = .ok (.ok none)) :
    Serves builder peer reads ab ba pipe enqueued unanswered [] c := by
  obtain ⟨reported, hc, hsup⟩ := h
  have hwithin := hsup.mem_enqueued
  obtain ⟨reported', hc', hle⟩ := hc.sendStep hs hw hwithin hsup.mem_reported
  obtain ⟨hr, hwq, hh⟩ := hs.supply hwithin
  exact ⟨reported', hc', hsup.gone (by rw [hr]) hwq hh hle⟩

/-- An item that is refused is dropped. -/
theorem refuse (h : Serves builder peer reads ab ba pipe enqueued unanswered [item] self) :
    Serves builder peer reads ab ba pipe enqueued unanswered [] self := by
  obtain ⟨reported, hc, hsup⟩ := h
  exact ⟨reported, hc, hsup.gone rfl rfl (.inl rfl) fun j => Multiset.le_add_left _ _⟩

theorem wait (h : Serves builder peer reads ab ba pipe enqueued unanswered [item] self)
    (hw : item.waitsOn i) :
    Serves builder peer reads ab ba pipe enqueued unanswered []
      (self.setWaitQueue i (self.waitQueue i ++ [item])) := by
  obtain ⟨reported, hc, hsup⟩ := h
  have hsound : (self.setWaitQueue i (self.waitQueue i ++ [item])).Sound := by
    refine hc.tidy.sound.setWaitQueue ?_
    intro item' hin
    rcases List.mem_append.mp hin with hin | hin
    · exact hc.tidy.sound.waiting i item' hin
    · rw [List.mem_singleton.mp hin]
      exact hw
  exact ⟨reported, hc.idle hsound rfl rfl rfl rfl rfl rfl rfl, hsup.wait⟩

theorem unwait {rest : List QueuedItem}
    (h : Serves builder peer reads ab ba pipe enqueued unanswered [] self)
    (hq : self.waitQueue i = item :: rest) :
    Serves builder peer reads ab ba pipe enqueued unanswered [item] (self.setWaitQueue i rest) := by
  obtain ⟨reported, hc, hsup⟩ := h
  have hsound : (self.setWaitQueue i rest).Sound := by
    refine hc.tidy.sound.setWaitQueue ?_
    intro item' hin
    exact hc.tidy.sound.waiting i item' (hq ▸ List.mem_cons_of_mem item hin)
  exact ⟨reported, hc.idle hsound rfl rfl rfl rfl rfl rfl rfl, hsup.unwait hc.tidy.sound hq⟩

theorem take {rest : List QueuedItem}
    (h : Serves builder peer reads ab ba pipe enqueued unanswered [] self)
    (hq : self.receiver.queue = item :: rest) :
    Serves builder peer reads ab ba pipe enqueued unanswered [item]
      { self with receiver := { self.receiver with queue := rest } } := by
  obtain ⟨reported, hc, hsup⟩ := h
  exact ⟨reported, hc.idle { hc.tidy.sound with } rfl rfl rfl rfl rfl rfl rfl, hsup.take hq⟩

/-- A user enqueues an item. -/
theorem enqueue (h : Serves builder peer reads ab ba pipe enqueued unanswered [] self)
    (hw : item.Within builder) (hin : ∀ i : Fin N, ∀ id ∈ item.answerOn i, id ∈ unanswered i) :
    Serves builder peer reads ab ba pipe (enqueued ++ [item])
      (fun i => unanswered i \ ([item].filterMap (QueuedItem.answerOn i)).toFinset) []
      { self with receiver := { self.receiver with queue := self.receiver.queue ++ [item] } } := by
  obtain ⟨reported, hc, hsup⟩ := h
  refine ⟨reported, hc.idle { hc.tidy.sound with } rfl rfl rfl rfl rfl rfl rfl,
    hsup.enqueue hw rfl rfl rfl fun i => ?_⟩
  cases ha : item.answerOn i with
  | none => simp [answersIn, ha]
  | some id =>
    have hmem : id ∈ unanswered i := hin i id ha
    simp only [answersIn, List.filterMap_cons, ha, List.filterMap_nil,
      List.toFinset_cons, List.toFinset_nil, insert_empty_eq, Finset.sdiff_singleton_eq_erase,
      Finset.erase_val, Multiset.coe_singleton]
    rw [Multiset.add_comm, Multiset.singleton_add, Multiset.cons_erase hmem]

theorem scanStep (h : Serves builder peer reads ab ba pipe enqueued unanswered [] self)
    (hs : ScanStep i self c) :
    Serves builder peer reads ab ba pipe enqueued unanswered [] c := by
  cases hs with
  | rotate item rest channel hq hw =>
    have hwaits : item.waitsOn i := by
      obtain ⟨_, hc, _⟩ := h
      exact hc.tidy.sound.waiting i item (hq ▸ List.mem_cons_self)
    have hback := (h.unwait hq).wait hwaits
    rwa [setWaitQueue_self, setWaitQueue_twice] at hback
  | promote item rest r c hq hw hs => exact (h.unwait hq).send hs hw
  | lose item rest hq => exact (h.unwait hq).refuse

theorem processWaitQueue {channel : ChannelId} {r : Except LocalProtocolViolation Unit}
    (h : Serves builder peer reads ab ba pipe enqueued unanswered [] self)
    (hq : self.processWaitQueue channel = .ok (r, c)) :
    Serves builder peer reads ab ba pipe enqueued unanswered [] c :=
  processWaitQueue_keeps hq h (fun h hs => h.scanStep hs)

/-- An item of the local queue waits, becomes a message, or is dropped. -/
theorem itemStep {r : Except LocalProtocolViolation Unit}
    (h : Serves builder peer reads ab ba pipe enqueued unanswered [item] self)
    (hs : ItemStep self item r c) :
    Serves builder peer reads ab ba pipe enqueued unanswered [] c := by
  cases hs with
  | refused violation _ => exact h.refuse
  | wait channel i hi hw => exact h.wait (hi ▸ itemShouldWait_some hw)
  | send r c hw hs => exact h.send hs hw

theorem handleCompletedRead (h : Serves builder peer reads ab ba pipe enqueued unanswered [] self)
    (read : CompletedRead) :
    Serves builder peer reads ab ba pipe enqueued unanswered []
      (self.handleCompletedRead read).2 := by
  obtain ⟨reported, hc, hsup⟩ := h
  have hsound := hc.tidy.sound.handleCompletedRead read
  rcases self.handleCompletedRead_core read with he | ⟨key, he⟩
  · rw [he]
    exact ⟨reported, hc, hsup⟩
  · rw [he] at hsound ⊢
    exact ⟨reported, hc.idle hsound rfl rfl rfl rfl rfl rfl rfl, hsup.idle rfl rfl rfl⟩

end Serves

end IoCore

end Juliet
