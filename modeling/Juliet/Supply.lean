import Juliet.Accounting
import Juliet.Coupling

namespace Juliet

open Rust

theorem answersIn_cons (i : Nat) (item : QueuedItem) (items : List QueuedItem) :
    answersIn i (item :: items) = answersIn i [item] + answersIn i items := by
  rw [answersIn, ← List.singleton_append, List.filterMap_append, ← Multiset.coe_add]
  rfl

theorem answersIn_perm {i : Nat} {items items' : List QueuedItem} (h : items.Perm items') :
    answersIn i items = answersIn i items' :=
  Multiset.coe_eq_coe.mpr (h.filterMap _)

theorem answersIn_nil (i : Nat) : answersIn i [] = 0 := rfl

theorem answersIn_other {N : Nat} {i j : Fin N} {item : QueuedItem} (hw : item.waitsOn i)
    (hj : j ≠ i) :
    answersIn j [item] = 0 := by
  rcases QueuedItem.waitsOn_cases hw with ⟨channel, ioId, payload, rfl, hi⟩ | ⟨channel,
    id, payload, rfl, hi⟩
  · rfl
  · have hne : channel.get.toNat ≠ j := fun hc => hj (Fin.ext (hc.symm.trans hi))
    simp [answersIn, QueuedItem.answerOn, hne]

namespace IoCore

variable {N : Nat} {self c : IoCore N} {i : Fin N} {item : QueuedItem} {rest : List QueuedItem}

theorem setWaitQueue_of_ne (self : IoCore N) {j : Fin N} (hj : j ≠ i) (queue : List QueuedItem) :
    (self.setWaitQueue i queue).waitQueue j = self.waitQueue j := by
  simp [setWaitQueue, hj]

theorem setWaitQueue_held (self : IoCore N) (i : Fin N) (queue : List QueuedItem) :
    (self.setWaitQueue i queue).held + self.waitQueue i = self.held + queue := by
  have hwait := waiting_of_others fun j (hj : j ≠ i) => self.setWaitQueue_of_ne hj queue
  rw [setWaitQueue_self] at hwait
  rw [held, held, add_right_comm, hwait, add_right_comm]
  rfl

/-- Where the items of a core are: in the local queue, waiting, with a message, or in hand. -/
def drawn (hand : List QueuedItem) (self : IoCore N) : Multiset QueuedItem :=
  self.receiver.queue + self.held + hand

/-- What has been enqueued on a core are requests, and answers to different requests among those
that have been reported and not answered. -/
structure Supplied (builder : ProtocolBuilder N) (enqueued : List QueuedItem)
    (unanswered reported : Fin N → Finset Id) (hand : List QueuedItem) (core : IoCore N) :
    Prop where
  within : ∀ item ∈ enqueued, item.Within builder
  drawn : core.drawn hand ≤ enqueued
  pending : ∀ i : Fin N, (unanswered i).val + answersIn i core.receiver.queue + answersIn i
    (core.waitQueue i) +
    answersIn i hand ≤ (reported i).val

namespace Supplied

variable {builder : ProtocolBuilder N} {enqueued hand : List QueuedItem}
  {unanswered reported reported' : Fin N → Finset Id}

theorem new (builder : ProtocolBuilder N) :
    Supplied builder [] (fun _ => ∅) (fun _ => ∅) [] (IoCore.new builder) where
  within := by simp
  drawn := by simp [IoCore.drawn, held, IoCore.new]
  pending i := by simp [IoCore.new, answersIn_nil]

theorem idle (h : Supplied builder enqueued unanswered reported hand self)
    (hr : c.receiver.queue = self.receiver.queue) (hw : c.waitQueue = self.waitQueue)
    (hh : c.history = self.history) :
    Supplied builder enqueued unanswered reported hand c := by
  refine ⟨h.within, ?_, ?_⟩
  · rw [IoCore.drawn, hr, held_congr hw hh]
    exact h.drawn
  · rw [hr, hw]
    exact h.pending

/-- A user enqueues an item. -/
theorem enqueue {unanswered' : Fin N → Finset Id}
    (h : Supplied builder enqueued unanswered reported [] self) (hw : item.Within builder)
    (hq : c.receiver.queue = self.receiver.queue ++ [item]) (hwait : c.waitQueue = self.waitQueue)
    (hh : c.history = self.history)
    (hun : ∀ i : Fin N, (unanswered' i).val + answersIn i [item] ≤ (unanswered i).val) :
    Supplied builder (enqueued ++ [item]) unanswered' reported [] c := by
  refine ⟨?_, ?_, fun i => ?_⟩
  · intro item' hin
    rcases List.mem_append.mp hin with hin | hin
    · exact h.within item' hin
    · rw [List.mem_singleton.mp hin]
      exact hw
  · have hd := add_le_add_left h.drawn ({item} : Multiset QueuedItem)
    rw [IoCore.drawn, hq, held_congr hwait hh, ← Multiset.coe_add, ← Multiset.coe_add]
    refine le_trans (le_of_eq ?_) hd
    rw [IoCore.drawn, Multiset.coe_singleton]
    abel
  · rw [hq, hwait, answersIn_perm (List.perm_append_singleton item _), answersIn_cons]
    calc
      _ = (unanswered' i).val + answersIn i [item] +
          (answersIn i self.receiver.queue + answersIn i (self.waitQueue i) + answersIn i []) := by
            abel
      _ ≤ (unanswered i).val + (answersIn i self.receiver.queue + answersIn i (self.waitQueue i) +
        answersIn i []) :=
        add_le_add_left (hun i) _
      _ = _ := by abel
      _ ≤ (reported i).val := h.pending i

/-- Taking an item off the local queue. -/
theorem take (h : Supplied builder enqueued unanswered reported [] self)
    (hq : self.receiver.queue = item :: rest) :
    Supplied builder enqueued unanswered reported [item]
      { self with receiver := { self.receiver with queue := rest } } := by
  refine ⟨h.within, le_trans (le_of_eq ?_) h.drawn, fun i => ?_⟩
  · show (rest : Multiset QueuedItem) + self.held + _ = _
    have hsplit : ((item :: rest : List QueuedItem) : Multiset QueuedItem) = {item} + rest := rfl
    rw [IoCore.drawn, hq, hsplit, Multiset.coe_singleton, Multiset.coe_nil]
    abel
  · have hp := h.pending i
    rw [hq, answersIn_cons] at hp
    refine le_trans (le_of_eq ?_) hp
    show _ + answersIn i rest + _ + _ = _
    rw [answersIn_nil]
    abel

/-- Taking the first item off the wait queue of a channel. -/
theorem unwait (h : Supplied builder enqueued unanswered reported [] self) (hsound : self.Sound)
    (hq : self.waitQueue i = item :: rest) :
    Supplied builder enqueued unanswered reported [item] (self.setWaitQueue i rest) := by
  have hin : item ∈ self.waitQueue i := hq ▸ List.mem_cons_self
  refine ⟨h.within, le_trans (le_of_eq ?_) h.drawn, fun j => ?_⟩
  · have hheld := self.setWaitQueue_held i rest
    rw [hq, ← Multiset.cons_coe, ← Multiset.singleton_add, ← add_assoc] at hheld
    rw [IoCore.drawn, IoCore.drawn, ← add_right_cancel hheld,
      Multiset.coe_singleton, Multiset.coe_nil]
    show (self.receiver.queue : Multiset QueuedItem) + _ + _ = _
    abel
  · have hp := h.pending j
    rw [answersIn_nil, add_zero] at hp
    by_cases hj : j = i
    · subst hj
      rw [hq, answersIn_cons] at hp
      rw [setWaitQueue_self]
      refine le_trans (le_of_eq ?_) hp
      show _ + answersIn j self.receiver.queue + _ + _ = _
      abel
    · rw [answersIn_other (hsound.waiting i item hin) hj, add_zero, self.setWaitQueue_of_ne hj]
      exact hp

/-- Putting the item in hand at the end of the wait queue of its channel. -/
theorem wait (h : Supplied builder enqueued unanswered reported [item] self) :
    Supplied builder enqueued unanswered reported []
      (self.setWaitQueue i (self.waitQueue i ++ [item])) := by
  refine ⟨h.within, le_trans (le_of_eq ?_) h.drawn, fun j => ?_⟩
  · have hheld := self.setWaitQueue_held i (self.waitQueue i ++ [item])
    rw [← Multiset.coe_add, add_comm (self.waitQueue i : Multiset QueuedItem), ← add_assoc] at hheld
    rw [IoCore.drawn, IoCore.drawn, add_right_cancel hheld, Multiset.coe_nil, add_zero, ← add_assoc]
    rfl
  · have hp := h.pending j
    rw [answersIn_nil, add_zero]
    by_cases hj : j = i
    · subst hj
      rw [setWaitQueue_self, answersIn_perm (List.perm_append_singleton item _), answersIn_cons]
      refine le_trans (le_of_eq ?_) hp
      show _ + answersIn j self.receiver.queue + _ = _
      abel
    · rw [self.setWaitQueue_of_ne hj]
      exact le_trans (Multiset.le_add_right _ _) hp

/-- The item in hand is gone, and with it the request that it answers. -/
theorem gone (h : Supplied builder enqueued unanswered reported [item] self)
    (hr : c.receiver.queue = self.receiver.queue) (hw : c.waitQueue = self.waitQueue)
    (hh : c.history.map Sent.item = self.history.map Sent.item ∨
      c.history.map Sent.item = self.history.map Sent.item ++ [item])
    (hle : ∀ j : Fin N, (reported j).val ≤ answersIn j [item] + (reported' j).val) :
    Supplied builder enqueued unanswered reported' [] c := by
  refine ⟨h.within, le_trans ?_ h.drawn, fun j => ?_⟩
  · rw [IoCore.drawn, IoCore.drawn, held, held, hr, hw, Multiset.coe_nil, add_zero]
    rcases hh with hh | hh
    · rw [hh]
      exact Multiset.le_add_right _ _
    · rw [hh, ← Multiset.coe_add, ← add_assoc, ← add_assoc, ← add_assoc]
  · have hp := (h.pending j).trans (hle j)
    rw [add_comm (answersIn j [item])] at hp
    rw [hr, hw, answersIn_nil, add_zero]
    exact le_of_add_le_add_right hp

theorem mem_enqueued (h : Supplied builder enqueued unanswered reported [item] self) :
    item.Within builder := by
  have hin : item ∈ self.drawn [item] := Multiset.mem_add.mpr (.inr (by simp))
  exact h.within item (Multiset.mem_coe.mp (Multiset.mem_of_le h.drawn hin))

theorem mem_reported (h : Supplied builder enqueued unanswered reported [item] self) (i : Fin N) :
    ∀ id ∈ item.answerOn i, id ∈ reported i := by
  intro id hid
  have hmem : id ∈ answersIn i [item] := by simp [answersIn, Option.mem_def.mp hid]
  exact Finset.mem_val.mp (Multiset.mem_of_le ((Multiset.le_add_left _ _).trans (h.pending i)) hmem)

/-- Requests that are reported are unanswered at first. -/
theorem report {more : Fin N → Finset Id}
    (h : Supplied builder enqueued unanswered reported hand self)
    (hnew : ∀ i, Disjoint (reported i) (more i)) :
    Supplied builder enqueued (fun i => unanswered i ∪ more i)
      (fun i => reported i ∪ more i) hand self := by
  refine ⟨h.within, h.drawn, fun i => ?_⟩
  have hp := h.pending i
  have hsub : unanswered i ⊆ reported i := by
    refine Finset.val_le_iff.mp (le_trans ?_ hp)
    rw [add_assoc, add_assoc]
    exact Multiset.le_add_right _ _
  rw [← Finset.disjUnion_eq_union _ _ (Finset.disjoint_of_subset_left hsub (hnew i)),
    ← Finset.disjUnion_eq_union _ _ (hnew i), Finset.disjUnion_val, Finset.disjUnion_val]
  refine le_trans (le_of_eq ?_) (add_le_add_left hp (more i).val)
  abel

end Supplied

end IoCore

end Juliet
