import Mathlib.Algebra.BigOperators.Fin
import Juliet.IoSound

namespace Juliet

open Rust

def QueuedItem.isRequest (ioId : IoId) : QueuedItem → Bool
  | .request _ ioId' _ => ioId' = ioId
  | _ => false

/-- How often a request id is among some items. -/
def requestsOf (ioId : IoId) (items : List QueuedItem) : Nat :=
  items.countP (QueuedItem.isRequest ioId)

section RequestsOf

variable (ioId : IoId) (item : QueuedItem) (items items' : List QueuedItem)

@[simp]
theorem requestsOf_nil : requestsOf ioId [] = 0 := rfl

theorem requestsOf_cons :
    requestsOf ioId (item :: items) = requestsOf ioId items + requestsOf ioId [item] := by
  simp [requestsOf, List.countP_cons]

@[simp]
theorem requestsOf_append :
    requestsOf ioId (items ++ items') = requestsOf ioId items + requestsOf ioId items' := by
  simp [requestsOf]

end RequestsOf

namespace IoCore

variable {N : Nat} {self c : IoCore N} {ioId : IoId}

/-- How many requests with this id there are, created, waiting and in the local queue. -/
def copies (self : IoCore N) (ioId : IoId) : Nat :=
  requestsOf ioId (self.history.map Sent.item) + ∑ i, requestsOf ioId (self.waitQueue i) +
    requestsOf ioId self.receiver.queue

theorem copies_setWaitQueue (self : IoCore N) (i : Fin N) (queue : List QueuedItem) (ioId : IoId) :
    (self.setWaitQueue i queue).copies ioId + requestsOf ioId (self.waitQueue i) =
      self.copies ioId + requestsOf ioId queue := by
  have hsum := Finset.add_sum_erase Finset.univ (fun j => requestsOf ioId (self.waitQueue j))
    (Finset.mem_univ i)
  have hsum' := Finset.add_sum_erase Finset.univ
    (fun j => requestsOf ioId ((self.setWaitQueue i queue).waitQueue j)) (Finset.mem_univ i)
  have hrest : ∑ j ∈ Finset.univ.erase i,
      requestsOf ioId ((self.setWaitQueue i queue).waitQueue j) =
      ∑ j ∈ Finset.univ.erase i, requestsOf ioId (self.waitQueue j) := by
    refine Finset.sum_congr rfl ?_
    intro j hj
    simp [setWaitQueue, Finset.ne_of_mem_erase hj]
  have hi : (self.setWaitQueue i queue).waitQueue i = queue := by simp [setWaitQueue]
  have hhist : (self.setWaitQueue i queue).history = self.history := rfl
  have hrecv : (self.setWaitQueue i queue).receiver = self.receiver := rfl
  simp only [hi] at hsum'
  unfold copies
  rw [hhist, hrecv]
  omega

theorem copies_created (i : Fin N) (item : QueuedItem) (msg : OutgoingMessage)
    (juliet : JulietProtocol N) (requestMap : BiMap IoId (ChannelId × Id)) :
    (self.created i item msg juliet requestMap).copies ioId =
      self.copies ioId + requestsOf ioId [item] := by
  simp only [copies, created_history, created_waitQueue, created_receiver, List.map_append,
    List.map_cons, List.map_nil, requestsOf_append]
  omega

theorem copies_erroring (frame : OutgoingFrame) :
    (self.erroring frame).copies ioId ≤ self.copies ioId := by
  simp only [copies, erroring, requestsOf_nil, Finset.sum_const_zero]
  omega

theorem SendStep.copies_le {item : QueuedItem} {r : Except LocalProtocolViolation Unit}
    (hs : SendStep self item r c) :
    c.copies ioId ≤ self.copies ioId + requestsOf ioId [item] := by
  cases hs with
  | late _ _ _ => exact Nat.le_add_right _ _
  | refused _ _ => exact Nat.le_add_right _ _
  | oversized _ _ _ _ _ _ _ _ => exact Nat.le_add_right _ _
  | error _ _ _ frame _ _ => exact (copies_erroring frame).trans (Nat.le_add_right _ _)
  | _ => exact (copies_created _ _ _ _ _).le

/-- An item that leaves the wait queue to be sent. -/
theorem copies_unqueued {i : Fin N} {item : QueuedItem} {rest : List QueuedItem}
    (hq : self.waitQueue i = item :: rest) :
    (self.setWaitQueue i rest).copies ioId + requestsOf ioId [item] = self.copies ioId := by
  have := copies_setWaitQueue self i rest ioId
  rw [hq, requestsOf_cons] at this
  omega

/-- A request that has not been sent yet is the only one with its id. -/
theorem unused_of_copies {item : QueuedItem} {n : Nat} (hio : item.isRequest ioId = true)
    (hn : n ≤ 1) (h : self.copies ioId + requestsOf ioId [item] = n) :
    requestsOf ioId (self.history.map Sent.item) = 0 := by
  have hitem : requestsOf ioId [item] = 1 := by simp [requestsOf, hio]
  have hzero : self.copies ioId = 0 := by omega
  simp only [copies, Nat.add_eq_zero_iff] at hzero
  exact hzero.1.1

theorem ScanStep.copies_le {i : Fin N} (hs : ScanStep i self c) :
    c.copies ioId ≤ self.copies ioId := by
  cases hs with
  | rotate item rest channel hq _ =>
    have := copies_setWaitQueue self i (rest ++ [item]) ioId
    rw [hq, requestsOf_cons, requestsOf_append] at this
    omega
  | promote item rest r c hq _ hs =>
    rw [← copies_unqueued hq]
    exact hs.copies_le
  | lose item rest hq =>
    rw [← copies_unqueued hq]
    exact Nat.le_add_right _ _

theorem processWaitQueue_copies_le {channel : ChannelId} {r : Except LocalProtocolViolation Unit}
    (hq : self.processWaitQueue channel = .ok (r, c)) : c.copies ioId ≤ self.copies ioId :=
  processWaitQueue_keeps (P := fun c => c.copies ioId ≤ self.copies ioId) hq le_rfl
    (fun ih hs => hs.copies_le.trans ih)

theorem handleCompletedRead_copies (self : IoCore N) (read : CompletedRead) (ioId : IoId) :
    (self.handleCompletedRead read).2.copies ioId = self.copies ioId := by
  rcases self.handleCompletedRead_core read with he | ⟨key, he⟩
  · rw [he]
  · rw [he]
    rfl

theorem ParseStep.copies_le {outcome : Option ReadOutcome}
    {result : Option (Except CoreError IoEvent)} (hs : ParseStep self outcome result c) :
    c.copies ioId ≤ self.copies ioId := by
  cases hs with
  | skip _ => exact le_rfl
  | incomplete n juliet buffer _ => exact le_rfl
  | fatal errMsg juliet buffer frame _ _ _ =>
    have hle : ((self.parsed juliet buffer).erroring frame).copies ioId ≤
        (self.parsed juliet buffer).copies ioId :=
      copies_erroring frame
    exact hle
  | event read juliet buffer _ _ => exact (handleCompletedRead_copies _ _ _).le
  | response channel id payload juliet buffer c _ hq =>
    have hle : c.copies ioId ≤ (self.parsed juliet buffer).copies ioId :=
      processWaitQueue_copies_le hq
    exact (handleCompletedRead_copies _ _ _).le.trans hle
  | violation channel id payload juliet buffer err c _ hq =>
    have hle : c.copies ioId ≤ (self.parsed juliet buffer).copies ioId :=
      processWaitQueue_copies_le hq
    exact hle

theorem ReadyStep.copies_eq (hs : ReadyStep self c) : c.copies ioId = self.copies ioId := by
  cases hs <;> rfl

theorem SentStep.copies_le {sent : CurrentFrame} {r : Except CoreError Unit}
    (hs : SentStep self sent r c) :
    c.copies ioId ≤ self.copies ioId := by
  cases hs with
  | error _ _ => exact le_rfl
  | scanned i c _ hq | violation i c err _ hq =>
    have hle : c.copies ioId ≤ (self.cleared sent i).copies ioId := processWaitQueue_copies_le hq
    exact hle

theorem ItemStep.copies_le {item : QueuedItem} {r : Except LocalProtocolViolation Unit}
    (hs : ItemStep self item r c) :
    c.copies ioId ≤ self.copies ioId + requestsOf ioId [item] := by
  cases hs with
  | refused _ _ => exact Nat.le_add_right _ _
  | wait channel i _ _ =>
    have := copies_setWaitQueue self i (self.waitQueue i ++ [item]) ioId
    rw [requestsOf_append] at this
    omega
  | send r c _ hs => exact hs.copies_le

end IoCore

namespace IoTask

variable {N : Nat} {t t' : IoTask N}

/-- Every request id is used at most once, and only if it has been issued. -/
def Unique (t : IoTask N) : Prop := ∀ ioId, t.core.copies ioId ≤ if ioId ∈ t.issued then 1 else 0

theorem copies_dequeued {item : QueuedItem} {rest : List QueuedItem}
    (hq : t.core.receiver.queue = item :: rest) (ioId : IoId) :
    (t.dequeued rest).copies ioId + requestsOf ioId [item] = t.core.copies ioId := by
  have hcons := requestsOf_cons ioId item rest
  simp only [IoCore.copies, dequeued, hq]
  omega

theorem Unique.new (builder : ProtocolBuilder N) : Unique (IoTask.new builder) := by
  intro ioId
  simp [IoTask.new, IoCore.new, IoCore.copies]

theorem Unique.copies_le (h : Unique t) (ioId : IoId) : t.core.copies ioId ≤ 1 := by
  refine (h ioId).trans ?_
  split <;> omega

theorem Unique.step {a : IoAct} (h : Unique t) (hs : Step t a t') : Unique t' := by
  intro ioId
  have hle := h ioId
  cases hs with
  | enqueue item issued _ hnew hissued =>
    have hcopies : (t.dequeued (t.core.receiver.queue ++ [item])).copies ioId =
        t.core.copies ioId + requestsOf ioId [item] := by
      simp only [IoCore.copies, dequeued, requestsOf_append]
      omega
    simp only [hcopies]
    subst hissued
    cases item with
    | request channel ioId' payload =>
      by_cases he : ioId' = ioId
      · subst he
        rw [if_neg (hnew channel ioId' payload rfl)] at hle
        simp [requestsOf, QueuedItem.isRequest]
        omega
      · have hne : ioId ≠ ioId' := fun h => he h.symm
        simpa [requestsOf, QueuedItem.isRequest, he, hne] using hle
    | _ => simpa [requestsOf, QueuedItem.isRequest] using hle
  | event outcome event core _ _ hparse => exact hparse.copies_le.trans hle
  | failed outcome err core _ _ hparse => exact hparse.copies_le.trans hle
  | selecting outcome core core' _ _ hparse hready =>
    exact hready.copies_eq.le.trans (hparse.copies_le.trans hle)
  | writeAll current core position r _ _ _ hsent _ => exact hsent.copies_le.trans hle
  | taken a item rest core _ _ hq hi | rejected a item rest core _ _ _ hq hi =>
    rw [← copies_dequeued hq] at hle
    exact (IoCore.handleIncomingItem_steps hi).copies_le.trans hle
  | _ => exact hle

end IoTask

end Juliet
