import Juliet.UpcomingIds

namespace Juliet

open Rust

/-- The request that a message carries: its id on this side and its channel and id on the wire. -/
def Sent.asRequest (sent : Sent) : Option (IoId × (ChannelId × Id)) :=
  match sent.item with
  | .request channel ioId _ => some (ioId, (channel, sent.msg.header.id))
  | _ => none

/-- The latest request created with the given channel and id. -/
def owner (history : List Sent) (key : ChannelId × Id) : Option IoId :=
  history.foldl
    (fun latest sent => match sent.asRequest with
      | some (ioId, key') => if key' = key then some ioId else latest
      | none => latest)
    none

theorem owner_request {history : List Sent} {channel : ChannelId} {ioId : IoId}
    {payload : Option Bytes} {msg : OutgoingMessage} (key : ChannelId × Id) :
    owner (history ++ [⟨.request channel ioId payload, msg⟩]) key =
      if (channel, msg.header.id) = key then some ioId else owner history key := by
  simp [owner, Sent.asRequest]

theorem owner_other {history : List Sent} {sent : Sent} (key : ChannelId × Id)
    (h : ∀ ioId, sent.item.isRequest ioId = false) :
    owner (history ++ [sent]) key = owner history key := by
  have hnone : sent.asRequest = none := by
    unfold Sent.asRequest
    split
    next channel ioId payload he =>
      have := h ioId
      simp [he, QueuedItem.isRequest] at this
    next => rfl
  simp [owner, hnone]

theorem owner_mem {history : List Sent} {key : ChannelId × Id} {ioId : IoId}
    (h : owner history key = some ioId) :
    ∃ sent ∈ history, sent.item.isRequest ioId = true := by
  induction history using List.reverseRecOn with
  | nil => simp [owner] at h
  | append_singleton history sent ih =>
    have hold : owner history key = some ioId → ∃ sent' ∈ history ++ [sent],
        sent'.item.isRequest ioId = true := by
      intro ho
      obtain ⟨sent', hs, hr⟩ := ih ho
      exact ⟨sent', List.mem_append_left _ hs, hr⟩
    obtain ⟨item, msg⟩ := sent
    cases item with
    | request channel ioId' payload =>
      rw [owner_request] at h
      split at h
      next =>
        cases Option.some.inj h
        exact ⟨⟨.request channel ioId payload, msg⟩, by simp, by simp [QueuedItem.isRequest]⟩
      next => exact hold h
    | _ =>
      rw [owner_other key (by simp [QueuedItem.isRequest])] at h
      exact hold h

namespace IoCore

variable {N : Nat} {self c : IoCore N} {answered : List IoId}

/-- The request is outstanding with this channel and id: it was the last to get them, and no answer
has been read. -/
def Outstanding (core : IoCore N) (key : ChannelId × Id) (ioId : IoId) : Prop :=
  owner core.history key = some ioId ∧
    ∃ i : Fin N, key.1.get.toNat = i ∧ key.2 ∈ (core.juliet.channels i).outgoingRequests

/-- The request map knows every outstanding request, and none that has been answered. -/
structure Mapped (answered : List IoId) (core : IoCore N) : Prop where
  owned : ∀ ioId key, (ioId, key) ∈ core.requestMap.pairs → owner core.history key = some ioId
  outstanding : core.pendingError = none → ∀ (i : Fin N) (channel : ChannelId) id,
    channel.get.toNat = i →
    id ∈ (core.juliet.channels i).outgoingRequests →
      ∃ ioId, (ioId, (channel, id)) ∈ core.requestMap.pairs
  made : ∀ ioId ∈ answered, ∃ sent ∈ core.history, sent.item.isRequest ioId = true
  gone : ∀ ioId ∈ answered, ∀ key, (ioId, key) ∉ core.requestMap.pairs

namespace Mapped

/-- A request id that has not been used is not in the map and has not been answered. -/
theorem unused {ioId : IoId} (h : Mapped answered self)
    (hnew : requestsOf ioId (self.history.map Sent.item) = 0) :
    (∀ key, (ioId, key) ∉ self.requestMap.pairs) ∧ ioId ∉ answered := by
  have hno : ∀ sent ∈ self.history, ¬ sent.item.isRequest ioId = true :=
    fun sent hs => List.countP_eq_zero.mp hnew sent.item (List.mem_map_of_mem hs)
  constructor
  · intro key hp
    obtain ⟨sent, hs, hr⟩ := owner_mem (h.owned ioId key hp)
    exact hno sent hs hr
  · intro ha
    obtain ⟨sent, hs, hr⟩ := h.made ioId ha
    exact hno sent hs hr

/-- Changes that create nothing. -/
theorem congr (h : Mapped answered self) (hh : c.history = self.history)
    (hm : c.requestMap = self.requestMap) (hp : c.pendingError = none → self.pendingError = none)
    (ho : ∀ i, (c.juliet.channels i).outgoingRequests ⊆ (self.juliet.channels i).outgoingRequests) :
    Mapped answered c where
  owned := by
    rw [hh, hm]
    exact h.owned
  outstanding := by
    intro hnone i channel id hi hid
    rw [hm]
    exact h.outstanding (hp hnone) i channel id hi (ho i hid)
  made := by
    rw [hh]
    exact h.made
  gone := by
    rw [hm]
    exact h.gone

/-- Steps that concern neither the history nor the requests. -/
theorem idle (h : Mapped answered self) (hh : c.history = self.history)
    (hm : c.requestMap = self.requestMap) (hp : c.pendingError = self.pendingError)
    (hj : c.juliet = self.juliet) : Mapped answered c := by
  refine h.congr hh hm (fun hnone => hp.symm.trans hnone) ?_
  rw [hj]
  exact fun _ => Finset.Subset.refl _

/-- Messages that carry no request. -/
theorem created {i : Fin N} {item : QueuedItem} {msg : OutgoingMessage} {juliet : JulietProtocol N}
    (h : Mapped answered self) (hitem : ∀ ioId, item.isRequest ioId = false)
    (ho : ∀ i, (juliet.channels i).outgoingRequests = (self.juliet.channels i).outgoingRequests) :
    Mapped answered (self.created i item msg juliet self.requestMap) where
  owned := by
    intro ioId key hp
    rw [created_requestMap] at hp
    rw [created_history, owner_other key hitem]
    exact h.owned ioId key hp
  outstanding := by
    intro hnone j channel id hj hid
    rw [created_pendingError] at hnone
    rw [created_juliet, ho] at hid
    rw [created_requestMap]
    exact h.outstanding hnone j channel id hj hid
  made := by
    intro ioId ha
    obtain ⟨sent, hs, hr⟩ := h.made ioId ha
    rw [created_history]
    exact ⟨sent, List.mem_append_left _ hs, hr⟩
  gone := by
    rw [created_requestMap]
    exact h.gone

theorem withRequest {i : Fin N} {channel : ChannelId} {ioId : IoId} {payload : Option Bytes}
    {id : Id} (h : Mapped answered self) (hi : channel.get.toNat = i)
    (hnew : requestsOf ioId (self.history.map Sent.item) = 0) :
    Mapped answered (self.created i (.request channel ioId payload)
      (Channel.requestMessage channel id payload)
      (self.juliet.setChannel i ((self.juliet.channels i).withRequest id))
      (self.requestMap.insert ioId (channel, id))) := by
  obtain ⟨hunmapped, hunanswered⟩ := h.unused hnew
  refine ⟨?_, ?_, ?_, ?_⟩
  · intro ioId' key hp
    rw [created_requestMap, BiMap.mem_insert] at hp
    rw [created_history, owner_request, Channel.requestMessage_id]
    rcases hp with hp | ⟨hp, _, hkey⟩
    · obtain ⟨rfl, rfl⟩ := Prod.mk.inj hp
      rw [if_pos rfl]
    · rw [if_neg (fun he => hkey he.symm)]
      exact h.owned ioId' key hp
  · intro hnone j channel' id' hj hid
    rw [created_pendingError] at hnone
    rw [created_juliet] at hid
    rw [created_requestMap]
    by_cases hkey : (channel', id') = (channel, id)
    · exact ⟨ioId, BiMap.mem_insert.mpr (.inl (by rw [hkey]))⟩
    · have hold : id' ∈ (self.juliet.channels j).outgoingRequests := by
        by_cases hji : j = i
        · subst hji
          rw [JulietProtocol.setChannel_self] at hid
          rcases Finset.mem_insert.mp hid with rfl | hid
          · exact absurd (by rw [ChannelId.ext_toNat (hj.trans hi.symm)]) hkey
          · exact hid
        · rwa [JulietProtocol.setChannel_of_ne _ hji] at hid
      obtain ⟨ioId', hp⟩ := h.outstanding hnone j channel' id' hj hold
      refine ⟨ioId', BiMap.mem_insert.mpr (.inr ⟨hp, ?_, hkey⟩)⟩
      rintro rfl
      exact hunmapped _ hp
  · intro ioId' ha
    obtain ⟨sent, hs, hr⟩ := h.made ioId' ha
    rw [created_history]
    exact ⟨sent, List.mem_append_left _ hs, hr⟩
  · intro ioId' ha key hp
    rw [created_requestMap, BiMap.mem_insert] at hp
    rcases hp with hp | ⟨hp, _⟩
    · obtain ⟨rfl, _⟩ := Prod.mk.inj hp
      exact hunanswered ha
    · exact h.gone ioId' ha key hp

theorem erroring (h : Mapped answered self) (frame : OutgoingFrame) :
    Mapped answered (self.erroring frame) :=
  ⟨by simp [IoCore.erroring,
    BiMap.empty], by simp [IoCore.erroring], h.made, by simp [IoCore.erroring, BiMap.empty]⟩

theorem sendStep {item : QueuedItem} {r : Except LocalProtocolViolation Unit}
    (h : Mapped answered self) (hs : SendStep self item r c)
    (hnew : ∀ ioId, item.isRequest ioId = true → requestsOf ioId (self.history.map Sent.item) = 0) :
    Mapped answered c := by
  cases hs with
  | request channel ioId payload i id hi _ _ _ =>
    exact h.withRequest hi (hnew ioId (by simp [QueuedItem.isRequest]))
  | cancel ioId channel i id _ _ _ =>
    exact h.created (by simp [QueuedItem.isRequest]) (fun _ => rfl)
  | response channel id payload i _ _ _ =>
    exact h.created (by simp [QueuedItem.isRequest]) (by simp)
  | responseCancellation channel id i _ _ =>
    exact h.created (by simp [QueuedItem.isRequest]) (by simp)
  | late _ _ _ => exact h
  | refused _ _ => exact h
  | oversized channel id payload i _ _ _ _ => exact h.congr rfl rfl (fun hp => hp) (by simp)
  | error channel id payload frame _ _ => exact h.erroring frame

/-- The request is still in the map, or its id has been handed out again. -/
def Kept (i : Fin N) (ioId : IoId) (key : ChannelId × Id) (core : IoCore N) : Prop :=
  (ioId, key) ∈ core.requestMap.pairs ∨ key.2 ∈ (core.juliet.channels i).outgoingRequests

theorem kept_sendStep {item : QueuedItem} {r : Except LocalProtocolViolation Unit} {i : Fin N}
    {j : Nat} {ioId : IoId} {key : ChannelId × Id} (h : Mapped answered self)
    (hs : SendStep self item r c) (hw : item.waitsOn j)
    (hnew : ∀ ioId, item.isRequest ioId = true → requestsOf ioId (self.history.map Sent.item) = 0)
    (hkey : key.1.get.toNat = i) (hk : Kept i ioId key self) : Kept i ioId key c := by
  cases hs with
  | request channel ioId' payload i' id hi' _ _ _ =>
    obtain ⟨hunmapped, _⟩ := h.unused (hnew ioId' (by simp [QueuedItem.isRequest]))
    unfold Kept
    rw [created_requestMap, created_juliet, BiMap.mem_insert]
    by_cases hsame : key = (channel, id)
    · subst hsame
      have he : i' = i := Fin.ext (hi'.symm.trans hkey)
      subst he
      refine .inr ?_
      rw [JulietProtocol.setChannel_self]
      exact Finset.mem_insert_self id _
    · rcases hk with hp | hid
      · refine .inl (.inr ⟨hp, ?_, hsame⟩)
        rintro rfl
        exact hunmapped key hp
      · refine .inr ?_
        by_cases he : i = i'
        · subst he
          rw [JulietProtocol.setChannel_self]
          exact Finset.mem_insert_of_mem hid
        · rwa [JulietProtocol.setChannel_of_ne _ he]
  | response channel id payload i' _ _ _ => simpa [Kept] using hk
  | oversized channel id payload i' _ _ _ _ => simpa [Kept] using hk
  | late _ _ _ => exact hk
  | refused _ _ => exact hk
  | _ => exact hw.elim

theorem setWaitQueue (h : Mapped answered self) (i : Fin N) (queue : List QueuedItem) :
    Mapped answered (self.setWaitQueue i queue) := h.idle rfl rfl rfl rfl

theorem scanStep {i : Fin N} (h : Mapped answered self) (hsound : self.Sound)
    (hone : ∀ ioId, self.copies ioId ≤ 1) (hs : ScanStep i self c) :
    Mapped answered c ∧ ∀ (j : Fin N) (ioId : IoId) (key : ChannelId × Id), key.1.get.toNat = j →
    Kept j ioId key self →
      Kept j ioId key c := by
  cases hs with
  | rotate item rest channel _ _ => exact ⟨h.setWaitQueue i _, fun _ _ _ _ hk => hk⟩
  | lose item rest _ => exact ⟨h.setWaitQueue i _, fun _ _ _ _ hk => hk⟩
  | promote item rest r c hq _ hs =>
    have hw := hsound.waiting i item (hq ▸ List.mem_cons_self)
    have hnew : ∀ ioId, item.isRequest ioId = true →
        requestsOf ioId ((self.setWaitQueue i rest).history.map Sent.item) = 0 :=
      fun ioId hio => unused_of_copies hio (hone ioId) (copies_unqueued hq)
    have hset := h.setWaitQueue i rest
    exact ⟨hset.sendStep hs hnew, fun _ _ _ hkey hk => hset.kept_sendStep hs hw hnew hkey hk⟩

/-- Processing the wait queue keeps the map in order, and a request in it unless its id is
reused. -/
theorem processWaitQueue {channel : ChannelId} {r : Except LocalProtocolViolation Unit}
    (h : Mapped answered self) (hsound : self.Sound) (hone : ∀ ioId, self.copies ioId ≤ 1)
    (hq : self.processWaitQueue channel = .ok (r, c)) :
    Mapped answered c ∧ ∀ (j : Fin N) (ioId : IoId) (key : ChannelId × Id), key.1.get.toNat = j →
      (ioId, key) ∈ self.requestMap.pairs → Kept j ioId key c := by
  have hall : Mapped answered c ∧
      (∀ (j : Fin N) (ioId : IoId) (key : ChannelId × Id), key.1.get.toNat = j →
      (ioId, key) ∈ self.requestMap.pairs → Kept j ioId key c) ∧ ∀ ioId, c.copies ioId ≤ 1 := by
    refine hsound.scansKeep
      (P := fun c => Mapped answered c ∧ (∀ (j : Fin N) (ioId : IoId) (key : ChannelId × Id),
      key.1.get.toNat = j → (ioId, key) ∈ self.requestMap.pairs → Kept j ioId key c) ∧
      ∀ ioId, c.copies ioId ≤ 1) hq
      ⟨h, fun _ _ _ _ hp => .inl hp, hone⟩ ?_
    rintro i b c hb ⟨hm, hk, hle⟩ hstep
    obtain ⟨hm', hk'⟩ := hm.scanStep hb hle hstep
    exact ⟨hm', fun j ioId key hkey hp => hk' j ioId key hkey (hk j ioId key hkey hp),
      fun ioId => hstep.copies_le.trans (hle ioId)⟩
  exact ⟨hall.1, hall.2.1⟩

/-- Taking an answered request out of the map. -/
theorem answer {i : Fin N} {ioId : IoId} {key : ChannelId × Id} (h : Mapped answered self)
    (hpair : (ioId, key) ∈ self.requestMap.pairs) (hkey : key.1.get.toNat = i)
    (hid : key.2 ∉ (self.juliet.channels i).outgoingRequests) :
    Mapped (answered ++ [ioId])
      { self with requestMap := (self.requestMap.removeByRight key).2 } where
  owned := by
    intro ioId' key' hp
    exact h.owned ioId' key' (BiMap.removeByRight_mem.mp hp).1
  outstanding := by
    intro hnone j channel id hj hmem
    obtain ⟨ioId', hp⟩ := h.outstanding hnone j channel id hj hmem
    refine ⟨ioId', BiMap.removeByRight_mem.mpr ⟨hp, ?_⟩⟩
    rintro rfl
    have he : j = i := Fin.ext (hj.symm.trans hkey)
    subst he
    exact hid hmem
  made := by
    intro ioId' ha
    rcases List.mem_append.mp ha with ha | ha
    · exact h.made ioId' ha
    · rw [List.mem_singleton.mp ha]
      exact owner_mem (h.owned ioId key hpair)
  gone := by
    intro ioId' ha key' hp
    obtain ⟨hp, hne⟩ := BiMap.removeByRight_mem.mp hp
    rcases List.mem_append.mp ha with ha | ha
    · exact h.gone ioId' ha key' hp
    · rw [List.mem_singleton.mp ha] at hp
      exact hne (BiMap.right_unique _ hp hpair)

end Mapped

end IoCore

/-- The request that an event answers. -/
def IoEvent.answerId : IoEvent → Option IoId
  | .receivedResponse ioId _ => some ioId
  | .receivedCancellationResponse ioId => some ioId
  | _ => none

namespace IoCore

variable {N : Nat} {self c : IoCore N} {answered : List IoId}

theorem handleCompletedRead_unanswered (self : IoCore N) {read : CompletedRead}
    (h : read.answered = none) :
    (self.handleCompletedRead read).2 = self ∧
      (∀ event, (self.handleCompletedRead read).1 = .ok event → event.answerId = none) ∧
      ∀ text, (self.handleCompletedRead read).1 ≠ .error (.internalError text) := by
  cases read with
  | receivedResponse channel id payload => simp [CompletedRead.answered] at h
  | responseCancellation channel id => simp [CompletedRead.answered] at h
  | _ => simp [handleCompletedRead, IoEvent.answerId]

theorem handleCompletedRead_answered (read : CompletedRead) {key : ChannelId × Id} {ioId : IoId}
    (h : read.answered = some key) (hpair : (ioId, key) ∈ self.requestMap.pairs) :
    ∃ event, event.answerId = some ioId ∧ self.handleCompletedRead read =
      (.ok event, { self with requestMap := (self.requestMap.removeByRight key).2 }) := by
  have hremoved := BiMap.removeByRight_some.mpr ⟨rfl, hpair⟩
  cases read with
  | receivedResponse channel id payload =>
    cases Option.some.inj h
    exact ⟨.receivedResponse ioId payload, rfl, by simp [handleCompletedRead, hremoved]⟩
  | responseCancellation channel id =>
    cases Option.some.inj h
    exact ⟨.receivedCancellationResponse ioId, rfl, by simp [handleCompletedRead, hremoved]⟩
  | _ => simp [CompletedRead.answered] at h

end IoCore

end Juliet
