import Juliet.Answers
import Juliet.RequestIds

namespace Juliet

open Rust

/-- Whether the message with this serial is the request with the id. -/
def ofRequest (history : List Sent) (serial : Nat) (ioId : IoId) : Bool :=
  history[serial]?.any fun sent => sent.item.isRequest ioId

/-- Whether the message with this serial cancels the request with the id. -/
def ofCancellation (history : List Sent) (serial : Nat) (ioId : IoId) : Bool :=
  history[serial]?.any fun sent => sent.item = .requestCancellation ioId

/-- A cancellation and the request it cancels. -/
def Overtakes (history : List Sent) (a b : Nat) : Prop :=
  ∃ ioId, ofCancellation history a ioId = true ∧ ofRequest history b ioId = true

theorem ofCancellation_mem {history : List Sent} {serial : Nat} {ioId : IoId}
    (h : ofCancellation history serial ioId = true) :
    ∃ sent ∈ history, sent.item = .requestCancellation ioId := by
  obtain ⟨sent, hs, hr⟩ := (Option.any_eq_true _ _).mp h
  exact ⟨sent, List.mem_of_getElem? hs, by simpa using hr⟩

theorem not_overtakes_self (history : List Sent) (a : Nat) : ¬ Overtakes history a a := by
  rintro ⟨ioId, hc, hr⟩
  unfold ofCancellation ofRequest at *
  cases h : history[a]? with
  | none => simp [h] at hc
  | some sent =>
    simp only [h, Option.any_some, decide_eq_true_eq] at hc hr
    simp [hc, QueuedItem.isRequest] at hr

theorem overtakes_append {history : List Sent} {a b : Nat} (ha : a < history.length)
    (hb : b < history.length) (rest : List Sent) :
    Overtakes (history ++ rest) a b ↔ Overtakes history a b := by
  simp only [Overtakes, ofCancellation, ofRequest, List.getElem?_append_left ha,
    List.getElem?_append_left hb]

namespace IoCore

variable {N : Nat} {self c : IoCore N} {sent : List Nat}

/-- The serials of all frames, those sent already and those to come. -/
def serials (self : IoCore N) (sent : List Nat) : List Nat :=
  sent ++ ((self.currentFrame.map CurrentFrame.serial).toList ++
    self.readyQueue.map ReadyEntry.serial)

@[simp]
theorem created_serials (self : IoCore N) (sent : List Nat) (i : Fin N) (item : QueuedItem)
    (msg : OutgoingMessage) (juliet : JulietProtocol N) (requestMap : BiMap IoId (ChannelId × Id)) :
    (self.created i item msg juliet requestMap).serials sent =
      self.serials sent ++ [self.history.length] := by
  simp [serials]

theorem serial_mem_serials {entry : ReadyEntry} (he : entry ∈ self.readyQueue) :
    entry.serial ∈ self.serials sent := by
  simp only [serials, List.mem_append, List.mem_map]
  exact .inr (.inr ⟨entry, he, rfl⟩)

/-- The new serial is the next one. -/
theorem serials_lt_created {i : Fin N} {item : QueuedItem} {msg : OutgoingMessage}
    {juliet : JulietProtocol N} {requestMap : BiMap IoId (ChannelId × Id)}
    (h : ∀ serial ∈ self.serials sent, serial < self.history.length) :
    ∀ serial ∈ (self.created i item msg juliet requestMap).serials sent,
      serial < (self.created i item msg juliet requestMap).history.length := by
  intro serial hs
  rw [created_serials, List.mem_append, List.mem_singleton] at hs
  rw [created_history, List.length_append, List.length_singleton]
  rcases hs with hs | rfl
  · exact (h serial hs).trans (Nat.lt_succ_self _)
  · exact Nat.lt_succ_self _

/-- No request follows its cancellation, and none will: where a cancellation is queued behind its
request, only one frame of the request is left. -/
structure Ordered (sent : List Nat) (core : IoCore N) : Prop where
  numbered : ∀ serial ∈ core.serials sent, serial < core.history.length
  order : (core.serials sent).Pairwise fun a b => ¬ Overtakes core.history a b
  last : core.readyQueue.Pairwise
    fun entry cancel => Overtakes core.history cancel.serial entry.serial →
    (entry.frames.nextOwned core.juliet.maxFrameSize).2 = none
  mapped : ∀ pair ∈ core.requestMap.pairs, ∃ sent ∈ core.history, sent.item.isRequest pair.1 = true
  cancelled : ∀ sent ∈ core.history, ∀ ioId, sent.item = .requestCancellation ioId →
    ∃ request ∈ core.history, request.item.isRequest ioId = true

namespace Ordered

theorem created {i : Fin N} {item : QueuedItem} {msg : OutgoingMessage} {juliet : JulietProtocol N}
    {requestMap : BiMap IoId (ChannelId × Id)} (h : Ordered sent self)
    (hm : juliet.maxFrameSize = self.juliet.maxFrameSize)
    (hreq : ∀ ioId, item.isRequest ioId = true → ∀ sent ∈ self.history,
      sent.item ≠ .requestCancellation ioId)
    (hcancel : ∀ ioId, item = .requestCancellation ioId →
      (∃ sent ∈ self.history, sent.item.isRequest ioId = true) ∧
      ∀ entry ∈ self.readyQueue, ofRequest self.history entry.serial ioId = true →
        (entry.frames.nextOwned self.juliet.maxFrameSize).2 = none)
    (hmap : ∀ pair ∈ requestMap.pairs, item.isRequest pair.1 = true ∨
      pair ∈ self.requestMap.pairs) :
    Ordered sent (self.created i item msg juliet requestMap) := by
  have hready : ∀ entry ∈ self.readyQueue, entry.serial < self.history.length :=
    fun entry he => h.numbered _ (serial_mem_serials he)
  have hnew : ∀ ioId, ofRequest (self.history ++ [⟨item, msg⟩]) self.history.length ioId =
      item.isRequest ioId := by
    intro ioId
    simp [ofRequest]
  refine ⟨serials_lt_created h.numbered, ?_, ?_, ?_, ?_⟩
  · rw [created_serials, created_history, List.pairwise_append]
    refine ⟨?_, List.pairwise_singleton _ _, ?_⟩
    · refine h.order.imp_of_mem ?_
      intro a b ha hb hab
      rwa [overtakes_append (h.numbered a ha) (h.numbered b hb)]
    · rintro a ha b hb ⟨ioId, hc, hr⟩
      rw [List.mem_singleton.mp hb, hnew] at hr
      have hlt := h.numbered a ha
      rw [ofCancellation, List.getElem?_append_left hlt] at hc
      obtain ⟨sent', hs', he⟩ := ofCancellation_mem hc
      exact hreq ioId hr sent' hs' he
  · rw [created_readyQueue, created_history, created_juliet, hm, List.pairwise_append]
    refine ⟨?_, List.pairwise_singleton _ _, ?_⟩
    · refine h.last.imp_of_mem ?_
      intro a b ha hb hab
      rwa [overtakes_append (hready b hb) (hready a ha)]
    · rintro a ha b hb ⟨ioId, hc, hr⟩
      rw [List.mem_singleton.mp hb] at hc
      have hitem : item = .requestCancellation ioId := by simpa [ofCancellation] using hc
      rw [ofRequest, List.getElem?_append_left (hready a ha)] at hr
      exact (hcancel ioId hitem).2 a ha hr
  · intro pair hp
    rw [created_requestMap] at hp
    rw [created_history]
    rcases hmap pair hp with hp | hp
    · exact ⟨⟨item, msg⟩, by simp, hp⟩
    · obtain ⟨sent', hs', hr⟩ := h.mapped pair hp
      exact ⟨sent', List.mem_append_left _ hs', hr⟩
  · intro sent' hs' ioId he
    rw [created_history, List.mem_append, List.mem_singleton] at hs'
    rw [created_history]
    rcases hs' with hs' | rfl
    · obtain ⟨request, hr, hio⟩ := h.cancelled sent' hs' ioId he
      exact ⟨request, List.mem_append_left _ hr, hio⟩
    · obtain ⟨request, hr, hio⟩ := (hcancel ioId he).1
      exact ⟨request, List.mem_append_left _ hr, hio⟩

/-- A request that is created has not been cancelled before. -/
theorem uncancelled {ioId : IoId} (h : Ordered sent self)
    (hnew : requestsOf ioId (self.history.map Sent.item) = 0) :
    ∀ sent ∈ self.history, sent.item ≠ .requestCancellation ioId := by
  intro sent' hs' he
  obtain ⟨request, hr, hio⟩ := h.cancelled sent' hs' ioId he
  exact List.countP_eq_zero.mp hnew request.item (List.mem_map_of_mem hr) hio

/-- Fewer entries, fewer pairs. -/
theorem shrink (h : Ordered sent self) (hh : c.history = self.history)
    (hc : c.currentFrame.map CurrentFrame.serial = self.currentFrame.map CurrentFrame.serial)
    (hq : c.readyQueue.Sublist self.readyQueue)
    (hm : c.juliet.maxFrameSize = self.juliet.maxFrameSize)
    (hmap : ∀ pair ∈ c.requestMap.pairs, pair ∈ self.requestMap.pairs) : Ordered sent c := by
  have hsub : (c.serials sent).Sublist (self.serials sent) := by
    rw [serials, serials, hc]
    exact List.Sublist.append_left (List.Sublist.append_left (hq.map _) _) _
  refine ⟨?_, ?_, ?_, ?_, ?_⟩
  · intro serial hs
    rw [hh]
    exact h.numbered serial (hsub.subset hs)
  · rw [hh]
    exact h.order.sublist hsub
  · rw [hh, hm]
    exact h.last.sublist hq
  · intro pair hp
    rw [hh]
    exact h.mapped pair (hmap pair hp)
  · rw [hh]
    exact h.cancelled

theorem sendStep {item : QueuedItem} {r : Except LocalProtocolViolation Unit}
    (h : Ordered sent self) (hs : SendStep self item r c)
    (hnew : ∀ ioId, item.isRequest ioId = true → requestsOf ioId (self.history.map Sent.item) = 0)
    (hcond : ∀ ioId (channel : ChannelId) (i : Fin N) (id : Id), item = .requestCancellation ioId →
      channel.get.toNat = i →
      (ioId, (channel, id)) ∈ self.requestMap.pairs →
    id ∈ (self.juliet.channels i).outgoingRequests →
      ∀ entry ∈ self.readyQueue, ofRequest self.history entry.serial ioId = true →
        (entry.frames.nextOwned self.juliet.maxFrameSize).2 = none) : Ordered sent c := by
  cases hs with
  | request channel ioId payload i id _ _ _ _ =>
    refine h.created rfl ?_ (by simp) ?_
    · intro ioId' hio
      exact h.uncancelled (hnew ioId' hio)
    · intro pair hp
      rcases BiMap.mem_insert.mp hp with rfl | ⟨hp, _⟩
      · exact .inl (by simp [QueuedItem.isRequest])
      · exact .inr hp
  | cancel ioId channel i id hi hpair hid =>
    refine h.created rfl (by simp [QueuedItem.isRequest]) ?_ (fun pair hp => .inr hp)
    intro ioId' he
    cases QueuedItem.requestCancellation.inj he
    exact ⟨h.mapped _ hpair, hcond ioId channel i id rfl hi hpair hid⟩
  | response channel id payload i _ _ _ =>
    exact h.created rfl (by simp [QueuedItem.isRequest]) (by simp) (fun pair hp => .inr hp)
  | responseCancellation channel id i _ _ =>
    exact h.created rfl (by simp [QueuedItem.isRequest]) (by simp) (fun pair hp => .inr hp)
  | late _ _ _ => exact h
  | refused _ _ => exact h
  | oversized channel id payload i _ _ _ _ => exact h.shrink rfl rfl (.refl _) rfl (fun _ hp => hp)
  | error channel id payload frame _ _ =>
    exact h.shrink rfl rfl (List.nil_sublist _) rfl (by simp [erroring, BiMap.empty])

/-- What is sent from a wait queue keeps the order. -/
theorem scanStep {i : Fin N} (h : Ordered sent self) (hs : ScanStep i self c) (hsound : self.Sound)
    (hone : ∀ ioId, self.copies ioId ≤ 1) : Ordered sent c := by
  have hset : ∀ queue, Ordered sent (self.setWaitQueue i queue) :=
    fun queue => h.shrink rfl rfl (.refl _) rfl (fun _ hp => hp)
  cases hs with
  | rotate item rest channel _ _ => exact hset _
  | promote item rest r c hq _ hs =>
    have hw := hsound.waiting i item (hq ▸ List.mem_cons_self)
    refine (hset rest).sendStep hs ?_ ?_
    · intro ioId hio
      exact unused_of_copies hio (hone ioId) (copies_unqueued hq)
    · intro ioId channel i id he
      rw [he] at hw
      exact hw.elim
  | lose item rest _ => exact hset _

theorem processWaitQueue {channel : ChannelId} {r : Except LocalProtocolViolation Unit}
    (h : Ordered sent self) (hsound : self.Sound) (hone : ∀ ioId, self.copies ioId ≤ 1)
    (hq : self.processWaitQueue channel = .ok (r, c)) :
    Ordered sent c := by
  have hall : Ordered sent c ∧ ∀ ioId, c.copies ioId ≤ 1 := by
    refine hsound.scansKeep (P := fun c => Ordered sent c ∧ ∀ ioId, c.copies ioId ≤ 1) hq
      ⟨h, hone⟩ ?_
    rintro i b c hb ⟨ho, hle⟩ hstep
    exact ⟨ho.scanStep hstep hb hle, fun ioId => hstep.copies_le.trans (hle ioId)⟩
  exact hall.1

theorem handleCompletedRead (h : Ordered sent self) (read : CompletedRead) :
    Ordered sent (self.handleCompletedRead read).2 := by
  rcases self.handleCompletedRead_core read with he | ⟨key, he⟩
  · exact he.symm ▸ h
  · rw [he]
    exact h.shrink rfl rfl (.refl _) rfl (fun _ hp => (BiMap.removeByRight_mem.mp hp).1)

theorem parseStep {outcome : Option ReadOutcome} {result : Option (Except CoreError IoEvent)}
    (h : Ordered sent self) (hsound : self.Sound) (hone : ∀ ioId, self.copies ioId ≤ 1)
    (hs : ParseStep self outcome result c) :
    Ordered sent c := by
  have hparsed : ∀ {o juliet buffer}, self.juliet.processIncoming self.buffer =
      .ok (o, juliet, buffer) →
      Ordered sent (self.parsed juliet buffer) ∧ (self.parsed juliet buffer).Sound := by
    intro o juliet buffer hp
    have hm := (JulietProtocol.processIncoming_settles hsound.valid hp).maxFrameSize
    exact ⟨h.shrink rfl rfl (.refl _) hm (fun _ hp => hp),
      hsound.parsed (hsound.valid.processIncoming hp) buffer⟩
  cases hs with
  | skip _ => exact h
  | incomplete n juliet buffer hp =>
    exact (hparsed hp).1.shrink rfl rfl (.refl _) rfl (fun _ hp => hp)
  | fatal errMsg juliet buffer frame hp _ _ =>
    exact (hparsed hp).1.shrink rfl rfl (List.nil_sublist _) rfl (by simp [erroring, BiMap.empty])
  | event read juliet buffer hp _ => exact (hparsed hp).1.handleCompletedRead read
  | response channel id payload juliet buffer c hp hq =>
    exact ((hparsed hp).1.processWaitQueue (hparsed hp).2 hone hq).handleCompletedRead _
  | violation channel id payload juliet buffer err c hp hq =>
    exact (hparsed hp).1.processWaitQueue (hparsed hp).2 hone hq

theorem readyStep (h : Ordered sent self) (hs : ReadyStep self c) : Ordered sent c := by
  cases hs with
  | busy _ _ => exact h
  | empty _ _ => exact h
  | final entry rest hnone hq _ =>
    have hserials : self.serials sent = sent ++ (entry.serial :: rest.map ReadyEntry.serial) := by
      simp [serials, hnone, hq]
    have hlast := h.last
    have hnum := h.numbered
    have hord := h.order
    rw [hq] at hlast
    rw [hserials] at hnum hord
    exact ⟨hnum, hord, (List.pairwise_cons.mp hlast).2, h.mapped, h.cancelled⟩
  | more entry rest next hnone hq hn =>
    have hserials : self.serials sent = sent ++ entry.serial :: rest.map ReadyEntry.serial := by
      simp [serials, hnone, hq]
    have hlast := h.last
    have hnum := h.numbered
    have hord := h.order
    rw [hq] at hlast
    rw [hserials] at hnum hord
    obtain ⟨hfront, hrest⟩ := List.pairwise_cons.mp hlast
    obtain ⟨_, hqueue, hsent⟩ := List.pairwise_append.mp hord
    have hserials' : { self with
        readyQueue := rest ++ [ReadyEntry.mk entry.serial next]
        currentFrame := some ⟨(entry.frames.nextOwned self.juliet.maxFrameSize).1, false,
          entry.serial⟩ }.serials sent =
          (sent ++ entry.serial :: rest.map ReadyEntry.serial) ++ [entry.serial] := by
      simp [serials]
    refine ⟨?_, ?_, ?_, h.mapped, h.cancelled⟩
    · intro serial hs
      rw [hserials', List.mem_append, List.mem_singleton] at hs
      rcases hs with hs | rfl
      · exact hnum serial hs
      · exact hnum _ (by simp)
    · -- the rest of the message goes behind all others, among them no cancellation of it
      rw [hserials', List.pairwise_append]
      refine ⟨hord, List.pairwise_singleton _ _, ?_⟩
      intro a ha b hb
      rw [List.mem_singleton.mp hb]
      rcases List.mem_append.mp ha with ha | ha
      · exact hsent a ha _ List.mem_cons_self
      · rcases List.mem_cons.mp ha with rfl | ha
        · exact not_overtakes_self _ _
        · obtain ⟨cancel, hc, rfl⟩ := List.mem_map.mp ha
          intro hover
          simp [hfront cancel hc hover] at hn
    · refine List.pairwise_append.mpr ⟨hrest, List.pairwise_singleton _ _, ?_⟩
      intro a ha b hb hover
      rw [List.mem_singleton.mp hb] at hover
      exact absurd hover ((List.pairwise_cons.mp hqueue).1 a.serial (List.mem_map_of_mem ha))

/-- The current frame counts as sent, once or twice. -/
theorem sent_current {current : CurrentFrame} {active : Fin N → Option Header}
    {frame : Option CurrentFrame} (h : Ordered sent self) (hc : self.currentFrame = some current)
    (hf : ∀ c ∈ frame, c.serial = current.serial) :
    Ordered (sent ++ [current.serial])
      { self with currentFrame := frame, activeMultiFrame := active } := by
  have hserials : self.serials sent =
      sent ++ current.serial :: self.readyQueue.map ReadyEntry.serial := by
    simp [serials, hc]
  have hnum := h.numbered
  have hord := h.order
  rw [hserials] at hnum hord
  cases frame with
  | none =>
    have hserials' : { self with currentFrame := none, activeMultiFrame := active }.serials
      (sent ++ [current.serial]) =
        sent ++ current.serial :: self.readyQueue.map ReadyEntry.serial := by
      simp [serials]
    refine ⟨?_, ?_, h.last, h.mapped, h.cancelled⟩
    · rwa [hserials']
    · rwa [hserials']
  | some again =>
    have hagain := hf again rfl
    have hserials' : { self with currentFrame := some again, activeMultiFrame := active }.serials
      (sent ++ [current.serial]) =
        sent ++ current.serial :: current.serial :: self.readyQueue.map ReadyEntry.serial := by
      simp [serials, hagain]
    obtain ⟨hpre, hqueue, hcross⟩ := List.pairwise_append.mp hord
    refine ⟨?_, ?_, h.last, h.mapped, h.cancelled⟩
    · intro serial hs
      rw [hserials'] at hs
      exact hnum serial (by simpa using hs)
    · rw [hserials']
      refine List.pairwise_append.mpr ⟨hpre, List.pairwise_cons.mpr ⟨?_, hqueue⟩, ?_⟩
      · intro b hb
        rcases List.mem_cons.mp hb with rfl | hb
        · exact not_overtakes_self _ _
        · exact (List.pairwise_cons.mp hqueue).1 b hb
      · intro a ha b hb
        exact hcross a ha b (by simpa using hb)

theorem sentStep {current : CurrentFrame} {r : Except CoreError Unit} (h : Ordered sent self)
    (hc : self.currentFrame = some current) (hsound : self.Sound)
    (hone : ∀ ioId, self.copies ioId ≤ 1) (hs : SentStep self current r c) :
    Ordered (sent ++ [current.serial]) c := by
  cases hs with
  | error active _ => exact h.sent_current hc (by simp)
  | scanned i c _ hq | violation i c err _ hq =>
    have hcleared : Ordered (sent ++ [current.serial]) (self.cleared current i) :=
      h.sent_current hc (by simp)
    exact hcleared.processWaitQueue (hsound.cleared current i) hone hq

end Ordered

end IoCore

namespace IoTask

variable {N : Nat} {t t' : IoTask N}

/-- The serials of the frames of which bytes have been written, in order. -/
def writtenSerials (t : IoTask N) : List Nat :=
  t.sentFrames.map Prod.fst ++
    ((t.core.currentFrame.filter fun current => 0 < current.frame.position).map
      CurrentFrame.serial).toList

/-- No frame of a request is written behind the frame that cancels it. -/
def CancelledLast (t : IoTask N) : Prop :=
  t.writtenSerials.Pairwise fun a b => ∀ ioId, ofCancellation t.core.history a ioId = true →
    ofRequest t.core.history b ioId = false

/-- Whether a cancellation of the request leads to a `CancelReq` frame. -/
def cancels (core : IoCore N) (ioId : IoId) : Bool :=
  match core.requestMap.getByLeft ioId with
  | some (channel, id) =>
    match (core.juliet.cancelRequest channel id).1 with
    | .ok (some _) => true
    | _ => false
  | none => false

/-- A request is cancelled only when at most one of its frames is left in the ready queue. -/
def cancelsFinished (t : IoTask N) (a : IoAct) : Bool :=
  match a, t.core.receiver.queue with
  | .recv, .requestCancellation ioId :: _ | .tryRecv, .requestCancellation ioId :: _ =>
    !cancels t.core ioId || t.core.readyQueue.all
      fun entry => !ofRequest t.core.history entry.serial ioId ||
      (entry.frames.nextOwned t.core.juliet.maxFrameSize).2.isNone
  | _, _ => true

/-- What carries `CancelledLast` from step to step. -/
structure InOrder (t : IoTask N) : Prop where
  sound : t.core.Sound
  unique : t.Unique
  ordered : t.core.Ordered (t.sentFrames.map Prod.fst)

theorem InOrder.cancelledLast (h : InOrder t) : CancelledLast t := by
  have hsub : t.writtenSerials.Sublist (t.core.serials (t.sentFrames.map Prod.fst)) := by
    refine List.Sublist.append_left ?_ _
    refine List.Sublist.trans ?_ (List.sublist_append_left _ _)
    cases t.core.currentFrame with
    | none => simp
    | some current =>
      by_cases h0 : 0 < current.frame.position
      · simp [Option.filter, h0]
      · simp [Option.filter, h0]
  refine (h.ordered.order.sublist hsub).imp ?_
  intro a b hab ioId hc
  rw [Bool.eq_false_iff]
  exact fun hr => hab ⟨ioId, hc, hr⟩

theorem cancels_of {core : IoCore N} {ioId : IoId} {channel : ChannelId} {i : Fin N} {id : Id}
    (hi : channel.get.toNat = i) (hpair : (ioId, (channel, id)) ∈ core.requestMap.pairs)
    (hid : id ∈ (core.juliet.channels i).outgoingRequests) : cancels core ioId = true := by
  simp [cancels, BiMap.getByLeft_eq_some.mpr hpair, JulietProtocol.cancelRequest,
    JulietProtocol.lookupChannel_of hi, hid]

namespace InOrder

theorem dequeued (h : InOrder t) (rest : List QueuedItem) :
    (t.dequeued rest).Ordered (t.sentFrames.map Prod.fst) :=
  h.ordered.shrink rfl rfl (.refl _) rfl (fun _ hp => hp)

theorem currentWritten {current : CurrentFrame} (h : InOrder t)
    (hc : t.core.currentFrame = some current) (k : Nat) :
    (t.currentWritten current k).core.Ordered (t.sentFrames.map Prod.fst) :=
  h.ordered.shrink rfl (by rw [hc]; rfl) (.refl _) rfl (fun _ hp => hp)

theorem item {a : IoAct} {item : QueuedItem} {rest : List QueuedItem} {core : IoCore N}
    {r : Except LocalProtocolViolation Unit} (h : InOrder t) (hok : cancelsFinished t a = true)
    (ha : a = .recv ∨ a = .tryRecv) (hq : t.core.receiver.queue = item :: rest)
    (hs : (t.dequeued rest).ItemStep item r core) : core.Ordered (t.sentFrames.map Prod.fst) := by
  cases hs with
  | refused _ _ => exact h.dequeued rest
  | wait channel i _ _ => exact (h.dequeued rest).shrink rfl rfl (.refl _) rfl (fun _ hp => hp)
  | send r c _ hs =>
    refine (h.dequeued rest).sendStep hs ?_ ?_
    · intro ioId hio
      exact IoCore.unused_of_copies hio (h.unique.copies_le ioId) (copies_dequeued hq ioId)
    · rintro ioId channel i id rfl hi hpair hid entry he hreq
      have hcancels : cancels t.core ioId = true := cancels_of hi hpair hid
      have hall : t.core.readyQueue.all (fun entry => !ofRequest t.core.history entry.serial ioId ||
          (entry.frames.nextOwned t.core.juliet.maxFrameSize).2.isNone) = true := by
        rcases ha with rfl | rfl <;> simpa [cancelsFinished, hq, hcancels] using hok
      have hentry := List.all_eq_true.mp hall entry he
      rw [show ofRequest t.core.history entry.serial ioId = true from hreq] at hentry
      have hnone : (entry.frames.nextOwned t.core.juliet.maxFrameSize).2 = none := by
        simpa using hentry
      exact hnone

theorem step {a : IoAct} (h : InOrder t) (hok : cancelsFinished t a = true) (hs : Step t a t') :
    InOrder t' where
  sound := hs.sound h.sound
  unique := h.unique.step hs
  ordered := by
    cases hs with
    | enqueue item issued _ _ _ => exact h.dequeued _
    | dropHandles => exact h.ordered.shrink rfl rfl (.refl _) rfl (fun _ hp => hp)
    | event outcome event core _ _ hparse =>
      exact h.ordered.parseStep h.sound h.unique.copies_le hparse
    | failed outcome err core _ _ hparse =>
      exact h.ordered.parseStep h.sound h.unique.copies_le hparse
    | selecting outcome core core' _ _ hparse hready =>
      exact (h.ordered.parseStep h.sound h.unique.copies_le hparse).readyStep hready
    | writeSome current k _ hc _ _ => exact h.currentWritten hc k
    | writeAll current core position r _ hc _ hsent _ =>
      simp only [List.map_append, List.map_cons, List.map_nil]
      have hdone := (h.currentWritten hc _).sentStep rfl (sound_currentWritten h.sound hc _)
        h.unique.copies_le hsent
      exact hdone
    | writeAllPanic current _ hc _ =>
      simp only [List.map_append, List.map_cons, List.map_nil]
      exact h.ordered.sent_current hc (by simp)
    | writeSomeError pending data k _ _ _ _ =>
      exact h.ordered.shrink rfl rfl (.refl _) rfl (fun _ hp => hp)
    | writeAllError pending data _ _ _ =>
      exact h.ordered.shrink rfl rfl (.refl _) rfl (fun _ hp => hp)
    | read bytes position _ _ _ _ => exact h.ordered.shrink rfl rfl (.refl _) rfl (fun _ hp => hp)
    | taken a item rest core ha _ hq hi | rejected a item rest core _ ha _ hq hi =>
      exact h.item hok ha hq (IoCore.handleIncomingItem_steps hi)
    | _ => exact h.ordered

theorem new (builder : ProtocolBuilder N) : InOrder (IoTask.new builder) where
  sound := IoCore.new_sound builder
  unique := Unique.new builder
  ordered := by
    refine ⟨?_, ?_, ?_, ?_, ?_⟩ <;> simp [IoTask.new, IoCore.new, IoCore.serials, BiMap.empty]

end InOrder

/-- In every run in which requests are cancelled only with their last frame at hand, no frame of a
request is written behind the frame that cancels it. -/
theorem cancellation_written_last {builder : ProtocolBuilder N}
    (h : Reach builder cancelsFinished t) : CancelledLast t :=
  (Reach.keeps (InOrder.new builder) (fun hP hok hs => hP.step hok hs) h).cancelledLast

/-- One channel for requests of up to three frames. -/
def longBuilder : ProtocolBuilder 1 := ⟨fun _ => ⟨1, 20, 8⟩, .smallest⟩

/-- A request that is enqueued, taken up and, with its first frame at hand, cancelled. -/
def cancelledSend (payload : Bytes) : List IoAct :=
  [.enqueue (.request ⟨0⟩ ⟨1⟩ (some payload)), .turn, .recv, .tryRecv, .turn,
    .enqueue (.requestCancellation ⟨1⟩), .recv, .tryRecv, .turn, .write 10, .turn]

/-- The last of three frames of a request follows the `CancelReq` frame for it. -/
theorem request_continues_after_cancel :
    ∃ t, run longBuilder anyStep (cancelledSend [1, 2, 3, 4, 5, 6, 7, 8, 9, 10, 11, 12] ++
        [.write 10, .turn, .write 4, .turn, .write 5]) = some t ∧ Reach longBuilder anyStep t ∧
      t.sentFrames.map Prod.fst = [0, 0, 1, 0] ∧ ofCancellation t.core.history 1 ⟨1⟩ = true ∧
      ofRequest t.core.history 0 ⟨1⟩ = true ∧ ¬ CancelledLast t := by
  have hrun : (run longBuilder anyStep (cancelledSend [1, 2, 3, 4, 5, 6, 7, 8, 9, 10, 11, 12] ++
      [.write 10, .turn, .write 4, .turn,
        .write 5])).map (fun t => (t.sentFrames.map Prod.fst, t.writtenSerials,
        ofCancellation t.core.history 1 ⟨1⟩, ofRequest t.core.history 0 ⟨1⟩)) =
          some ([0, 0, 1, 0], [0, 0, 1, 0], true, true) := rfl
  obtain ⟨t, ht, he⟩ := Option.map_eq_some_iff.mp hrun
  simp only [Prod.mk.injEq] at he
  obtain ⟨hsent, hw, hc, hr⟩ := he
  refine ⟨t, ht, Transition.Reach.exec .start ht, hsent, hc, hr, ?_⟩
  intro h
  rw [CancelledLast, hw] at h
  have hlast := List.rel_of_pairwise_cons (h.sublist (List.drop_sublist 2 [0, 0, 1, 0]))
    List.mem_cons_self
  rw [hlast ⟨1⟩ hc] at hr
  simp at hr

/-- The second and last frame of a request that is cancelled during the first one. -/
theorem cancellation_written_last_two_frames :
    ∃ t, run longBuilder cancelsFinished (cancelledSend [1, 2, 3, 4, 5, 6, 7, 8] ++ [.write 7,
      .turn, .write 4]) = some t ∧
      t.sentFrames.map Prod.fst = [0, 0, 1] ∧ CancelledLast t := by
  have hrun : (run longBuilder cancelsFinished (cancelledSend [1, 2, 3, 4, 5, 6, 7, 8] ++
      [.write 7, .turn, .write 4])).map (fun t => t.sentFrames.map Prod.fst) = some [0, 0, 1] := rfl
  obtain ⟨t, ht, hsent⟩ := Option.map_eq_some_iff.mp hrun
  exact ⟨t, ht, hsent, cancellation_written_last (Transition.Reach.exec .start ht)⟩

end IoTask

end Juliet
