import Juliet.ChunkedInput
import Juliet.Flight

namespace Juliet

open Rust

/-- Whether the message with this serial cancels any request. -/
def Cancelling (history : List Sent) (serial : Nat) : Prop :=
  ∃ ioId, ofCancellation history serial ioId = true

theorem ofCancellation_append {history : List Sent} {serial : Nat} {ioId : IoId}
    (h : serial < history.length) (rest : List Sent) :
    ofCancellation (history ++ rest) serial ioId = ofCancellation history serial ioId := by
  simp only [ofCancellation, List.getElem?_append_left h]

theorem ofCancellation_new {history : List Sent} {item : QueuedItem} {msg : OutgoingMessage}
    {ioId : IoId} :
    ofCancellation (history ++ [⟨item, msg⟩]) history.length ioId = true ↔
    item = .requestCancellation ioId := by
  simp [ofCancellation]

theorem ofCancellation_lt {history : List Sent} {serial : Nat} {ioId : IoId}
    (h : ofCancellation history serial ioId = true) : serial < history.length := by
  by_contra hge
  rw [ofCancellation, List.getElem?_eq_none (by omega)] at h
  simp at h

/-- A message that cancels a request has no second frame. -/
theorem cancellation_single {item : QueuedItem} {msg : OutgoingMessage} {N : Nat} {ioId : IoId}
    (hm : Sent.Made N ⟨item, msg⟩) (hi : item = .requestCancellation ioId) (m : MaxFrameSize) :
    (msg.frames.nextOwned m).2 = none := by
  cases hm with
  | requestCancellation ioId channel id _ =>
    refine FrameIter.nextOwned_none_iff.mpr ?_
    intro pl hp
    simp [OutgoingMessage.frames, createUncheckedRequestCancellation, OutgoingMessage.new] at hp
  | _ => simp at hi

namespace IoCore

variable {N : Nat} {self c : IoCore N} {sent : List Nat}

/-- Whether the request with the id has been sent and not been answered yet. -/
def outstanding (self : IoCore N) (ioId : IoId) : Bool :=
  self.requestMap.pairs.any fun pair => pair.1 = ioId ∧
    ∃ i : Fin N, pair.2.1.get.toNat = i ∧ pair.2.2 ∈ (self.juliet.channels i).outgoingRequests

/-- No request is cancelled by two messages, and no cancellation has two frames. -/
structure CancelledOnce (sent : List Nat) (core : IoCore N) : Prop where
  numbered : ∀ serial ∈ core.serials sent, serial < core.history.length
  unique : ∀ a b ioId, ofCancellation core.history a ioId = true →
    ofCancellation core.history b ioId = true → a = b
  single : ∀ serial, Cancelling core.history serial → (core.serials sent).count serial ≤ 1
  final : ∀ entry ∈ core.readyQueue, Cancelling core.history entry.serial →
    (entry.frames.nextOwned core.juliet.maxFrameSize).2 = none

namespace CancelledOnce

theorem created {i : Fin N} {item : QueuedItem} {msg : OutgoingMessage} {juliet : JulietProtocol N}
    {requestMap : BiMap IoId (ChannelId × Id)} (h : CancelledOnce sent self)
    (hm : juliet.maxFrameSize = self.juliet.maxFrameSize) (hmade : Sent.Made N ⟨item, msg⟩)
    (hnew : ∀ ioId, item = .requestCancellation ioId → ∀ sent ∈ self.history,
      sent.item ≠ .requestCancellation ioId) :
    CancelledOnce sent (self.created i item msg juliet requestMap) := by
  have hfresh : self.history.length ∉ self.serials sent :=
    fun hk => Nat.lt_irrefl _ (h.numbered _ hk)
  -- the new message and an old one do not cancel the same request
  have hmixed : ∀ {a ioId}, ofCancellation self.history a ioId = true →
      item ≠ .requestCancellation ioId := by
    intro a ioId ha hitem
    obtain ⟨sent', hs', he⟩ := ofCancellation_mem ha
    exact hnew ioId hitem sent' hs' he
  have hsplit : ∀ {a ioId}, ofCancellation (self.history ++ [⟨item, msg⟩]) a ioId = true →
      a < self.history.length ∧ ofCancellation self.history a ioId = true ∨
        a = self.history.length ∧ item = .requestCancellation ioId := by
    intro a ioId ha
    have hlt := ofCancellation_lt ha
    rw [List.length_append, List.length_singleton] at hlt
    rcases Nat.lt_succ_iff_lt_or_eq.mp hlt with hlt | rfl
    · rw [ofCancellation_append hlt] at ha
      exact .inl ⟨hlt, ha⟩
    · exact .inr ⟨rfl, ofCancellation_new.mp ha⟩
  refine ⟨serials_lt_created h.numbered, ?_, ?_, ?_⟩
  · intro a b ioId ha hb
    rw [created_history] at ha hb
    rcases hsplit ha with ⟨_, ha⟩ | ⟨hla, hitem⟩
    · rcases hsplit hb with ⟨_, hb⟩ | ⟨_, hitem⟩
      · exact h.unique a b ioId ha hb
      · exact absurd hitem (hmixed ha)
    · rcases hsplit hb with ⟨_, hb⟩ | ⟨hlb, _⟩
      · exact absurd hitem (hmixed hb)
      · exact hla.trans hlb.symm
  · rintro serial ⟨ioId, hs⟩
    rw [created_history] at hs
    rw [created_serials, List.count_append]
    rcases hsplit hs with ⟨hlt, hs⟩ | ⟨rfl, _⟩
    · have hone := h.single serial ⟨ioId, hs⟩
      have hne : [self.history.length].count serial = 0 := List.count_eq_zero.mpr (by simp; omega)
      omega
    · rw [List.count_eq_zero.mpr hfresh]
      simp
  · intro entry he
    rw [created_readyQueue, List.mem_append, List.mem_singleton] at he
    rw [created_history, created_juliet, hm]
    rintro ⟨ioId, hc⟩
    rcases he with he | rfl
    · refine h.final entry he ⟨ioId, ?_⟩
      have hlt : entry.serial < self.history.length := h.numbered _ (serial_mem_serials he)
      rwa [ofCancellation_append hlt] at hc
    · exact cancellation_single hmade (ofCancellation_new.mp hc) _

/-- Fewer entries. -/
theorem shrink (h : CancelledOnce sent self) (hh : c.history = self.history)
    (hc : c.currentFrame.map CurrentFrame.serial = self.currentFrame.map CurrentFrame.serial)
    (hq : c.readyQueue.Sublist self.readyQueue)
    (hm : c.juliet.maxFrameSize = self.juliet.maxFrameSize) :
    CancelledOnce sent c := by
  have hsub : (c.serials sent).Sublist (self.serials sent) := by
    rw [serials, serials, hc]
    exact List.Sublist.append_left (List.Sublist.append_left (hq.map _) _) _
  refine ⟨?_, ?_, ?_, ?_⟩
  · intro serial hs
    rw [hh]
    exact h.numbered serial (hsub.subset hs)
  · rw [hh]
    exact h.unique
  · rw [hh]
    intro serial hs
    exact (hsub.count_le serial).trans (h.single serial hs)
  · rw [hh, hm]
    intro entry he
    exact h.final entry (hq.subset he)

theorem sendStep {item : QueuedItem} {r : Except LocalProtocolViolation Unit}
    (h : CancelledOnce sent self) (hs : SendStep self item r c)
    (hcond : ∀ ioId, item = .requestCancellation ioId → self.outstanding ioId = true →
      ∀ sent ∈ self.history, sent.item ≠ .requestCancellation ioId) : CancelledOnce sent c := by
  have hlt : ∀ {channel : ChannelId} {i : Fin N}, channel.get.toNat = i →
      channel.get.toNat < N := by
    intro channel i hi
    rw [hi]
    exact i.isLt
  cases hs with
  | request channel ioId payload i id hi _ _ _ =>
    exact h.created rfl (.request channel ioId payload id (hlt hi)) (by simp)
  | cancel ioId channel i id hi hpair hid =>
    refine h.created rfl (.requestCancellation ioId channel id (hlt hi)) ?_
    intro ioId' he
    cases QueuedItem.requestCancellation.inj he
    refine hcond ioId rfl ?_
    rw [outstanding, List.any_eq_true]
    exact ⟨_, hpair, decide_eq_true ⟨rfl, i, hi, hid⟩⟩
  | response channel id payload i hi _ _ =>
    exact h.created rfl (.response channel id payload (hlt hi)) (by simp)
  | responseCancellation channel id i hi _ =>
    exact h.created rfl (.responseCancellation channel id (hlt hi)) (by simp)
  | late _ _ _ => exact h
  | refused _ _ => exact h
  | oversized channel id payload i _ _ _ _ => exact h.shrink rfl rfl (.refl _) rfl
  | error channel id payload frame _ _ => exact h.shrink rfl rfl (List.nil_sublist _) rfl

theorem processWaitQueue {channel : ChannelId} {r : Except LocalProtocolViolation Unit}
    (h : CancelledOnce sent self) (hsound : self.Sound)
    (hq : self.processWaitQueue channel = .ok (r, c)) : CancelledOnce sent c := by
  refine hsound.scansKeep hq h ?_
  intro i b c hb ih hstep
  have hset : ∀ queue, CancelledOnce sent (b.setWaitQueue i queue) :=
    fun queue => ih.shrink rfl rfl (.refl _) rfl
  cases hstep with
  | rotate item rest channel _ _ => exact hset _
  | promote item rest r c hq _ hs =>
    -- no cancellation waits
    have hw := hb.waiting i item (hq ▸ List.mem_cons_self)
    refine (hset rest).sendStep hs ?_
    rintro ioId rfl
    exact hw.elim
  | lose item rest _ => exact hset _

theorem handleCompletedRead (h : CancelledOnce sent self) (read : CompletedRead) :
    CancelledOnce sent (self.handleCompletedRead read).2 := by
  rcases self.handleCompletedRead_core read with he | ⟨key, he⟩
  · exact he.symm ▸ h
  · rw [he]
    exact h.shrink rfl rfl (.refl _) rfl

theorem parseStep {outcome : Option ReadOutcome} {result : Option (Except CoreError IoEvent)}
    (h : CancelledOnce sent self) (hsound : self.Sound) (hs : ParseStep self outcome result c) :
    CancelledOnce sent c := by
  have hparsed : ∀ {o juliet buffer}, self.juliet.processIncoming self.buffer =
      .ok (o, juliet, buffer) →
      CancelledOnce sent (self.parsed juliet buffer) ∧ (self.parsed juliet buffer).Sound := by
    intro o juliet buffer hp
    have hm := (JulietProtocol.processIncoming_settles hsound.valid hp).maxFrameSize
    exact ⟨h.shrink rfl rfl (.refl _) hm, hsound.parsed (hsound.valid.processIncoming hp) buffer⟩
  cases hs with
  | skip _ => exact h
  | incomplete n juliet buffer hp => exact (hparsed hp).1.shrink rfl rfl (.refl _) rfl
  | fatal errMsg juliet buffer frame hp _ _ =>
    exact (hparsed hp).1.shrink rfl rfl (List.nil_sublist _) rfl
  | event read juliet buffer hp _ => exact (hparsed hp).1.handleCompletedRead read
  | response channel id payload juliet buffer c hp hq =>
    exact ((hparsed hp).1.processWaitQueue (hparsed hp).2 hq).handleCompletedRead _
  | violation channel id payload juliet buffer err c hp hq =>
    exact (hparsed hp).1.processWaitQueue (hparsed hp).2 hq

theorem readyStep (h : CancelledOnce sent self) (hs : ReadyStep self c) : CancelledOnce sent c := by
  cases hs with
  | busy _ _ => exact h
  | empty _ _ => exact h
  | final entry rest hnone hq _ =>
    have hserials : self.serials sent = sent ++ entry.serial :: rest.map ReadyEntry.serial := by
      simp [serials, hnone, hq]
    have hnum := h.numbered
    have hsingle := h.single
    rw [hserials] at hnum hsingle
    exact ⟨hnum, h.unique, hsingle,
      fun other ho => h.final other (hq ▸ List.mem_cons_of_mem entry ho)⟩
  | more entry rest next hnone hq hn =>
    have hserials : self.serials sent = sent ++ entry.serial :: rest.map ReadyEntry.serial := by
      simp [serials, hnone, hq]
    have hserials' : { self with
        readyQueue := rest ++ [ReadyEntry.mk entry.serial next]
        currentFrame := some ⟨(entry.frames.nextOwned self.juliet.maxFrameSize).1, false,
          entry.serial⟩ }.serials sent =
          self.serials sent ++ [entry.serial] := by
      simp [serials, hnone, hq]
    -- only what has another frame goes back into the queue
    have hother : ¬ Cancelling self.history entry.serial := by
      intro hc
      rw [h.final entry (hq ▸ List.mem_cons_self) hc] at hn
      simp at hn
    refine ⟨?_, h.unique, ?_, ?_⟩
    · intro serial hs
      rw [hserials', List.mem_append, List.mem_singleton] at hs
      rcases hs with hs | rfl
      · exact h.numbered serial hs
      · exact h.numbered _ (by simp [hserials])
    · intro serial hc
      rw [hserials', List.count_append]
      have hne : [entry.serial].count serial = 0 := by
        refine List.count_eq_zero.mpr ?_
        rw [List.mem_singleton]
        rintro rfl
        exact hother hc
      have hone := h.single serial hc
      omega
    · intro other ho hc
      rcases List.mem_append.mp ho with ho | ho
      · exact h.final other (hq ▸ List.mem_cons_of_mem entry ho) hc
      · rw [List.mem_singleton.mp ho] at hc
        exact absurd hc hother

/-- The current frame counts as sent. -/
theorem sent_current {current : CurrentFrame} {active : Fin N → Option Header}
    (h : CancelledOnce sent self) (hc : self.currentFrame = some current) :
    CancelledOnce (sent ++ [current.serial])
      { self with currentFrame := none, activeMultiFrame := active } := by
  have hserials : { self with currentFrame := none, activeMultiFrame := active }.serials
    (sent ++ [current.serial]) =
      self.serials sent := by
    simp [serials, hc]
  refine ⟨?_, h.unique, ?_, h.final⟩
  · rw [hserials]
    exact h.numbered
  · rw [hserials]
    exact h.single

theorem sentStep {current : CurrentFrame} {r : Except CoreError Unit} (h : CancelledOnce sent self)
    (hc : self.currentFrame = some current) (hsound : self.Sound) (hs : SentStep self current r c) :
    CancelledOnce (sent ++ [current.serial]) c := by
  cases hs with
  | error active _ => exact h.sent_current hc
  | scanned i c _ hq | violation i c err _ hq =>
    have hcleared : CancelledOnce (sent ++ [current.serial]) (self.cleared current i) :=
      h.sent_current hc
    exact hcleared.processWaitQueue (hsound.cleared current i) hq

end CancelledOnce

end IoCore

namespace IoTask

variable {N : Nat} {t t' : IoTask N}

/-- The frames that cancel the request: those written, the one being written and those queued. -/
def cancelFrames (t : IoTask N) (ioId : IoId) : List Nat :=
  (t.core.serials (t.sentFrames.map Prod.fst)).filter
    fun serial => ofCancellation t.core.history serial ioId

/-- A request for which a `CancelReq` message has been created is not cancelled again before it has
been answered. -/
def cancelsOnce (t : IoTask N) (a : IoAct) : Bool :=
  match a, t.core.receiver.queue with
  | .recv, .requestCancellation ioId :: _ | .tryRecv, .requestCancellation ioId :: _ =>
    !t.core.outstanding ioId ||
      !t.core.history.any fun sent => sent.item = .requestCancellation ioId
  | _, _ => true

/-- What carries the single cancellation from step to step. -/
structure Sparing (t : IoTask N) : Prop where
  sound : t.core.Sound
  once : t.core.CancelledOnce (t.sentFrames.map Prod.fst)

namespace Sparing

theorem item {a : IoAct} {item : QueuedItem} {rest : List QueuedItem} {core : IoCore N}
    {r : Except LocalProtocolViolation Unit} (h : Sparing t) (hok : cancelsOnce t a = true)
    (ha : a = .recv ∨ a = .tryRecv) (hq : t.core.receiver.queue = item :: rest)
    (hs : (t.dequeued rest).ItemStep item r core) :
    core.CancelledOnce (t.sentFrames.map Prod.fst) := by
  have hdeq : (t.dequeued rest).CancelledOnce (t.sentFrames.map Prod.fst) :=
    h.once.shrink rfl rfl (.refl _) rfl
  cases hs with
  | refused _ _ => exact hdeq
  | wait channel i _ _ => exact hdeq.shrink rfl rfl (.refl _) rfl
  | send r c _ hs =>
    refine hdeq.sendStep hs ?_
    rintro ioId rfl hout sent' hs' he
    have hout' : t.core.outstanding ioId = true := hout
    have hnone : t.core.history.any
        (fun sent => sent.item = .requestCancellation ioId) = false := by
      rcases ha with rfl | rfl <;> simpa [cancelsOnce, hq, hout'] using hok
    have hany : t.core.history.any (fun sent => sent.item = .requestCancellation ioId) = true :=
      List.any_eq_true.mpr ⟨sent', hs', by simpa using he⟩
    rw [hnone] at hany
    simp at hany

theorem step {a : IoAct} (h : Sparing t) (hok : cancelsOnce t a = true) (hs : Step t a t') :
    Sparing t' where
  sound := hs.sound h.sound
  once := by
    have hcurrent : ∀ {current}, t.core.currentFrame = some current → ∀ k,
        (t.currentWritten current k).core.CancelledOnce (t.sentFrames.map Prod.fst) :=
      fun hc k => h.once.shrink rfl (by rw [hc]; rfl) (.refl _) rfl
    cases hs with
    | enqueue item issued _ _ _ => exact h.once.shrink rfl rfl (.refl _) rfl
    | dropHandles => exact h.once.shrink rfl rfl (.refl _) rfl
    | event outcome event core _ _ hparse => exact h.once.parseStep h.sound hparse
    | failed outcome err core _ _ hparse => exact h.once.parseStep h.sound hparse
    | selecting outcome core core' _ _ hparse hready =>
      exact (h.once.parseStep h.sound hparse).readyStep hready
    | writeSome current k _ hc _ _ => exact hcurrent hc k
    | writeAll current core position r _ hc _ hsent _ =>
      simp only [List.map_append, List.map_cons, List.map_nil]
      have hdone := (hcurrent hc current.frame.remaining).sentStep rfl
        (sound_currentWritten h.sound hc _) hsent
      exact hdone
    | writeAllPanic current _ hc _ hpanic =>
      obtain ⟨result, hresult⟩ := frameSent_current h.sound hc current.frame.remaining
      exact absurd hresult (hpanic result)
    | writeSomeError pending data k _ _ _ _ => exact h.once.shrink rfl rfl (.refl _) rfl
    | writeAllError pending data _ _ _ => exact h.once.shrink rfl rfl (.refl _) rfl
    | read bytes position _ _ _ _ => exact h.once.shrink rfl rfl (.refl _) rfl
    | taken a item rest core ha _ hq hi | rejected a item rest core _ ha _ hq hi =>
      exact h.item hok ha hq (IoCore.handleIncomingItem_steps hi)
    | _ => exact h.once

theorem new (builder : ProtocolBuilder N) : Sparing (IoTask.new builder) where
  sound := IoCore.new_sound builder
  once := by
    refine ⟨?_, ?_, ?_, ?_⟩ <;> simp [IoTask.new, IoCore.new, IoCore.serials, ofCancellation]

theorem cancelFrames_le (h : Sparing t) (ioId : IoId) : (t.cancelFrames ioId).length ≤ 1 := by
  rw [cancelFrames, ← List.countP_eq_length_filter]
  by_contra hmany
  obtain ⟨serial, _, hs⟩ :=
    List.countP_pos_iff.mp (Nat.lt_of_lt_of_le Nat.zero_lt_one (Nat.le_of_not_le hmany))
  have hsame : (t.core.serials (t.sentFrames.map Prod.fst)).countP
      (fun k => ofCancellation t.core.history k ioId) ≤
      (t.core.serials (t.sentFrames.map Prod.fst)).count serial := by
    refine List.countP_mono_left ?_
    intro k _ hk
    rw [beq_iff_eq]
    exact h.once.unique k serial ioId hk hs
  exact hmany (hsame.trans (h.once.single serial ⟨ioId, hs⟩))

end Sparing

/-- In every run in which no request is cancelled again while its answer is outstanding, there is at
most one frame that cancels it. -/
theorem cancelled_once {builder : ProtocolBuilder N} (h : Reach builder cancelsOnce t)
    (ioId : IoId) :
    (t.cancelFrames ioId).length ≤ 1 :=
  (Reach.keeps (Sparing.new builder) (fun hP hok hs => hP.step hok hs) h).cancelFrames_le ioId

/-- A request that is sent and then cancelled, with its `CancelReq` frame written. -/
def sentAndCancelled : List IoAct :=
  [.enqueue (.request ⟨0⟩ ⟨1⟩ none), .turn, .recv, .tryRecv, .turn, .write 4, .turn,
    .enqueue (.requestCancellation ⟨1⟩), .recv, .tryRecv, .turn, .write 4, .turn]

/-- The second cancellation of a request is written as the first one, and the peer ends the
connection. -/
theorem cancelled_twice :
    ∃ t, run longBuilder anyStep (sentAndCancelled ++ [.enqueue (.requestCancellation ⟨1⟩),
      .recv, .tryRecv, .turn,
        .write 4]) = some t ∧ Reach longBuilder anyStep t ∧ t.cancelFrames ⟨1⟩ = [1, 2] ∧
      t.sentFrames = [(0, Header.new .request ⟨0⟩ ⟨1⟩), (1, Header.new .cancelReq ⟨0⟩ ⟨1⟩),
        (2, Header.new .cancelReq ⟨0⟩ ⟨1⟩)] ∧
      longBuilder.build.receive t.written =
        .ok ([.newRequest ⟨0⟩ ⟨1⟩ none, .requestCancellation ⟨0⟩ ⟨1⟩],
        .fatal (OutgoingMessage.new (Header.newError .cancellationLimitExceeded ⟨0⟩ ⟨1⟩)
          none)) := by
  have hrun : (run longBuilder anyStep (sentAndCancelled ++ [.enqueue (.requestCancellation ⟨1⟩),
      .recv, .tryRecv, .turn, .write 4])).map (fun t => (t.cancelFrames ⟨1⟩, t.sentFrames,
      longBuilder.build.receive t.written)) =
        some ([1, 2], [(0, Header.new .request ⟨0⟩ ⟨1⟩), (1, Header.new .cancelReq ⟨0⟩ ⟨1⟩),
          (2, Header.new .cancelReq ⟨0⟩ ⟨1⟩)], .ok ([.newRequest ⟨0⟩ ⟨1⟩ none,
            .requestCancellation ⟨0⟩ ⟨1⟩],
            .fatal (OutgoingMessage.new (Header.newError .cancellationLimitExceeded ⟨0⟩ ⟨1⟩)
              none))) := rfl
  obtain ⟨t, ht, he⟩ := Option.map_eq_some_iff.mp hrun
  simp only [Prod.mk.injEq] at he
  obtain ⟨hframes, hsent, hpeer⟩ := he
  exact ⟨t, ht, Transition.Reach.exec .start ht, hframes, hsent, hpeer⟩

/-- Once the request has been answered, cancelling it again has no effect. -/
theorem cancelled_once_answered :
    ∃ t, run longBuilder cancelsOnce
      (sentAndCancelled ++ [.read (Header.new .response ⟨0⟩ ⟨1⟩).bytes, .turn, .turn,
        .enqueue (.requestCancellation ⟨1⟩), .recv, .tryRecv, .turn]) = some t ∧
      t.events = [.receivedResponse ⟨1⟩ none] ∧ (t.cancelFrames ⟨1⟩).length ≤ 1 := by
  have hrun : (run longBuilder cancelsOnce
      (sentAndCancelled ++ [.read (Header.new .response ⟨0⟩ ⟨1⟩).bytes, .turn, .turn,
      .enqueue (.requestCancellation ⟨1⟩), .recv, .tryRecv, .turn])).map IoTask.events =
        some [.receivedResponse ⟨1⟩ none] := rfl
  obtain ⟨t, ht, hevents⟩ := Option.map_eq_some_iff.mp hrun
  exact ⟨t, ht, hevents, cancelled_once (Transition.Reach.exec .start ht) ⟨1⟩⟩

end IoTask

end Juliet
