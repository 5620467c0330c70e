import Juliet.Accounting
import Juliet.AnswerEvents

namespace Juliet

open Rust

namespace IoCore

variable {N : Nat} {self c : IoCore N} {free : Option (ChannelId × Id)}

/-- The request map has requests that have been created and are outstanding, but for one that has
just been answered. -/
structure Known (free : Option (ChannelId × Id)) (core : IoCore N) : Prop where
  made : ∀ pair ∈ core.requestMap.pairs, ∃ sent ∈ core.history, sent.asRequest = some pair
  live : ∀ pair ∈ core.requestMap.pairs, some pair.2 ≠ free →
    ∃ i : Fin N, pair.2.1.get.toNat = i ∧ pair.2.2 ∈ (core.juliet.channels i).outgoingRequests

namespace Known

/-- Fewer pairs and no more answers. -/
theorem shrink (h : Known free self) (hh : c.history = self.history)
    (hm : ∀ pair ∈ c.requestMap.pairs, pair ∈ self.requestMap.pairs)
    (ho : ∀ i, (self.juliet.channels i).outgoingRequests ⊆ (c.juliet.channels i).outgoingRequests) :
    Known free c where
  made := by
    rw [hh]
    exact fun pair hp => h.made pair (hm pair hp)
  live := by
    intro pair hp hne
    obtain ⟨i, hi, hid⟩ := h.live pair (hm pair hp) hne
    exact ⟨i, hi, ho i hid⟩

/-- Steps that concern neither the history nor the requests. -/
theorem idle (h : Known free self) (hh : c.history = self.history)
    (hm : c.requestMap = self.requestMap) (hj : c.juliet = self.juliet) : Known free c := by
  refine h.shrink hh ?_ ?_
  · rw [hm]
    exact fun _ hp => hp
  · rw [hj]
    exact fun _ => Finset.Subset.refl _

theorem created {i : Fin N} {item : QueuedItem} {msg : OutgoingMessage} {juliet : JulietProtocol N}
    (h : Known free self)
    (ho : ∀ i, (self.juliet.channels i).outgoingRequests ⊆ (juliet.channels i).outgoingRequests) :
    Known free (self.created i item msg juliet self.requestMap) where
  made := by
    intro pair hp
    rw [created_requestMap] at hp
    obtain ⟨sent, hs, he⟩ := h.made pair hp
    rw [created_history]
    exact ⟨sent, List.mem_append_left _ hs, he⟩
  live := by
    intro pair hp hne
    rw [created_requestMap] at hp
    obtain ⟨j, hj, hid⟩ := h.live pair hp hne
    rw [created_juliet]
    exact ⟨j, hj, ho j hid⟩

theorem withRequest {i : Fin N} {channel : ChannelId} {ioId : IoId} {payload : Option Bytes}
    {id : Id} (h : Known free self) (hi : channel.get.toNat = i) :
    Known free (self.created i (.request channel ioId payload)
      (Channel.requestMessage channel id payload)
      (self.juliet.setChannel i ((self.juliet.channels i).withRequest id))
      (self.requestMap.insert ioId (channel, id))) := by
  refine ⟨?_, ?_⟩
  · intro pair hp
    rw [created_requestMap] at hp
    rw [created_history]
    rcases BiMap.mem_insert.mp hp with rfl | ⟨hp, _⟩
    · refine ⟨_, List.mem_append_right _ (List.mem_singleton_self _), ?_⟩
      simp [Sent.asRequest]
    · obtain ⟨sent, hs, he⟩ := h.made pair hp
      exact ⟨sent, List.mem_append_left _ hs, he⟩
  · intro pair hp hne
    rw [created_requestMap] at hp
    rw [created_juliet]
    rcases BiMap.mem_insert.mp hp with rfl | ⟨hp, _⟩
    · refine ⟨i, hi, ?_⟩
      rw [JulietProtocol.setChannel_self]
      exact Finset.mem_insert_self id _
    · obtain ⟨j, hj, hid⟩ := h.live pair hp hne
      refine ⟨j, hj, ?_⟩
      by_cases hji : j = i
      · subst hji
        rw [JulietProtocol.setChannel_self]
        exact Finset.mem_insert_of_mem hid
      · rwa [JulietProtocol.setChannel_of_ne _ hji]

theorem erroring (frame : OutgoingFrame) : Known free (self.erroring frame) := by
  refine ⟨?_, ?_⟩ <;> simp [IoCore.erroring, BiMap.empty]

theorem sendStep {item : QueuedItem} {r : Except LocalProtocolViolation Unit} (h : Known free self)
    (hs : SendStep self item r c) : Known free c := by
  cases hs with
  | request channel ioId payload i id hi _ _ _ => exact h.withRequest hi
  | cancel ioId channel i id _ _ _ => exact h.created (fun _ => Finset.Subset.refl _)
  | response channel id payload i _ _ _ => exact h.created (by simp)
  | responseCancellation channel id i _ _ => exact h.created (by simp)
  | late _ _ _ => exact h
  | refused _ _ => exact h
  | oversized channel id payload i _ _ _ _ => exact h.shrink rfl (fun _ hp => hp) (by simp)
  | error channel id payload frame _ _ => exact .erroring frame

theorem itemStep {item : QueuedItem} {r : Except LocalProtocolViolation Unit} (h : Known free self)
    (hs : ItemStep self item r c) : Known free c := by
  cases hs with
  | refused _ _ => exact h
  | wait channel i _ _ => exact h.idle rfl rfl rfl
  | send r c _ hs => exact h.sendStep hs

theorem processWaitQueue {channel : ChannelId} {r : Except LocalProtocolViolation Unit}
    (h : Known free self) (hq : self.processWaitQueue channel = .ok (r, c)) : Known free c := by
  refine processWaitQueue_keeps hq h ?_
  intro i b c ih hstep
  have hset : ∀ queue, Known free (b.setWaitQueue i queue) :=
    fun queue => ih.idle rfl rfl rfl
  cases hstep with
  | rotate item rest channel _ _ => exact hset _
  | promote item rest r c _ _ hs => exact (hset rest).sendStep hs
  | lose item rest _ => exact hset _

/-- What is read may answer one request, which is then still in the map. -/
theorem parsed {o : ReadOutcome} {juliet : JulietProtocol N} {buffer : Bytes} (h : Known none self)
    (hv : self.juliet.Valid)
    (hp : self.juliet.processIncoming self.buffer = .ok (o, juliet, buffer)) :
    Known (answeredBy (some o)) (self.parsed juliet buffer) where
  made := h.made
  live := by
    intro pair hpair hne
    obtain ⟨i, hi, hid⟩ := h.live pair hpair (by simp)
    refine ⟨i, hi, ?_⟩
    have hout := ((JulietProtocol.processIncoming_settles hv hp).channels i).2.2
    simp only [IoCore.parsed]
    split at hout
    next channel id ha =>
      split at hout
      next hch =>
        rw [hout.2]
        refine Finset.mem_erase.mpr ⟨?_, hid⟩
        rintro rfl
        rw [ha] at hne
        exact hne (congrArg some (Prod.ext (ChannelId.ext_toNat (hi.trans hch.symm)) rfl))
      next => rwa [hout]
    next => rwa [hout]

/-- The answered request is taken out of the map. -/
theorem handleCompletedRead {read : CompletedRead} (h : Known read.answered self) :
    Known none (self.handleCompletedRead read).2 := by
  have hrest : ∀ key, read.answered = some key →
      Known none { self with requestMap := (self.requestMap.removeByRight key).2 } := by
    intro key ha
    refine ⟨fun pair hp => h.made pair (BiMap.removeByRight_mem.mp hp).1, ?_⟩
    intro pair hp _
    obtain ⟨hp, hne⟩ := BiMap.removeByRight_mem.mp hp
    refine h.live pair hp ?_
    rw [ha]
    exact fun he => hne (Option.some.inj he)
  cases read with
  | receivedResponse channel id payload | responseCancellation channel id =>
    simp only [IoCore.handleCompletedRead]
    split <;> exact hrest (channel, id) rfl
  | _ => exact h

theorem parseStep {outcome : Option ReadOutcome} {result : Option (Except CoreError IoEvent)}
    (h : Known none self) (hv : self.juliet.Valid) (hs : ParseStep self outcome result c)
    (hr : ∀ violation, result ≠ some (.error (.localProtocolViolation violation))) :
    Known none c := by
  cases hs with
  | skip _ => exact h
  | incomplete n juliet buffer hp =>
    exact (h.parsed hv hp).idle rfl rfl rfl
  | fatal errMsg juliet buffer frame _ _ _ => exact .erroring frame
  | event read juliet buffer hp _ => exact (h.parsed hv hp).handleCompletedRead
  | response channel id payload juliet buffer c hp hq =>
    have hwaited : Known (CompletedRead.receivedResponse channel id payload).answered c :=
      (h.parsed hv hp).processWaitQueue hq
    exact hwaited.handleCompletedRead
  | violation channel id payload juliet buffer err c _ _ => exact absurd rfl (hr err)

end Known

/-- The cancellation of a request in the map is created and queued. -/
theorem handleIncomingItem_cancels {ioId : IoId} {channel : ChannelId} {id : Id}
    (h : Known none self) (hget : self.requestMap.getByLeft ioId = some (channel, id)) :
    self.handleIncomingItem (.requestCancellation ioId) = .ok (.ok (),
      self.pushReady (.requestCancellation ioId)
        (createUncheckedRequestCancellation channel id)) := by
  obtain ⟨i, hi, hid⟩ := h.live _ (BiMap.getByLeft_eq_some.mp hget) (by simp)
  have hl : self.juliet.lookupChannel channel = .ok i := JulietProtocol.lookupChannel_of hi
  have hc : self.juliet.cancelRequest channel id =
      (.ok (some (createUncheckedRequestCancellation channel id)), self.juliet) := by
    simp only [JulietProtocol.cancelRequest, hl, not_not.mpr hid, if_false]
  simp only [handleIncomingItem, itemShouldWait, bind_ok, sendToReadyQueue, hget, hc]

end IoCore

namespace IoTask

variable {N : Nat} {t t' : IoTask N}

/-- Whether bytes of the request with the id have been written. -/
def RequestWritten (t : IoTask N) (ioId : IoId) : Prop :=
  ∃ k ∈ t.writtenSerials, ofRequest t.core.history k ioId = true

/-- A `CancelReq` message with the channel and id of the request has been put behind all others. -/
def CancelQueued (ioId : IoId) (t t' : IoTask N) : Prop :=
  ∃ sent ∈ t.core.history, ∃ channel id, sent.asRequest = some (ioId, (channel, id)) ∧
    t'.core.history = t.core.history ++ [⟨.requestCancellation ioId,
      createUncheckedRequestCancellation channel id⟩] ∧
    t'.core.readyQueue = t.core.readyQueue ++
      [⟨t.core.history.length, (createUncheckedRequestCancellation channel id).frames⟩]

/-- What a cancellation is for: nothing of the request is written, neither before nor in any way the
run goes on, or a `CancelReq` message follows it. -/
def CancelKept (ioId : IoId) (t t' : IoTask N) : Prop :=
  (¬ RequestWritten t ioId ∧
    ∀ t'', Transition.Reach step (fun t a => flawless t a) t' t'' → ¬ RequestWritten t'' ioId) ∨
  CancelQueued ioId t t'

/-- A cancellation is handled while the request does not wait, and with the request in the request
map if it has been created and not been answered. -/
def cancelsKnown (t : IoTask N) (a : IoAct) : Bool :=
  match a, t.core.receiver.queue with
  | .recv, .requestCancellation ioId :: _ | .tryRecv, .requestCancellation ioId :: _ =>
    decide (∀ i : Fin N, ∀ item ∈ t.core.waitQueue i, item.isRequest ioId = false) &&
      (!(t.core.history.any fun sent => sent.item.isRequest ioId) || decide (ioId ∈ t.answerIds) ||
        (t.core.requestMap.getByLeft ioId).isSome)
  | _, _ => true

/-- The runs before an error in which also the condition is met. -/
abbrev CancellingReach (builder : ProtocolBuilder N) : IoTask N × Ledger → Prop :=
  Transition.Reach recordedStep (fun s a => (flawless s.1 a && cancelsKnown s.1 a) = true)
    (.new builder, ⟨[], []⟩)

/-- What carries the request map from step to step. -/
structure Cancellable (s : IoTask N × Ledger) : Prop where
  recorded : Recorded s
  known : s.1.core.Known none

theorem Known.step {a : IoAct} (h : t.core.Known none) (hsound : t.core.Sound) (hs : Step t a t')
    (hok : ∀ err, t'.position ≠ .done (.failed err)) : t'.core.Known none := by
  have hquiet : ∀ {c : IoCore N}, c.history = t.core.history → c.requestMap = t.core.requestMap →
      c.juliet = t.core.juliet → c.Known none := by
    intro c hh hm hj
    refine h.shrink hh ?_ ?_
    · rw [hm]
      exact fun _ hp => hp
    · rw [hj]
      exact fun _ => Finset.Subset.refl _
  cases hs with
  | enqueue item issued _ _ _ => exact hquiet rfl rfl rfl
  | dropHandles => exact hquiet rfl rfl rfl
  | event outcome event core _ _ hparse => exact h.parseStep hsound.valid hparse (by simp)
  | failed outcome err core _ _ _ => exact absurd rfl (hok err)
  | selecting outcome core core' _ _ hparse hready =>
    have hparsed := h.parseStep hsound.valid hparse (by simp)
    cases hready <;> exact hparsed.idle rfl rfl rfl
  | writeSome current k _ _ _ _ => exact hquiet rfl rfl rfl
  | writeAll current core position r _ _ _ hsent hpos =>
    cases hsent with
    | error active _ => exact hquiet rfl rfl rfl
    | scanned i c _ hq | violation i c err _ hq =>
      have hcleared : ((t.currentWritten current current.frame.remaining).core.cleared
          { current with frame := current.frame.advance current.frame.remaining } i).Known none :=
            hquiet rfl rfl rfl
      exact hcleared.processWaitQueue hq
  | writeAllPanic current _ _ _ _ => exact hquiet rfl rfl rfl
  | writeSomeError pending data k _ _ _ _ => exact hquiet rfl rfl rfl
  | writeAllError pending data _ _ _ => exact hquiet rfl rfl rfl
  | read bytes position _ _ _ _ => exact hquiet rfl rfl rfl
  | taken a item rest core _ _ _ hi | rejected a item rest core _ _ _ _ hi =>
    have hdeq : (t.dequeued rest).Known none := hquiet rfl rfl rfl
    exact hdeq.itemStep (IoCore.handleIncomingItem_steps hi)
  | _ => exact h

theorem Cancellable.step {s s' : IoTask N × Ledger} {a : IoAct} (h : Cancellable s)
    (hok : flawless s.1 a = true) (hs : recordedStep s a = some s') : Cancellable s' := by
  refine ⟨h.recorded.step hok hs, ?_⟩
  obtain ⟨t', hstep, rfl⟩ := Option.map_eq_some_iff.mp hs
  have hgood : ∀ err, t'.position ≠ .done (.failed err) := by
    intro err he
    simp [flawless, hstep, he] at hok
  have hknown : t'.core.Known none :=
    Known.step h.known h.recorded.emitting.sound (step_steps hstep) hgood
  split
  next => exact hknown
  next => exact hknown

/-- A request that has been taken from the local queue waits or has been created. -/
theorem Recorded.request {s : IoTask N × Ledger} (h : Recorded s) {ioId : IoId} {item : QueuedItem}
    (ht : item ∈ s.2.taken) (hr : item.isRequest ioId = true) :
    (∃ i, item ∈ s.1.core.waitQueue i) ∨ ∃ sent ∈ s.1.core.history,
      sent.item.isRequest ioId = true := by
  have hmem : item ∈ s.1.core.held + (s.2.dropped : Multiset QueuedItem) := by
    rw [← h.accounted]
    exact ht
  rcases Multiset.mem_add.mp hmem with hheld | hdropped
  · rcases Multiset.mem_add.mp hheld with hwait | hhist
    · obtain ⟨i, _, hi⟩ := Multiset.mem_sum.mp hwait
      exact .inl ⟨i, hi⟩
    · obtain ⟨sent, hs, rfl⟩ := List.mem_map.mp hhist
      exact .inr ⟨sent, hs, hr⟩
  · have hno := h.responses item hdropped ioId
    rw [hr] at hno
    simp at hno

theorem takenBy_eq {a : IoAct} {item : QueuedItem} (h : t.takenBy a = [item]) :
    (a = .recv ∨ a = .tryRecv) ∧ ∃ rest, t.core.receiver.queue = item :: rest := by
  have hqueue : t.core.receiver.queue.take 1 = [item] →
      ∃ rest, t.core.receiver.queue = item :: rest := by
    intro hq
    cases hqueue : t.core.receiver.queue with
    | nil => simp [hqueue] at hq
    | cons item' rest =>
      have he : item' = item := by simpa [hqueue] using hq
      exact ⟨rest, by rw [he]⟩
  cases a with
  | recv => exact ⟨.inl rfl, hqueue h⟩
  | tryRecv => exact ⟨.inr rfl, hqueue h⟩
  | _ => simp [takenBy] at h

theorem step_take {a : IoAct} {item : QueuedItem} {rest : List QueuedItem}
    (ha : a = .recv ∨ a = .tryRecv) (hq : t.core.receiver.queue = item :: rest)
    (hs : t.step a = some t') : t' = t.take item rest := by
  rcases ha with rfl | rfl
  all_goals
    simp only [step, hq] at hs
    split at hs
    next => exact (Option.some.inj hs).symm
    next => simp at hs

theorem cancelsKnown_of {a : IoAct} {ioId : IoId} {rest : List QueuedItem}
    (ha : a = .recv ∨ a = .tryRecv) (hq : t.core.receiver.queue = .requestCancellation ioId :: rest)
    (h : cancelsKnown t a = true) :
    (∀ i, ∀ item ∈ t.core.waitQueue i, item.isRequest ioId = false) ∧
      ((∃ sent ∈ t.core.history, sent.item.isRequest ioId = true) → ioId ∉ t.answerIds →
        ∃ key, t.core.requestMap.getByLeft ioId = some key) := by
  have hboth : decide (∀ i : Fin N, ∀ item ∈ t.core.waitQueue i,
      item.isRequest ioId = false) = true ∧
      (!(t.core.history.any fun sent => sent.item.isRequest ioId) || decide (ioId ∈ t.answerIds) ||
        (t.core.requestMap.getByLeft ioId).isSome) = true := by
    rcases ha with rfl | rfl <;> simpa only [cancelsKnown, hq, Bool.and_eq_true] using h
  refine ⟨of_decide_eq_true hboth.1, ?_⟩
  rintro ⟨sent, hs, hr⟩ hopen
  have hany : (t.core.history.any fun sent => sent.item.isRequest ioId) = true :=
    List.any_eq_true.mpr ⟨sent, hs, hr⟩
  rw [← Option.isSome_iff_exists]
  simpa [hany, hopen] using hboth.2

/-- In every run without an error in which requests are cancelled only when they do not wait, and
are in the request map while unanswered, no cancellation of a request that has been taken from the
local queue is lost. -/
theorem cancellation_kept {builder : ProtocolBuilder N} {s s' : IoTask N × Ledger} {a : IoAct}
    {ioId : IoId} (h : CancellingReach builder s)
    (hok : (flawless s.1 a && cancelsKnown s.1 a) = true) (hs : recordedStep s a = some s')
    (hcancel : s.1.takenBy a = [.requestCancellation ioId])
    (htaken : ∃ item ∈ s.2.taken, item.isRequest ioId = true) (hopen : ioId ∉ s.1.answerIds) :
    CancelKept ioId s.1 s'.1 := by
  have hinv : Cancellable s := by
    refine Transition.Reach.invariant h ?_ ?_
    · refine ⟨⟨Emitting.new builder, ?_, by simp⟩, ?_, ?_⟩
      · simp [Accounted, IoCore.held, IoTask.new, IoCore.new]
      · simp [IoTask.new, IoCore.new, BiMap.empty]
      · simp [IoTask.new, IoCore.new, BiMap.empty]
    · intro s s' a hP hok hs
      exact hP.step (Bool.and_eq_true_iff.mp hok).1 hs
  obtain ⟨t', hstep, rfl⟩ := Option.map_eq_some_iff.mp hs
  obtain ⟨ha, rest, hq⟩ := takenBy_eq hcancel
  obtain ⟨hwaits, hmapped⟩ := cancelsKnown_of ha hq (Bool.and_eq_true_iff.mp hok).2
  -- the request has been created, is not answered and so is in the map
  obtain ⟨request, hreq, hio⟩ := htaken
  have hcreated : ∃ sent ∈ s.1.core.history, sent.item.isRequest ioId = true := by
    refine (hinv.recorded.request hreq hio).resolve_left ?_
    rintro ⟨i, hi⟩
    rw [hwaits i request hi] at hio
    simp at hio
  obtain ⟨⟨channel, id⟩, hget⟩ := hmapped hcreated hopen
  obtain ⟨sent, hsent, hasks⟩ := hinv.known.made _ (BiMap.getByLeft_eq_some.mp hget)
  have hdeq : (s.1.dequeued rest).Known none :=
    hinv.known.idle rfl rfl rfl
  have htake := step_take ha hq hstep
  rw [take, show { s.1.core with receiver := { s.1.core.receiver with queue := rest } } =
    s.1.dequeued rest from rfl, IoCore.handleIncomingItem_cancels hdeq hget] at htake
  have hqueued : CancelQueued ioId s.1 t' := by
    rw [htake]
    exact ⟨sent, hsent, channel, id, hasks, rfl, rfl⟩
  refine .inr ?_
  split
  next => exact hqueued
  next => exact hqueued

/-- Two requests where one is allowed: the second waits, and its cancellation is next. -/
def cancelledWaiting : List IoAct :=
  [.enqueue (.request ⟨0⟩ ⟨1⟩ none), .enqueue (.request ⟨0⟩ ⟨2⟩ none),
    .enqueue (.requestCancellation ⟨2⟩), .turn, .recv, .tryRecv]

/-- The first request is written and answered, and then the second is written. -/
def secondWritten : List IoAct :=
  [.tryRecv, .turn, .write 4, .turn, .read (Header.new .response ⟨0⟩ ⟨1⟩).bytes,
    .turn, .turn, .write 4]

/-- A request that was cancelled while it waited is sent all the same, and not cancelled. -/
theorem waiting_cancellation_lost :
    ∃ s s' t, RecordedReach longBuilder s ∧ flawless s.1 .tryRecv = true ∧
      recordedStep s .tryRecv = some s' ∧
      s.1.takenBy .tryRecv = [.requestCancellation ⟨2⟩] ∧
      s.2.taken = [.request ⟨0⟩ ⟨1⟩ none, .request ⟨0⟩ ⟨2⟩ none] ∧ s.1.answerIds = [] ∧
      Transition.Reach step (fun t a => flawless t a) s'.1 t ∧ t.sentFrames =
        [(0, Header.new .request ⟨0⟩ ⟨1⟩), (1, Header.new .request ⟨0⟩ ⟨2⟩)] ∧
      (∀ sent ∈ t.core.history, sent.item ≠ .requestCancellation ⟨2⟩) ∧
      ¬ CancelKept ⟨2⟩ s.1 s'.1 := by
  have hrun : (Transition.exec recordedStep (fun s a => flawless s.1 a) cancelledWaiting
      (IoTask.new longBuilder, ⟨[], []⟩)).map (fun s => (flawless s.1 .tryRecv,
        s.1.takenBy .tryRecv, s.2.taken,
        s.1.answerIds, s.1.core.history.length, (recordedStep s .tryRecv).map
        fun s' => (s'.1.core.history.length,
          (Transition.exec step flawless secondWritten s'.1).map
          fun t => (t.sentFrames, t.writtenSerials,
            ofRequest t.core.history 1 ⟨2⟩, t.core.history.map Sent.item)))) =
      some (true, [.requestCancellation ⟨2⟩], [.request ⟨0⟩ ⟨1⟩ none,
        .request ⟨0⟩ ⟨2⟩ none], [], 1, some (1,
        some ([(0, Header.new .request ⟨0⟩ ⟨1⟩), (1, Header.new .request ⟨0⟩ ⟨2⟩)], [0, 1], true,
          [.request ⟨0⟩ ⟨1⟩ none, .request ⟨0⟩ ⟨2⟩ none]))) := rfl
  obtain ⟨s, hs, he⟩ := Option.map_eq_some_iff.mp hrun
  simp only [Prod.mk.injEq] at he
  obtain ⟨hok, htakes, htaken, hopen, hlen, he⟩ := he
  obtain ⟨s', hs', he⟩ := Option.map_eq_some_iff.mp he
  simp only [Prod.mk.injEq] at he
  obtain ⟨hlen', he⟩ := he
  obtain ⟨t, ht, he⟩ := Option.map_eq_some_iff.mp he
  simp only [Prod.mk.injEq] at he
  obtain ⟨hframes, hwritten, hof, hitems⟩ := he
  have hreach : Transition.Reach step (fun t a => flawless t a) s'.1 t :=
    Transition.Reach.exec .start ht
  refine ⟨s, s', t, Transition.Reach.exec .start hs, hok, hs', htakes, htaken, hopen,
    hreach, hframes, ?_, ?_⟩
  · intro sent hm
    have hitem := List.mem_map_of_mem (f := Sent.item) hm
    rw [hitems] at hitem
    intro hc
    rw [hc] at hitem
    simp at hitem
  · rintro (⟨_, hnever⟩ | ⟨_, _, channel, id, _, hh, _⟩)
    · exact hnever t hreach ⟨1, by simp [hwritten], hof⟩
    · rw [hh, List.length_append, hlen] at hlen'
      simp at hlen'

/-- A request that has been sent is cancelled. -/
theorem cancellation_kept_sent :
    ∃ s s', CancellingReach longBuilder s ∧ recordedStep s .recv = some s' ∧
      s.1.takenBy .recv = [.requestCancellation ⟨1⟩] ∧ CancelKept ⟨1⟩ s.1 s'.1 := by
  have hrun : (Transition.exec recordedStep (fun s a => flawless s.1 a && cancelsKnown s.1 a)
      [.enqueue (.request ⟨0⟩ ⟨1⟩ none), .turn, .recv, .tryRecv, .turn, .write 4, .turn,
        .enqueue (.requestCancellation ⟨1⟩)] (IoTask.new longBuilder, ⟨[], []⟩)).map (fun s =>
          (flawless s.1 .recv && cancelsKnown s.1 .recv, s.1.takenBy .recv,
            s.2.taken, s.1.answerIds,
            (recordedStep s .recv).isSome)) =
      some (true, [.requestCancellation ⟨1⟩], [.request ⟨0⟩ ⟨1⟩ none], [], true) := rfl
  obtain ⟨s, hs, he⟩ := Option.map_eq_some_iff.mp hrun
  simp only [Prod.mk.injEq] at he
  obtain ⟨hok, htakes, htaken, hopen, hsome⟩ := he
  obtain ⟨s', hs'⟩ := Option.isSome_iff_exists.mp hsome
  have hreach : CancellingReach longBuilder s := Transition.Reach.exec .start hs
  have hrequest : ∃ item ∈ s.2.taken, item.isRequest ⟨1⟩ = true := by
    rw [htaken]
    exact ⟨_, List.mem_singleton_self _, rfl⟩
  exact ⟨s, s', hreach, hs', htakes,
    cancellation_kept hreach hok hs' htakes hrequest (by simp [hopen])⟩

end IoTask

end Juliet
