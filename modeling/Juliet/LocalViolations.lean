import Juliet.Answers
import Juliet.MultiFrameSends

namespace Juliet

open Rust

/-- The items that request builders and incoming requests enqueue, on channels that exist. -/
def QueuedItem.viaRpc (N : Nat) : QueuedItem → Bool
  | .request channel _ _ => channel.get.toNat < N
  | .requestCancellation _ => true
  | .response channel _ _ => channel.get.toNat < N
  | .responseCancellation channel _ => channel.get.toNat < N
  | .error _ _ _ => false

/-- Whether the payload of an item is within the limit that its channel has for such payloads. -/
def ProtocolBuilder.withinLimits {N : Nat} (builder : ProtocolBuilder N) : QueuedItem → Bool
  | .request channel _ payload => decide (∀ i : Fin N, channel.get.toNat = i →
      (payload.all
        fun p => p.length ≤ (builder.channelConfig i).maxRequestPayloadSize.toNat) = true)
  | .response channel _ payload => decide (∀ i : Fin N, channel.get.toNat = i →
      (payload.all
        fun p => p.length ≤ (builder.channelConfig i).maxResponsePayloadSize.toNat) = true)
  | _ => true

/-- The items that no call refuses. -/
def ProtocolBuilder.Accepts {N : Nat} (builder : ProtocolBuilder N) (item : QueuedItem) : Prop :=
  item.viaRpc N = true ∧ builder.withinLimits item = true

namespace IoCore

variable {N : Nat} {self c : IoCore N} {builder : ProtocolBuilder N}

/-- All items on their way are ones that no call refuses. -/
structure Obliging (builder : ProtocolBuilder N) (core : IoCore N) : Prop where
  config : ∀ i, (core.juliet.channels i).config = builder.channelConfig i
  queued : ∀ item ∈ core.receiver.queue, builder.Accepts item
  waiting : ∀ i, ∀ item ∈ core.waitQueue i, builder.Accepts item
  mapped : ∀ pair ∈ core.requestMap.pairs, pair.2.1.get.toNat < N

namespace Obliging

theorem congr (h : Obliging builder self)
    (hc : ∀ i, (c.juliet.channels i).config = (self.juliet.channels i).config)
    (hq : ∀ item ∈ c.receiver.queue, item ∈ self.receiver.queue) (hw : c.waitQueue = self.waitQueue)
    (hm : ∀ pair ∈ c.requestMap.pairs, pair ∈ self.requestMap.pairs) : Obliging builder c where
  config := fun i => (hc i).trans (h.config i)
  queued := fun item hi => h.queued item (hq item hi)
  waiting := by
    rw [hw]
    exact h.waiting
  mapped := fun pair hp => h.mapped pair (hm pair hp)

/-- Steps that concern neither the items nor the requests. -/
theorem idle (h : Obliging builder self) (hj : c.juliet = self.juliet)
    (hq : c.receiver.queue = self.receiver.queue) (hw : c.waitQueue = self.waitQueue)
    (hm : c.requestMap = self.requestMap) : Obliging builder c := by
  refine h.congr ?_ ?_ hw ?_
  · rw [hj]
    exact fun _ => rfl
  · rw [hq]
    exact fun _ hi => hi
  · rw [hm]
    exact fun _ hp => hp

theorem setWaitQueue {i : Fin N} {queue : List QueuedItem} (h : Obliging builder self)
    (hq : ∀ item ∈ queue, builder.Accepts item) : Obliging builder (self.setWaitQueue i queue) where
  config := h.config
  queued := h.queued
  waiting := by
    intro j item hi
    by_cases hj : j = i
    · subst hj
      exact hq item (by simpa [IoCore.setWaitQueue] using hi)
    · exact h.waiting j item (by simpa [IoCore.setWaitQueue, hj] using hi)
  mapped := h.mapped

theorem created {i : Fin N} {item : QueuedItem} {msg : OutgoingMessage} {juliet : JulietProtocol N}
    {requestMap : BiMap IoId (ChannelId × Id)} (h : Obliging builder self)
    (hc : ∀ j, (juliet.channels j).config = (self.juliet.channels j).config)
    (hm : ∀ pair ∈ requestMap.pairs, pair.2.1.get.toNat < N) :
    Obliging builder (self.created i item msg juliet requestMap) where
  config := by
    intro j
    rw [created_juliet, hc]
    exact h.config j
  queued := by
    rw [created_receiver]
    exact h.queued
  waiting := by
    rw [created_waitQueue]
    exact h.waiting
  mapped := by
    rw [created_requestMap]
    exact hm

theorem sendStep {item : QueuedItem} {r : Except LocalProtocolViolation Unit}
    (h : Obliging builder self) (hs : SendStep self item r c) : Obliging builder c := by
  have hset : ∀ (i : Fin N) (chan : Channel), chan.config = (self.juliet.channels i).config → ∀ j,
      ((self.juliet.setChannel i chan).channels j).config = (self.juliet.channels j).config :=
    fun _ _ hchan j => JulietProtocol.setChannel_field Channel.config hchan j
  cases hs with
  | request channel ioId payload i id hi _ _ _ =>
    refine h.created (hset i _ rfl) ?_
    intro pair hp
    rcases BiMap.mem_insert.mp hp with rfl | ⟨hp, _⟩
    · dsimp only
      rw [hi]
      exact i.isLt
    · exact h.mapped pair hp
  | cancel ioId channel i id _ _ _ => exact h.created (fun _ => rfl) h.mapped
  | response channel id payload i _ _ _ => exact h.created (hset i _ rfl) h.mapped
  | responseCancellation channel id i _ _ => exact h.created (hset i _ rfl) h.mapped
  | late _ _ _ => exact h
  | refused _ _ => exact h
  | oversized channel id payload i _ _ _ _ =>
    exact h.congr (hset i _ rfl) (fun _ hi => hi) rfl (fun _ hp => hp)
  | error channel id payload frame _ _ =>
    exact ⟨h.config, h.queued, by simp [erroring], by simp [erroring, BiMap.empty]⟩

end Obliging

/-- `itemShouldWait` refuses no item on a channel that exists. -/
theorem itemShouldWait_accepts {item : QueuedItem} {juliet : JulietProtocol N}
    {active : Fin N → Option Header} {waits : Except LocalProtocolViolation (Option ChannelId)}
    (ha : item.viaRpc N = true) (h : itemShouldWait item juliet active = .ok waits) :
    ∃ channel, waits = .ok channel := by
  cases item with
  | request channel ioId payload =>
    have hlt : channel.get.toNat < N := by simpa [QueuedItem.viaRpc] using ha
    rw [itemShouldWait_request (i := ⟨_, hlt⟩) rfl] at h
    exact ⟨_, (Except.ok.inj h).symm⟩
  | response channel id payload =>
    have hlt : channel.get.toNat < N := by simpa [QueuedItem.viaRpc] using ha
    rw [itemShouldWait_response (i := ⟨_, hlt⟩) rfl] at h
    exact ⟨_, (Except.ok.inj h).symm⟩
  | _ => exact ⟨none, (Except.ok.inj h).symm⟩

/-- An item that need not wait and is within the limits is not refused. -/
theorem sendToReadyQueue_accepts {item : QueuedItem} {r : Except LocalProtocolViolation Unit}
    (h : Obliging builder self) (ha : builder.Accepts item)
    (hw : itemShouldWait item self.juliet self.activeMultiFrame = .ok (.ok none))
    (hs : self.sendToReadyQueue item = .ok (r, c)) : r = .ok () := by
  obtain ⟨hrpc, hlimit⟩ := ha
  cases item with
  | request channel ioId payload =>
    have hlt : channel.get.toNat < N := by simpa [QueuedItem.viaRpc] using hrpc
    have hi : channel.get.toNat = (⟨_, hlt⟩ : Fin N) := rfl
    have hallowed : (self.juliet.channels ⟨_, hlt⟩).allowedToSendRequest = true := by
      by_contra hnot
      rw [itemShouldWait_request hi, if_neg hnot] at hw
      simp at hw
    have hwithin : JulietProtocol.PayloadWithin payload (self.juliet.channels ⟨_,
        hlt⟩).config.maxRequestPayloadSize := by
      rw [h.config]
      simp only [ProtocolBuilder.withinLimits, decide_eq_true_eq] at hlimit
      intro p hp
      rw [Option.mem_def] at hp
      simpa [hp] using hlimit ⟨_, hlt⟩ hi
    obtain ⟨id, hid⟩ := Channel.exists_generates hallowed
    rw [sendToReadyQueue_request self hi hallowed hwithin hid] at hs
    exact (ok_pair hs).1.symm
  | requestCancellation ioId =>
    simp only [sendToReadyQueue] at hs
    split at hs
    next channel id hget =>
      have hlt := h.mapped _ (BiMap.getByLeft_eq_some.mp hget)
      have hl : self.juliet.lookupChannel channel = .ok ⟨_, hlt⟩ :=
        JulietProtocol.lookupChannel_of rfl
      simp only [JulietProtocol.cancelRequest, hl] at hs
      by_cases hid : id ∉ (self.juliet.channels ⟨_, hlt⟩).outgoingRequests
      · rw [if_pos hid] at hs
        exact (ok_pair hs).1.symm
      · rw [if_neg hid] at hs
        exact (ok_pair hs).1.symm
    next => exact (ok_pair hs).1.symm
  | response channel id payload =>
    have hlt : channel.get.toNat < N := by simpa [QueuedItem.viaRpc] using hrpc
    have hl : self.juliet.lookupChannel channel = .ok ⟨_, hlt⟩ :=
      JulietProtocol.lookupChannel_of rfl
    have hwithin : JulietProtocol.PayloadWithin payload (self.juliet.channels ⟨_,
        hlt⟩).config.maxResponsePayloadSize := by
      rw [h.config]
      simp only [ProtocolBuilder.withinLimits, decide_eq_true_eq] at hlimit
      intro p hp
      rw [Option.mem_def] at hp
      simpa [hp] using hlimit ⟨_, hlt⟩ rfl
    simp only [sendToReadyQueue] at hs
    split at hs
    next violation juliet hresult =>
      by_cases hid : id ∈ (self.juliet.channels ⟨_, hlt⟩).incomingRequests
      · have hcreated := JulietProtocol.createResponse_within hl hid hwithin
        simp [hresult] at hcreated
      · simp [JulietProtocol.createResponse, hl, hid] at hresult
    next msg juliet _ =>
      simp only [markActive_of (i := ⟨_, hlt⟩) rfl, bind_ok, pure_eq_ok] at hs
      exact (ok_pair hs).1.symm
    next => exact (ok_pair hs).1.symm
  | responseCancellation channel id =>
    have hlt : channel.get.toNat < N := by simpa [QueuedItem.viaRpc] using hrpc
    have hl : self.juliet.lookupChannel channel = .ok ⟨_, hlt⟩ :=
      JulietProtocol.lookupChannel_of rfl
    simp only [sendToReadyQueue, JulietProtocol.cancelResponse, hl] at hs
    by_cases hid : id ∉ (self.juliet.channels ⟨_, hlt⟩).incomingRequests
    · rw [if_pos hid] at hs
      exact (ok_pair hs).1.symm
    · rw [if_neg hid] at hs
      exact (ok_pair hs).1.symm
  | error channel id payload => simp [QueuedItem.viaRpc] at hrpc

theorem waitLoop_accepts {channel : ChannelId} {i : Fin N} (hi : channel.get.toNat = i)
    (remaining : Nat) {self : IoCore N} {r : Except LocalProtocolViolation Unit}
    (h : Obliging builder self) (hs : waitLoop channel i remaining self = .ok (r, c)) :
    r = .ok () ∧ Obliging builder c := by
  induction remaining generalizing self with
  | zero =>
    obtain ⟨rfl, rfl⟩ := ok_pair hs
    exact ⟨rfl, h⟩
  | succ remaining ih =>
    unfold waitLoop at hs
    split at hs
    next =>
      obtain ⟨rfl, rfl⟩ := ok_pair hs
      exact ⟨rfl, h⟩
    next item rest hq =>
      have haccepts := h.waiting i item (hq ▸ List.mem_cons_self)
      have hrest : ∀ item' ∈ rest, builder.Accepts item' := by
        intro item' hm
        exact h.waiting i item' (hq ▸ List.mem_cons_of_mem item hm)
      obtain ⟨waits, hw, hs⟩ := bind_eq_ok.mp hs
      obtain ⟨waiting, rfl⟩ := itemShouldWait_accepts haccepts.1 hw
      cases waiting with
      | some channel' =>
        refine ih (h.setWaitQueue ?_ |>.setWaitQueue ?_) hs
        · exact hrest
        · intro item' hm
          rcases List.mem_append.mp hm with hm | hm
          · exact hrest item' (by simpa [setWaitQueue] using hm)
          · rw [List.mem_singleton.mp hm]
            exact haccepts
      | none =>
        obtain ⟨⟨sent, c'⟩, hsend, hs⟩ := bind_eq_ok.mp hs
        obtain rfl := sendToReadyQueue_accepts (h.setWaitQueue hrest) haccepts hw hsend
        have h' : Obliging builder c' :=
          (h.setWaitQueue hrest).sendStep (sendToReadyQueue_steps hsend)
        simp only [JulietProtocol.allowedToSendRequest, JulietProtocol.lookupChannel_of hi,
          Except.map] at hs
        split at hs
        next heq => simp at heq
        next =>
          obtain ⟨rfl, rfl⟩ := ok_pair hs
          exact ⟨rfl, h'⟩
        next => exact ih h' hs

theorem processWaitQueue_accepts {channel : ChannelId} {r : Except LocalProtocolViolation Unit}
    (h : Obliging builder self) (hs : self.processWaitQueue channel = .ok (r, c)) :
    r = .ok () ∧ Obliging builder c := by
  obtain ⟨i, hi, hs⟩ := bind_eq_ok.mp hs
  exact waitLoop_accepts (channelIndex_ok hi) _ h hs

theorem handleIncomingItem_accepts {item : QueuedItem} {r : Except LocalProtocolViolation Unit}
    (h : Obliging builder self) (ha : builder.Accepts item)
    (hs : self.handleIncomingItem item = .ok (r, c)) : r = .ok () ∧ Obliging builder c := by
  obtain ⟨waits, hw, hs⟩ := bind_eq_ok.mp hs
  obtain ⟨waiting, rfl⟩ := itemShouldWait_accepts ha.1 hw
  cases waiting with
  | some channel =>
    obtain ⟨i, _, hs⟩ := bind_eq_ok.mp hs
    obtain ⟨rfl, rfl⟩ := ok_pair hs
    refine ⟨rfl, h.setWaitQueue ?_⟩
    intro item' hm
    rcases List.mem_append.mp hm with hm | hm
    · exact h.waiting i item' hm
    · rw [List.mem_singleton.mp hm]
      exact ha
  | none => exact ⟨sendToReadyQueue_accepts h ha hw hs, h.sendStep (sendToReadyQueue_steps hs)⟩

theorem Obliging.handleCompletedRead (h : Obliging builder self) (read : CompletedRead) :
    Obliging builder (self.handleCompletedRead read).2 := by
  rcases self.handleCompletedRead_core read with he | ⟨key, he⟩
  · exact he.symm ▸ h
  · rw [he]
    exact h.congr (fun _ => rfl) (fun _ hi => hi) rfl
      (fun _ hp => (BiMap.removeByRight_mem.mp hp).1)

theorem handleCompletedRead_violation (self : IoCore N) (read : CompletedRead)
    (violation : LocalProtocolViolation) :
    (self.handleCompletedRead read).1 ≠ .error (.localProtocolViolation violation) := by
  intro he
  rcases handleCompletedRead_error he with ⟨header, data, h⟩ | ⟨text, h⟩ <;> simp at h

/-- Reading and what it sets off brings up no violation. -/
theorem ParseStep.accepts {outcome : Option ReadOutcome}
    {result : Option (Except CoreError IoEvent)} (h : Obliging builder self)
    (hv : self.juliet.Valid) (hs : ParseStep self outcome result c) :
    (∀ violation, result ≠ some (.error (.localProtocolViolation violation))) ∧
    Obliging builder c := by
  have hparsed : ∀ {o juliet buffer}, self.juliet.processIncoming self.buffer =
      .ok (o, juliet, buffer) →
      Obliging builder (self.parsed juliet buffer) := by
    intro o juliet buffer hp
    have hsettles := JulietProtocol.processIncoming_settles hv hp
    exact h.congr (fun i => (hsettles.channels i).1) (fun _ hi => hi) rfl (fun _ hp => hp)
  cases hs with
  | skip _ => exact ⟨by simp, h⟩
  | incomplete n juliet buffer hp =>
    exact ⟨by simp, (hparsed hp).idle rfl rfl rfl rfl⟩
  | fatal errMsg juliet buffer frame hp _ _ =>
    have h' := hparsed hp
    exact ⟨by simp, h'.config, h'.queued, by simp [erroring], by simp [erroring, BiMap.empty]⟩
  | event read juliet buffer hp _ =>
    refine ⟨?_, (hparsed hp).handleCompletedRead read⟩
    intro violation he
    exact handleCompletedRead_violation _ read violation (Option.some.inj he)
  | response channel id payload juliet buffer c hp hq =>
    refine ⟨?_, (processWaitQueue_accepts (hparsed hp) hq).2.handleCompletedRead _⟩
    intro violation he
    exact handleCompletedRead_violation _ _ violation (Option.some.inj he)
  | violation channel id payload juliet buffer err c hp hq =>
    have hok := (processWaitQueue_accepts (hparsed hp) hq).1
    simp at hok

theorem SentStep.accepts {current : CurrentFrame} {r : Except CoreError Unit}
    (h : Obliging builder self) (hs : SentStep self current r c) :
    (∀ violation, r ≠ .error (.localProtocolViolation violation)) ∧ Obliging builder c := by
  have hcleared : ∀ i, Obliging builder (self.cleared current i) :=
    fun i => h.idle rfl rfl rfl rfl
  cases hs with
  | error active _ => exact ⟨by simp, h.idle rfl rfl rfl rfl⟩
  | scanned i c _ hq => exact ⟨by simp, (processWaitQueue_accepts (hcleared i) hq).2⟩
  | violation i c err _ hq =>
    have hok := (processWaitQueue_accepts (hcleared i) hq).1
    simp at hok

end IoCore

namespace IoTask

variable {N : Nat} {t t' : IoTask N} {builder : ProtocolBuilder N}

/-- Whether `next_event` has returned a `LocalProtocolViolation`. -/
def Violated (t : IoTask N) : Prop :=
  ∃ violation, t.position = .done (.failed (.localProtocolViolation violation))

/-- The local queue is filled by request builders and incoming requests only. -/
def rpcOnly (_ : IoTask N) : IoAct → Bool
  | .enqueue item => item.viaRpc N
  | _ => true

/-- Besides, the payloads they are given are within the limits of their channels. -/
def rpcWithinLimits (builder : ProtocolBuilder N) (t : IoTask N) (a : IoAct) : Bool :=
  rpcOnly t a && match a with
    | .enqueue item => builder.withinLimits item
    | _ => true

/-- What keeps the violations away. -/
structure Lawful (builder : ProtocolBuilder N) (t : IoTask N) : Prop where
  sound : t.core.Sound
  obliging : t.core.Obliging builder
  unviolated : ¬ Violated t

namespace Lawful

/-- An item of the local queue is taken, whatever becomes of it. -/
theorem item {item : QueuedItem} {rest : List QueuedItem} {r : Except LocalProtocolViolation Unit}
    {core : IoCore N} (h : Lawful builder t) (hq : t.core.receiver.queue = item :: rest)
    (hi : (t.dequeued rest).handleIncomingItem item = .ok (r, core)) :
    r = .ok () ∧ core.Obliging builder := by
  have hdeq : (t.dequeued rest).Obliging builder := by
    refine h.obliging.congr (fun _ => rfl) ?_ rfl (fun _ hp => hp)
    intro item' hm
    exact hq ▸ List.mem_cons_of_mem item hm
  exact IoCore.handleIncomingItem_accepts hdeq (h.obliging.queued item (hq ▸ List.mem_cons_self)) hi

theorem step {a : IoAct} (h : Lawful builder t) (hok : rpcWithinLimits builder t a = true)
    (hs : Step t a t') :
    Lawful builder t' := by
  have hsound := hs.sound h.sound
  have hold : ∀ {t' : IoTask N}, t'.core.Sound → t'.core.Obliging builder →
      t'.position = t.position →
      Lawful builder t' := by
    intro t' hs' ho hp
    refine ⟨hs', ho, ?_⟩
    rintro ⟨violation, hv⟩
    exact h.unviolated ⟨violation, hp.symm.trans hv⟩
  have hother : ∀ {t' : IoTask N}, t'.core.Sound → t'.core.Obliging builder →
      (∀ violation, t'.position ≠ .done (.failed (.localProtocolViolation violation))) →
        Lawful builder t' :=
    fun hs' ho hp => ⟨hs', ho, fun hv => hv.elim hp⟩
  cases hs with
  | enqueue item issued _ _ _ =>
    refine hold hsound ⟨h.obliging.config, ?_, h.obliging.waiting, h.obliging.mapped⟩ rfl
    intro item' hm
    rcases List.mem_append.mp hm with hm | hm
    · exact h.obliging.queued item' hm
    · rw [List.mem_singleton.mp hm]
      simpa [rpcWithinLimits, rpcOnly, ProtocolBuilder.Accepts] using hok
  | event outcome event core htop _ hparse =>
    exact hold hsound (hparse.accepts h.obliging h.sound.valid).2 rfl
  | failed outcome err core _ _ hparse =>
    obtain ⟨hno, ho⟩ := hparse.accepts h.obliging h.sound.valid
    refine hother hsound ho ?_
    rintro violation ⟨rfl⟩
    exact hno violation rfl
  | selecting outcome core core' _ _ hparse hready =>
    have ho := (hparse.accepts h.obliging h.sound.valid).2
    refine hother hsound ?_ (by simp)
    cases hready <;> exact ho.idle rfl rfl rfl rfl
  | writeAll current core position r _ hc _ hsent hp =>
    have hwritten : (t.currentWritten current current.frame.remaining).core.Obliging builder :=
      h.obliging.idle rfl rfl rfl rfl
    obtain ⟨hno, ho⟩ := hsent.accepts hwritten
    refine hother hsound ho ?_
    intro violation hv
    cases r with
    | ok _ => simp [hp] at hv
    | error err =>
      have herr : err = .localProtocolViolation violation := by simpa [hp] using hv
      exact hno violation (congrArg Except.error herr)
  | taken a item rest core _ _ hq hi =>
    exact hother hsound (h.item hq hi).2 (by simp)
  | rejected a item rest core violation _ _ hq hi =>
    have hok' := (h.item hq hi).1
    simp at hok'
  | dropHandles => exact hold hsound (h.obliging.idle rfl rfl rfl rfl) rfl
  | writeSome current k _ _ _ _ =>
    exact hold hsound (h.obliging.idle rfl rfl rfl rfl) rfl
  | writeSomeError pending data k _ _ _ _ =>
    exact hold hsound (h.obliging.idle rfl rfl rfl rfl) rfl
  | read bytes position _ _ _ hp =>
    refine hother hsound (h.obliging.idle rfl rfl rfl rfl) ?_
    rcases hp with rfl | rfl <;> simp
  | writeAllPanic current _ _ _ _ =>
    exact hother hsound (h.obliging.idle rfl rfl rfl rfl) (by simp)
  | writeAllError pending data _ _ _ =>
    exact hother hsound (h.obliging.idle rfl rfl rfl rfl) (by simp)
  | _ => exact hother hsound h.obliging (by simp)

theorem new (builder : ProtocolBuilder N) : Lawful builder (IoTask.new builder) where
  sound := IoCore.new_sound builder
  obliging := by
    refine ⟨fun _ => rfl, ?_, ?_, ?_⟩ <;> simp [IoTask.new, IoCore.new, BiMap.empty]
  unviolated := by simp [Violated, IoTask.new]

end Lawful

/-- In every run through the rpc layer in which all payloads are within the limits of their channels
there is no local protocol violation. -/
theorem rpc_unviolated {builder : ProtocolBuilder N}
    (h : Reach builder (rpcWithinLimits builder) t) : ¬ Violated t :=
  (Reach.keeps (Lawful.new builder) (fun hP hok hs => hP.step hok hs) h).unviolated

/-- A request without payload that is sent, and behind it one with a payload of this length. -/
def secondRequest (length : Nat) : List IoAct :=
  [.enqueue (.request ⟨0⟩ ⟨1⟩ none), .turn, .recv, .tryRecv, .turn, .write 4, .turn,
    .enqueue (.request ⟨0⟩ ⟨2⟩ (some (List.replicate length 0))), .recv]

/-- One request with a payload that is too long ends the connection, with another request
unanswered. -/
theorem oversized_request_violates :
    ∃ t, run pairBuilder rpcOnly (secondRequest 21) = some t ∧ Reach pairBuilder rpcOnly t ∧
      t.position = .done (.failed (.localProtocolViolation (.payloadExceedsLimit 21 20))) ∧
      t.core.requestMap.getByLeft ⟨1⟩ = some (⟨0⟩, ⟨1⟩) ∧ t.events = [] ∧ Violated t := by
  have hrun : (run pairBuilder rpcOnly (secondRequest 21)).map
      (fun t => (t.position, t.core.requestMap.getByLeft ⟨1⟩, t.events)) =
        some (.done (.failed (.localProtocolViolation (.payloadExceedsLimit 21 20))),
          some (⟨0⟩, ⟨1⟩), []) := rfl
  obtain ⟨t, ht, he⟩ := Option.map_eq_some_iff.mp hrun
  simp only [Prod.mk.injEq] at he
  obtain ⟨hp, hmap, hevents⟩ := he
  exact ⟨t, ht, Transition.Reach.exec .start ht, hp, hmap, hevents, _, hp⟩

/-- A payload as long as the limit is sent. -/
theorem rpc_unviolated_longest :
    ∃ t, run pairBuilder (rpcWithinLimits pairBuilder) (secondRequest 20) = some t ∧
      t.position = .draining ∧
      t.core.history.length = 2 ∧ ¬ Violated t := by
  have hrun : (run pairBuilder (rpcWithinLimits pairBuilder) (secondRequest 20)).map
      (fun t => (t.position, t.core.history.length)) = some (.draining, 2) := rfl
  obtain ⟨t, ht, he⟩ := Option.map_eq_some_iff.mp hrun
  simp only [Prod.mk.injEq] at he
  exact ⟨t, ht, he.1, he.2, rpc_unviolated (Transition.Reach.exec .start ht)⟩

end IoTask

end Juliet
