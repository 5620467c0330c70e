import Juliet.ProtocolRuns
import Juliet.TaskSteps

namespace Juliet

open Rust

/-- A frame whose preamble is laid out in full and whose cursor stands within it. -/
def OutgoingFrame.WellFormed (f : OutgoingFrame) : Prop :=
  f.preamble.asRef.length = f.preamble.len ∧ f.position ≤ f.preamble.len

namespace OutgoingFrame

theorem Fresh.wellFormed {f : OutgoingFrame} (h : f.Fresh) : f.WellFormed := by
  refine ⟨h.2, ?_⟩
  rw [h.1]
  exact Nat.zero_le _

theorem WellFormed.advance {f : OutgoingFrame} (h : f.WellFormed) (k : Nat) :
    (f.advance k).WellFormed := by
  obtain ⟨hl, hp⟩ := h
  unfold OutgoingFrame.advance
  split
  next hk =>
    refine ⟨hl, ?_⟩
    dsimp only
    omega
  next => exact ⟨hl, le_rfl⟩

theorem WellFormed.bytes_length {f : OutgoingFrame} (h : f.WellFormed) :
    f.bytes.length = f.remaining := by
  simp only [bytes, remaining, List.length_append, List.length_drop, h.1]

theorem WellFormed.bytes_advance {f : OutgoingFrame} (h : f.WellFormed) (k : Nat) :
    (f.advance k).bytes = f.bytes.drop k := by
  obtain ⟨hl, hp⟩ := h
  have hlen : (f.preamble.asRef.drop f.position).length = f.preamble.len - f.position := by
    rw [List.length_drop, hl]
  unfold OutgoingFrame.advance
  split
  next hk =>
    simp only [bytes]
    rw [List.drop_append_of_le_length (by omega), List.drop_drop]
  next hk =>
    simp only [bytes]
    rw [List.drop_append, hlen,
      List.drop_of_length_le (by omega : f.preamble.asRef.length ≤ f.preamble.len),
      List.drop_of_length_le (by omega : (f.preamble.asRef.drop f.position).length ≤ k)]

theorem advance_position {f : OutgoingFrame} {k : Nat} (hk : 0 < k) :
    0 < (f.advance k).position := by
  unfold OutgoingFrame.advance
  split
  next => dsimp only; omega
  next => simp only [Preamble.len, Header.size]; omega

end OutgoingFrame

/-- How the messages of the history come from their items. -/
inductive Sent.Made (N : Nat) : Sent → Prop
  | request (channel : ChannelId) (ioId : IoId) (payload : Option Bytes)
      (id : Id) : channel.get.toNat < N →
      Made N ⟨.request channel ioId payload, Channel.requestMessage channel id payload⟩
  | requestCancellation (ioId : IoId) (channel : ChannelId) (id : Id) : channel.get.toNat < N →
      Made N ⟨.requestCancellation ioId, createUncheckedRequestCancellation channel id⟩
  | response (channel : ChannelId) (id : Id) (payload : Option Bytes) : channel.get.toNat < N →
      Made N ⟨.response channel id payload, createUncheckedResponse channel id payload⟩
  | responseCancellation (channel : ChannelId) (id : Id) : channel.get.toNat < N →
      Made N ⟨.responseCancellation channel id, createUncheckedResponseCancellation channel id⟩

theorem Sent.Made.header {N : Nat} {sent : Sent} (h : sent.Made N) :
    sent.msg.header.isError = false ∧ sent.msg.header.channel.get.toNat < N := by
  cases h with
  | request channel ioId payload id hc =>
    cases payload <;> exact ⟨Header.new_isError _ _ _, by simpa [Channel.requestMessage,
      OutgoingMessage.new] using hc⟩
  | requestCancellation ioId channel id hc =>
    exact ⟨Header.new_isError _ _ _, by simpa [createUncheckedRequestCancellation,
      OutgoingMessage.new] using hc⟩
  | response channel id payload hc =>
    cases payload <;> exact ⟨Header.new_isError _ _ _, by simpa [createUncheckedResponse,
      OutgoingMessage.new] using hc⟩
  | responseCancellation channel id hc =>
    exact ⟨Header.new_isError _ _ _, by simpa [createUncheckedResponseCancellation,
      OutgoingMessage.new] using hc⟩

/-- The items that wait on a channel. -/
def QueuedItem.waitsOn : QueuedItem → Nat → Prop
  | .request channel _ _, i => channel.get.toNat = i
  | .response channel _ _, i => channel.get.toNat = i
  | _, _ => False

theorem waitsForTransfer_some {N : Nat} {m : MaxFrameSize} {active : Fin N → Option Header}
    {channel channel' : ChannelId} {payload : Option Bytes}
    (h : waitsForTransfer m active channel payload = .ok (some channel')) : channel' = channel := by
  obtain ⟨i, _, h⟩ := bind_eq_ok.mp h
  split at h
  next =>
    have he := Except.ok.inj h
    exact (Option.some.inj he).symm
  next =>
    have he := Except.ok.inj h
    simp at he

theorem itemShouldWait_some {N : Nat} {item : QueuedItem} {juliet : JulietProtocol N}
    {active : Fin N → Option Header} {channel : ChannelId}
    (h : itemShouldWait item juliet active = .ok (.ok (some channel))) :
    item.waitsOn channel.get.toNat := by
  unfold itemShouldWait at h
  split at h
  next ch _ payload =>
    split at h
    next =>
      have he := Except.ok.inj h
      simp at he
    next =>
      have he := Except.ok.inj h
      simp only [Except.ok.injEq, Option.some.injEq] at he
      subst he
      rfl
    next =>
      obtain ⟨waits, hw, h⟩ := bind_eq_ok.mp h
      have he := Except.ok.inj (Except.ok.inj h)
      subst he
      rw [waitsForTransfer_some hw]
      rfl
  next ch _ payload =>
    obtain ⟨waits, hw, h⟩ := bind_eq_ok.mp h
    have he := Except.ok.inj (Except.ok.inj h)
    subst he
    rw [waitsForTransfer_some hw]
    rfl
  next => simp at h
  next => simp at h
  next => simp at h

namespace IoCore

variable {N : Nat} {self c : IoCore N}

@[simp]
theorem created_juliet (i : Fin N) (item : QueuedItem) (msg : OutgoingMessage)
    (juliet : JulietProtocol N) (requestMap : BiMap IoId (ChannelId × Id)) :
    (self.created i item msg juliet requestMap).juliet = juliet := by
  unfold created
  split <;> rfl

@[simp]
theorem created_requestMap (i : Fin N) (item : QueuedItem) (msg : OutgoingMessage)
    (juliet : JulietProtocol N) (requestMap : BiMap IoId (ChannelId × Id)) :
    (self.created i item msg juliet requestMap).requestMap = requestMap := by
  unfold created
  split <;> rfl

@[simp]
theorem created_readyQueue (i : Fin N) (item : QueuedItem) (msg : OutgoingMessage)
    (juliet : JulietProtocol N) (requestMap : BiMap IoId (ChannelId × Id)) :
    (self.created i item msg juliet requestMap).readyQueue =
      self.readyQueue ++ [⟨self.history.length, msg.frames⟩] := by
  unfold created
  split <;> rfl

@[simp]
theorem created_history (i : Fin N) (item : QueuedItem) (msg : OutgoingMessage)
    (juliet : JulietProtocol N) (requestMap : BiMap IoId (ChannelId × Id)) :
    (self.created i item msg juliet requestMap).history = self.history ++ [⟨item, msg⟩] := by
  unfold created
  split <;> rfl

@[simp]
theorem created_currentFrame (i : Fin N) (item : QueuedItem) (msg : OutgoingMessage)
    (juliet : JulietProtocol N) (requestMap : BiMap IoId (ChannelId × Id)) :
    (self.created i item msg juliet requestMap).currentFrame = self.currentFrame := by
  unfold created
  split <;> rfl

@[simp]
theorem created_pendingError (i : Fin N) (item : QueuedItem) (msg : OutgoingMessage)
    (juliet : JulietProtocol N) (requestMap : BiMap IoId (ChannelId × Id)) :
    (self.created i item msg juliet requestMap).pendingError = self.pendingError := by
  unfold created
  split <;> rfl

@[simp]
theorem created_waitQueue (i : Fin N) (item : QueuedItem) (msg : OutgoingMessage)
    (juliet : JulietProtocol N) (requestMap : BiMap IoId (ChannelId × Id)) :
    (self.created i item msg juliet requestMap).waitQueue = self.waitQueue := by
  unfold created
  split <;> rfl

@[simp]
theorem created_receiver (i : Fin N) (item : QueuedItem) (msg : OutgoingMessage)
    (juliet : JulietProtocol N) (requestMap : BiMap IoId (ChannelId × Id)) :
    (self.created i item msg juliet requestMap).receiver = self.receiver := by
  unfold created
  split <;> rfl

theorem created_active (i : Fin N) (item : QueuedItem) (msg : OutgoingMessage)
    (juliet : JulietProtocol N) (requestMap : BiMap IoId (ChannelId × Id)) :
    (self.created i item msg juliet requestMap).activeMultiFrame =
      if msg.isMultiFrame juliet.maxFrameSize then
        Function.update self.activeMultiFrame i (some msg.header)
      else self.activeMultiFrame := by
  unfold created
  split <;> rfl

/-- What holds of a core whatever is enqueued and whatever its peer sends. -/
structure Sound (core : IoCore N) : Prop where
  valid : core.juliet.Valid
  made : ∀ sent ∈ core.history, sent.Made N
  ready : ∀ entry ∈ core.readyQueue, ∃ sent, core.history[entry.serial]? = some sent ∧
    entry.frames.msg = sent.msg
  current : ∀ current ∈ core.currentFrame, current.frame.WellFormed ∧
    ∃ sent, core.history[current.serial]? = some sent ∧ current.frame.header = sent.msg.header
  waiting : ∀ i : Fin N, ∀ item ∈ core.waitQueue i, item.waitsOn i
  pending : ∀ frame ∈ core.pendingError, frame.WellFormed ∧ frame.header.isError = true

theorem new_sound (builder : ProtocolBuilder N) : (IoCore.new builder).Sound where
  valid := JulietProtocol.build_valid builder
  made := by simp [IoCore.new]
  ready := by simp [IoCore.new]
  current := by simp [IoCore.new]
  waiting := by simp [IoCore.new]
  pending := by simp [IoCore.new]

namespace Sound

/-- The frame at hand is of a message on a channel that exists, and not an error. -/
theorem current_channel {current : CurrentFrame} (h : self.Sound)
    (hc : self.currentFrame = some current) :
    current.frame.header.isError = false ∧
    ∃ i : Fin N, current.frame.header.channel.get.toNat = i := by
  obtain ⟨_, sent, hsent, hhd⟩ := h.current current hc
  obtain ⟨hplain, hlt⟩ := (h.made sent (List.mem_of_getElem? hsent)).header
  rw [hhd]
  exact ⟨hplain, ⟨_, hlt⟩, rfl⟩

theorem created (h : self.Sound) (i : Fin N) {item : QueuedItem} {msg : OutgoingMessage}
    {juliet : JulietProtocol N} (requestMap : BiMap IoId (ChannelId × Id))
    (hm : Sent.Made N ⟨item, msg⟩) (hv : juliet.Valid) :
    (self.created i item msg juliet requestMap).Sound where
  valid := by simpa using hv
  made := by
    intro sent hs
    rw [created_history, List.mem_append, List.mem_singleton] at hs
    rcases hs with hs | rfl
    · exact h.made sent hs
    · exact hm
  ready := by
    intro entry he
    rw [created_readyQueue, List.mem_append, List.mem_singleton] at he
    rw [created_history]
    rcases he with he | rfl
    · obtain ⟨sent, hs, hmsg⟩ := h.ready entry he
      exact ⟨sent, (List.getElem?_append_left (List.getElem?_eq_some_iff.mp hs).1).trans hs, hmsg⟩
    · exact ⟨⟨item, msg⟩, by simp, rfl⟩
  current := by
    intro current hc
    rw [created_currentFrame] at hc
    rw [created_history]
    obtain ⟨hw, sent, hs, hhd⟩ := h.current current hc
    exact ⟨hw, sent, (List.getElem?_append_left (List.getElem?_eq_some_iff.mp hs).1).trans hs, hhd⟩
  waiting := by simpa using h.waiting
  pending := by simpa using h.pending

theorem erroring (h : self.Sound) {frame : OutgoingFrame} (hf : frame.Fresh)
    (he : frame.header.isError = true) :
    (self.erroring frame).Sound where
  valid := h.valid
  made := h.made
  ready := by simp [IoCore.erroring]
  current := h.current
  waiting := by simp [IoCore.erroring]
  pending := by
    intro f hmem
    cases Option.some.inj hmem
    exact ⟨hf.wellFormed, he⟩

theorem setWaitQueue (h : self.Sound) {i : Fin N} {queue : List QueuedItem}
    (hq : ∀ item ∈ queue, item.waitsOn i) :
    (self.setWaitQueue i queue).Sound :=
  { h with
    waiting := by
      intro j item hm
      by_cases hj : j = i
      · subst hj
        simp only [IoCore.setWaitQueue, Function.update_self] at hm
        exact hq item hm
      · simp only [IoCore.setWaitQueue, Function.update_of_ne hj] at hm
        exact h.waiting j item hm }

theorem sendStep {item : QueuedItem} {r : Except LocalProtocolViolation Unit} (h : self.Sound)
    (hs : SendStep self item r c) : c.Sound := by
  cases hs with
  | request channel ioId payload i id hi ha _ _ =>
    exact h.created i _ (.request channel ioId payload id (hi ▸ i.isLt))
      (h.valid.setChannel ((h.valid i).withRequest ha id))
  | cancel ioId channel i id hi _ _ =>
    exact h.created i _ (.requestCancellation ioId channel id (hi ▸ i.isLt)) h.valid
  | response channel id payload i hi _ _ =>
    exact h.created i _ (.response channel id payload (hi ▸ i.isLt)) (h.valid.answered i id)
  | responseCancellation channel id i hi _ =>
    exact h.created i _ (.responseCancellation channel id (hi ▸ i.isLt)) (h.valid.answered i id)
  | late _ _ _ => exact h
  | refused _ _ => exact h
  | oversized channel id payload i _ _ _ _ => exact { h with valid := h.valid.answered i id }
  | error channel id payload frame hf hhd =>
    refine h.erroring hf ?_
    rw [hhd]
    exact Header.newError_isError _ _ _

theorem scanStep {i : Fin N} (h : self.Sound) (hs : ScanStep i self c) : c.Sound := by
  have hrest : ∀ {item rest}, self.waitQueue i = item :: rest →
      ∀ item' ∈ rest, item'.waitsOn i := by
    intro item rest hq item' hm
    exact h.waiting i item' (hq ▸ List.mem_cons_of_mem item hm)
  cases hs with
  | rotate item rest channel hq hw =>
    refine h.setWaitQueue ?_
    intro item' hm
    rcases List.mem_append.mp hm with hm | hm
    · exact hrest hq item' hm
    · rw [List.mem_singleton.mp hm]
      exact h.waiting i item (hq ▸ List.mem_cons_self)
  | promote item rest r c hq hw hs => exact (h.setWaitQueue (hrest hq)).sendStep hs
  | lose item rest hq => exact h.setWaitQueue (hrest hq)

theorem scans {i : Fin N} (h : self.Sound) (hs : Relation.ReflTransGen (ScanStep i) self c) :
    c.Sound := by
  induction hs with
  | refl => exact h
  | tail _ hstep ih => exact ih.scanStep hstep

theorem processWaitQueue {channel : ChannelId} {r : Except LocalProtocolViolation Unit}
    (h : self.Sound) (hq : self.processWaitQueue channel = .ok (r, c)) : c.Sound :=
  processWaitQueue_keeps hq h (fun h hs => h.scanStep hs)

/-- What each step of a scan keeps in a sound core. -/
theorem scansKeep {channel : ChannelId} {r : Except LocalProtocolViolation Unit}
    {P : IoCore N → Prop} (h : self.Sound) (hq : self.processWaitQueue channel = .ok (r, c))
    (hP : P self) (hkeep : ∀ {i : Fin N} {b c : IoCore N}, b.Sound → P b → ScanStep i b c → P c) :
    P c := by
  have hall : c.Sound ∧ P c := by
    refine processWaitQueue_keeps (P := fun c => c.Sound ∧ P c) hq ⟨h, hP⟩ ?_
    rintro i b c ⟨hb, hPb⟩ hs
    exact ⟨hb.scanStep hs, hkeep hb hPb hs⟩
  exact hall.2

theorem handleCompletedRead (h : self.Sound) (read : CompletedRead) :
    (self.handleCompletedRead read).2.Sound := by
  rcases self.handleCompletedRead_core read with he | ⟨key, he⟩
  · exact he.symm ▸ h
  · rw [he]
    exact { h with }

theorem parsed {juliet : JulietProtocol N} (h : self.Sound) (hv : juliet.Valid) (buffer : Bytes) :
    (self.parsed juliet buffer).Sound :=
  { h with valid := hv }

theorem parseStep {outcome : Option ReadOutcome} {result : Option (Except CoreError IoEvent)}
    (h : self.Sound) (hs : ParseStep self outcome result c) : c.Sound := by
  cases hs with
  | skip _ => exact h
  | incomplete n juliet buffer hp => exact { h.parsed (h.valid.processIncoming hp) buffer with }
  | fatal errMsg juliet buffer frame hp hf hhd =>
    refine (h.parsed (h.valid.processIncoming hp) buffer).erroring hf ?_
    rw [hhd]
    exact JulietProtocol.processIncoming_fatal h.valid hp
  | event read juliet buffer hp _ =>
    exact (h.parsed (h.valid.processIncoming hp) buffer).handleCompletedRead read
  | response channel id payload juliet buffer c hp hq =>
    exact ((h.parsed (h.valid.processIncoming hp) buffer).processWaitQueue hq).handleCompletedRead _
  | violation channel id payload juliet buffer err c hp hq =>
    exact (h.parsed (h.valid.processIncoming hp) buffer).processWaitQueue hq

/-- The frame that is handed out next belongs to the message of its entry. -/
theorem front {entry : ReadyEntry} {rest : List ReadyEntry} (h : self.Sound)
    (hq : self.readyQueue = entry :: rest) (m : MaxFrameSize) :
    (entry.frames.nextOwned m).1.WellFormed ∧ ∃ sent, self.history[entry.serial]? = some sent ∧
      (entry.frames.nextOwned m).1.header = sent.msg.header := by
  obtain ⟨sent, hs, hmsg⟩ := h.ready entry (hq ▸ List.mem_cons_self)
  refine ⟨(entry.frames.nextOwned_fresh m).wellFormed, sent, hs, ?_⟩
  rw [FrameIter.nextOwned_header, FrameIter.header, hmsg]

theorem readyStep (h : self.Sound) (hs : ReadyStep self c) : c.Sound := by
  cases hs with
  | busy _ _ => exact h
  | empty _ _ => exact h
  | more entry rest next _ hq hn =>
    refine { h with ready := ?_, current := ?_ }
    · intro e he
      rcases List.mem_append.mp he with he | he
      · exact h.ready e (hq ▸ List.mem_cons_of_mem entry he)
      · rw [List.mem_singleton.mp he]
        obtain ⟨sent, hsent, hmsg⟩ := h.ready entry (hq ▸ List.mem_cons_self)
        exact ⟨sent, hsent, (FrameIter.nextOwned_some hn).1.trans hmsg⟩
    · intro current hc
      cases Option.some.inj hc
      exact h.front hq _
  | final entry rest _ hq _ =>
    refine { h with ready := ?_, current := ?_ }
    · intro e he
      exact h.ready e (hq ▸ List.mem_cons_of_mem entry he)
    · intro current hc
      cases Option.some.inj hc
      exact h.front hq _

theorem cleared (h : self.Sound) (sent : CurrentFrame) (i : Fin N) : (self.cleared sent i).Sound :=
  { h with current := by simp [IoCore.cleared] }

theorem sentStep {sent : CurrentFrame} {r : Except CoreError Unit} (h : self.Sound)
    (hs : SentStep self sent r c) :
    c.Sound := by
  cases hs with
  | error active _ => exact { h with current := by simp }
  | scanned i c _ hq => exact (h.cleared sent i).processWaitQueue hq
  | violation i c err _ hq => exact (h.cleared sent i).processWaitQueue hq

theorem itemStep {item : QueuedItem} {r : Except LocalProtocolViolation Unit} (h : self.Sound)
    (hs : ItemStep self item r c) : c.Sound := by
  cases hs with
  | refused _ _ => exact h
  | wait channel i hi hw =>
    refine h.setWaitQueue ?_
    intro item' hm
    rcases List.mem_append.mp hm with hm | hm
    · exact h.waiting i item' hm
    · rw [List.mem_singleton.mp hm, ← hi]
      exact itemShouldWait_some hw
  | send r c _ hs => exact h.sendStep hs

end Sound

end IoCore

namespace IoTask

variable {N : Nat} {t t' : IoTask N}

theorem sound_dequeued (h : t.core.Sound) (rest : List QueuedItem) : (t.dequeued rest).Sound :=
  { h with }

theorem sound_currentWritten {current : CurrentFrame} (h : t.core.Sound)
    (hc : t.core.currentFrame = some current) (k : Nat) : (t.currentWritten current k).core.Sound :=
  { h with
    current := by
      intro current' hc'
      cases Option.some.inj hc'
      obtain ⟨hw, sent, hs, hhd⟩ := h.current current hc
      exact ⟨hw.advance k, sent, hs, (header_advance _ _).trans hhd⟩ }

theorem Step.sound {a : IoAct} (h : t.core.Sound) (hs : Step t a t') : t'.core.Sound := by
  cases hs with
  | enqueue item issued _ _ _ => exact sound_dequeued h _
  | dropHandles => exact { h with }
  | event outcome event core _ _ hp => exact h.parseStep hp
  | failed outcome err core _ _ hp => exact h.parseStep hp
  | selecting outcome core core' _ _ hp hr => exact (h.parseStep hp).readyStep hr
  | writeSome current k _ hc _ _ => exact sound_currentWritten h hc k
  | writeAll current core position r _ hc _ hs _ => exact (sound_currentWritten h hc _).sentStep hs
  | writeAllPanic current _ hc _ => exact sound_currentWritten h hc _
  | writeSomeError pending data k _ hp _ _ =>
    refine { h with pending := ?_ }
    intro frame hf
    cases Option.some.inj hf
    obtain ⟨hw, he⟩ := h.pending pending hp
    exact ⟨hw.advance k, by rwa [header_advance]⟩
  | writeAllError pending data _ _ _ => exact { h with pending := by simp }
  | read bytes position _ _ _ _ => exact { h with }
  | taken a item rest core _ _ _ hi | rejected a item rest core _ _ _ _ hi =>
    exact (sound_dequeued h rest).itemStep (IoCore.handleIncomingItem_steps hi)
  | _ => exact h

end IoTask

end Juliet
