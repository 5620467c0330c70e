import Juliet.IoSteps

namespace Juliet

open Rust

namespace IoCore

variable {N : Nat}

/-- A completed read leaves the core alone but for the request that it can take out of the request
map. -/
theorem handleCompletedRead_core (self : IoCore N) (read : CompletedRead) :
    (self.handleCompletedRead read).2 = self ∨
      ∃ key, (self.handleCompletedRead read).2 =
        { self with requestMap := (self.requestMap.removeByRight key).2 } := by
  cases read with
  | receivedResponse channel id payload | responseCancellation channel id =>
    refine .inr ⟨(channel, id), ?_⟩
    simp only [handleCompletedRead]
    split <;> rfl
  | _ => exact .inl rfl

/-- The errors that a completed read can bring up. -/
theorem handleCompletedRead_error {self : IoCore N} {read : CompletedRead} {err : CoreError}
    (h : (self.handleCompletedRead read).1 = .error err) :
    (∃ header data, err = .remoteReportedError header data) ∨
    ∃ text, err = .internalError text := by
  cases read with
  | errorReceived header data => exact .inl ⟨header, data, (Except.error.inj h).symm⟩
  | receivedResponse channel id payload | responseCancellation channel id =>
    simp only [handleCompletedRead] at h
    split at h
    next => simp at h
    next => exact .inr ⟨_, (Except.error.inj h).symm⟩
  | _ => simp [handleCompletedRead] at h

/-- The core after a call of `process_incoming`. -/
def parsed (self : IoCore N) (juliet : JulietProtocol N) (buffer : Bytes) : IoCore N :=
  { self with nextParseAt := 0, juliet, buffer }

/-- Everything the part of the loop that parses can do. -/
inductive ParseStep (self : IoCore N) : Option ReadOutcome → Option
    (Except CoreError IoEvent) → IoCore N → Prop
  | skip : self.buffer.length < self.nextParseAt → ParseStep self none none self
  | incomplete (n : NonZeroU32) (juliet : JulietProtocol N) (buffer : Bytes) :
      self.juliet.processIncoming self.buffer = .ok (.incomplete n, juliet, buffer) →
      ParseStep self (some (.incomplete n)) none
        { self.parsed juliet buffer with nextParseAt := buffer.length + n.get }
  | fatal (errMsg : OutgoingMessage) (juliet : JulietProtocol N) (buffer : Bytes)
      (frame : OutgoingFrame) :
      self.juliet.processIncoming self.buffer = .ok (.fatal errMsg, juliet, buffer) →
      frame.Fresh → frame.header = errMsg.header →
      ParseStep self (some (.fatal errMsg)) none ((self.parsed juliet buffer).erroring frame)
  | event (read : CompletedRead) (juliet : JulietProtocol N) (buffer : Bytes) :
      self.juliet.processIncoming self.buffer = .ok (.success read, juliet, buffer) →
      (∀ channel id payload, read ≠ .receivedResponse channel id payload) →
      ParseStep self (some (.success read))
        (some ((self.parsed juliet buffer).handleCompletedRead read).1)
        ((self.parsed juliet buffer).handleCompletedRead read).2
  | response (channel : ChannelId) (id : Id) (payload : Option Bytes) (juliet : JulietProtocol N)
      (buffer : Bytes)
      (c : IoCore N) :
      self.juliet.processIncoming self.buffer =
        .ok (.success (.receivedResponse channel id payload), juliet, buffer) →
      (self.parsed juliet buffer).processWaitQueue channel = .ok (.ok (), c) →
        self.nextParseAt ≤ self.buffer.length →
      ParseStep self (some (.success (.receivedResponse channel id payload)))
        (some (c.handleCompletedRead (.receivedResponse channel id payload)).1)
        (c.handleCompletedRead (.receivedResponse channel id payload)).2
  | violation (channel : ChannelId) (id : Id) (payload : Option Bytes) (juliet : JulietProtocol N)
      (buffer : Bytes)
      (err : LocalProtocolViolation) (c : IoCore N) :
      self.juliet.processIncoming self.buffer =
        .ok (.success (.receivedResponse channel id payload), juliet, buffer) →
      (self.parsed juliet buffer).processWaitQueue channel = .ok (.error err, c) →
      ParseStep self (some (.success (.receivedResponse channel id payload)))
        (some (.error (.localProtocolViolation err))) c

theorem parseIncoming_steps {self c : IoCore N} {outcome : Option ReadOutcome}
    {result : Option (Except CoreError IoEvent)}
    (h : self.parseIncoming = .ok (outcome, result, c)) :
    ParseStep self outcome result c := by
  unfold parseIncoming at h
  split at h
  next hparse =>
    obtain ⟨⟨o, juliet, buffer⟩, hp, h⟩ := bind_eq_ok.mp h
    cases o with
    | incomplete n =>
      obtain ⟨rfl, rfl, rfl⟩ := ok_triple h
      exact .incomplete n juliet buffer hp
    | fatal errMsg =>
      obtain ⟨c', hinj, h⟩ := bind_eq_ok.mp h
      obtain ⟨frame, rfl, hfresh, hhd⟩ := injectError_cases hinj
      obtain ⟨rfl, rfl, rfl⟩ := ok_triple h
      exact .fatal errMsg juliet buffer frame hp hfresh hhd
    | success read =>
      cases read with
      | receivedResponse channel id payload =>
        obtain ⟨⟨r, c'⟩, hq, h⟩ := bind_eq_ok.mp h
        cases r with
        | error err =>
          obtain ⟨rfl, rfl, rfl⟩ := ok_triple h
          exact .violation channel id payload juliet buffer err c' hp hq
        | ok _ =>
          obtain ⟨rfl, rfl, rfl⟩ := ok_triple h
          exact .response channel id payload juliet buffer c' hp hq hparse
      | _ =>
        obtain ⟨rfl, rfl, rfl⟩ := ok_triple h
        exact .event _ juliet buffer hp (by simp)
  next hlt =>
    obtain ⟨rfl, rfl, rfl⟩ := ok_triple h
    exact .skip (by omega)

/-- Readying a frame does nothing or hands out the next frame of the first entry. -/
inductive ReadyStep (self : IoCore N) : IoCore N → Prop
  | busy (current : CurrentFrame) : self.currentFrame = some current → ReadyStep self self
  | empty : self.currentFrame = none → self.readyQueue = [] → ReadyStep self self
  | more (entry : ReadyEntry) (rest : List ReadyEntry)
      (next : FrameIter) : self.currentFrame = none →
      self.readyQueue = entry :: rest →
        (entry.frames.nextOwned self.juliet.maxFrameSize).2 = some next →
      ReadyStep self { self with
        readyQueue := rest ++ [⟨entry.serial, next⟩]
        currentFrame := some ⟨(entry.frames.nextOwned self.juliet.maxFrameSize).1,
          false, entry.serial⟩ }
  | final (entry : ReadyEntry) (rest : List ReadyEntry) : self.currentFrame = none →
      self.readyQueue = entry :: rest → (entry.frames.nextOwned self.juliet.maxFrameSize).2 = none →
      ReadyStep self { self with
        readyQueue := rest
        currentFrame := some ⟨(entry.frames.nextOwned self.juliet.maxFrameSize).1,
          true, entry.serial⟩ }

theorem ReadyStep.keeps {self c : IoCore N} (hs : ReadyStep self c) :
    c.waitQueue = self.waitQueue ∧ c.pendingError = self.pendingError := by
  cases hs <;> exact ⟨rfl, rfl⟩

theorem readyIfIdle_steps {self c : IoCore N} (h : self.readyIfIdle = .ok c) :
    ReadyStep self c := by
  unfold readyIfIdle at h
  split at h
  next hidle =>
    obtain ⟨hnone, hne⟩ := hidle
    obtain ⟨_, _, h⟩ := bind_eq_ok.mp h
    split at h
    next hq => exact absurd hq hne
    next entry rest hq =>
      dsimp only at h
      split at h
      next next hn =>
        cases Except.ok.inj h
        exact .more entry rest next hnone hq hn
      next hn =>
        cases Except.ok.inj h
        exact .final entry rest hnone hq hn
  next hbusy =>
    cases Except.ok.inj h
    cases hc : self.currentFrame with
    | some current => exact .busy current hc
    | none =>
      refine .empty hc ?_
      by_contra hne
      exact hbusy ⟨hc, hne⟩

/-- The core once a frame is gone: a finished multi-frame send is no longer active. -/
def cleared (self : IoCore N) (sent : CurrentFrame) (i : Fin N) : IoCore N :=
  { self with
    currentFrame := none
    activeMultiFrame :=
      if sent.isFinal = true ∧ self.activeMultiFrame i = some sent.frame.header then
        Function.update self.activeMultiFrame i none
      else self.activeMultiFrame }

theorem cleared_active_of_ne (self : IoCore N) (sent : CurrentFrame) {i j : Fin N} (hj : j ≠ i) :
    (self.cleared sent i).activeMultiFrame j = self.activeMultiFrame j := by
  simp only [cleared]
  split
  next => exact Function.update_of_ne hj _ _
  next => rfl

/-- Everything that can follow the last byte of the current frame. -/
inductive SentStep (self : IoCore N) (sent : CurrentFrame) : Except CoreError Unit → IoCore N → Prop
  | error (active : Fin N → Option Header) : sent.frame.header.isError = true →
      SentStep self sent (.error (.remoteProtocolViolation sent.frame.header none))
        { self with currentFrame := none, activeMultiFrame := active }
  | scanned (i : Fin N) (c : IoCore N) : sent.frame.header.channel.get.toNat = i →
      (self.cleared sent i).processWaitQueue sent.frame.header.channel = .ok (.ok (), c) →
        SentStep self sent (.ok ()) c
  | violation (i : Fin N) (c : IoCore N)
      (err : LocalProtocolViolation) : sent.frame.header.channel.get.toNat = i →
      (self.cleared sent i).processWaitQueue sent.frame.header.channel = .ok (.error err, c) →
      SentStep self sent (.error (.localProtocolViolation err)) c

theorem frameSent_steps {self c : IoCore N} {sent : CurrentFrame} {r : Except CoreError Unit}
    (h : self.frameSent sent = .ok (r, c)) : SentStep self sent r c := by
  unfold frameSent at h
  obtain ⟨c₁, h₁, h⟩ := bind_eq_ok.mp h
  have hactive : ∃ active, c₁ = { self with currentFrame := none, activeMultiFrame := active } := by
    split at h₁
    next =>
      obtain ⟨i, _, h₁⟩ := bind_eq_ok.mp h₁
      have hc₁ := Except.ok.inj h₁
      split at hc₁
      next => exact ⟨Function.update self.activeMultiFrame i none, hc₁.symm⟩
      next => exact ⟨self.activeMultiFrame, hc₁.symm⟩
    next => exact ⟨self.activeMultiFrame, (Except.ok.inj h₁).symm⟩
  split at h
  next he =>
    obtain ⟨rfl, rfl⟩ := ok_pair h
    obtain ⟨active, rfl⟩ := hactive
    exact .error active he
  next =>
    obtain ⟨⟨r', c'⟩, hq, h⟩ := bind_eq_ok.mp h
    obtain ⟨i, hi, _⟩ := bind_eq_ok.mp hq
    have hch := channelIndex_ok hi
    have hc₁ : c₁ = self.cleared sent i := by
      unfold cleared
      split at h₁
      next hfin =>
        simp only [clearActive, hi, bind_ok, pure_eq_ok] at h₁
        simp only [hfin, true_and]
        rw [← Except.ok.inj h₁]
        split <;> rfl
      next hfin =>
        simp only [hfin, Bool.false_eq_true, false_and, if_false]
        exact (Except.ok.inj h₁).symm
    subst hc₁
    cases r' with
    | error err =>
      obtain ⟨rfl, rfl⟩ := ok_pair h
      exact .violation i c' err hch hq
    | ok _ =>
      obtain ⟨rfl, rfl⟩ := ok_pair h
      exact .scanned i c' hch hq

/-- Everything that handling an item of the local queue can do. -/
inductive ItemStep (self : IoCore N) (item : QueuedItem) :
    Except LocalProtocolViolation Unit → IoCore N → Prop
  | refused (violation : LocalProtocolViolation) :
      itemShouldWait item self.juliet self.activeMultiFrame = .ok (.error violation) →
      ItemStep self item (.error violation) self
  | wait (channel : ChannelId) (i : Fin N) : channel.get.toNat = i →
      itemShouldWait item self.juliet self.activeMultiFrame = .ok (.ok (some channel)) →
      ItemStep self item (.ok ()) (self.setWaitQueue i (self.waitQueue i ++ [item]))
  | send (r : Except LocalProtocolViolation Unit) (c : IoCore N) :
      itemShouldWait item self.juliet self.activeMultiFrame = .ok (.ok none) →
        SendStep self item r c →
      ItemStep self item r c

theorem handleIncomingItem_steps {self c : IoCore N} {item : QueuedItem}
    {r : Except LocalProtocolViolation Unit} (h : self.handleIncomingItem item = .ok (r, c)) :
    ItemStep self item r c := by
  obtain ⟨waits, hw, h⟩ := bind_eq_ok.mp h
  split at h
  next violation =>
    obtain ⟨rfl, rfl⟩ := ok_pair h
    exact .refused violation hw
  next channel =>
    obtain ⟨i, hi, h⟩ := bind_eq_ok.mp h
    obtain ⟨rfl, rfl⟩ := ok_pair h
    exact .wait channel i (channelIndex_ok hi) hw
  next => exact .send r c hw (sendToReadyQueue_steps h)

end IoCore

namespace IoTask

variable {N : Nat}

/-- The core with what is left of its local queue. -/
def dequeued (t : IoTask N) (rest : List QueuedItem) : IoCore N :=
  { t.core with receiver := { t.core.receiver with queue := rest } }

/-- The task once the writer has taken `k` bytes of the current frame. -/
def currentWritten (t : IoTask N) (current : CurrentFrame) (k : Nat) : IoTask N :=
  { t with
    written := t.written ++ current.frame.bytes.take k
    begun := begin t.begun current.frame
    core := { t.core with currentFrame := some { current with frame := current.frame.advance k } } }

/-- Everything that can happen to a task. -/
inductive Step (t : IoTask N) : IoAct → IoTask N → Prop
  | enqueue (item : QueuedItem) (issued : Finset IoId) : t.core.receiver.closed = false →
      (∀ channel ioId payload, item = .request channel ioId payload → ioId ∉ t.issued) →
      issued = (match item with
        | .request _ ioId _ => insert ioId t.issued
        | _ => t.issued) →
      Step t (.enqueue item) { t with core := t.dequeued (t.core.receiver.queue ++ [item]), issued }
  | dropHandles : Step t .dropHandles
      { t with core := { t.core with receiver := { t.core.receiver with handles := false } } }
  | panic (a : IoAct) : t.position = .top ∨ t.position = .select ∨ t.position = .draining →
      Step t a { t with position := .panicked }
  | pending (frame : OutgoingFrame) (data : Option Bytes) : t.position = .top →
    t.core.pendingError = some frame →
      frame.errorData = .ok data → Step t .turn { t with position := .writingError data }
  | event (outcome : Option ReadOutcome) (event : IoEvent) (core : IoCore N) : t.position = .top →
      t.core.pendingError = none → t.core.ParseStep outcome (some (.ok event)) core →
      Step t .turn
        { t with core, outcomes := t.outcomes ++ outcome.toList, events := t.events ++ [event] }
  | failed (outcome : Option ReadOutcome) (err : CoreError) (core : IoCore N) : t.position = .top →
      t.core.pendingError = none → t.core.ParseStep outcome (some (.error err)) core →
      Step t .turn
        { t with core, outcomes := t.outcomes ++ outcome.toList, position := .done (.failed err) }
  | selecting (outcome : Option ReadOutcome) (core core' : IoCore N) : t.position = .top →
      t.core.pendingError = none → t.core.ParseStep outcome none core → core.ReadyStep core' →
      Step t .turn
        { t with core := core', outcomes := t.outcomes ++ outcome.toList, position := .select }
  | writeSome (current : CurrentFrame) (k : Nat) : t.position = .select →
    t.core.currentFrame = some current →
      0 < k → k < current.frame.remaining → Step t (.write k) (t.currentWritten current k)
  | writeAll (current : CurrentFrame) (core : IoCore N) (position : Position)
      (r : Except CoreError Unit) :
      t.position = .select → t.core.currentFrame = some current → 0 < current.frame.remaining →
      (t.currentWritten current current.frame.remaining).core.SentStep
        { current with frame := current.frame.advance current.frame.remaining } r core →
      position = (match r with
        | .error err => .done (.failed err)
        | .ok () => .top) →
      Step t (.write current.frame.remaining)
        { t.currentWritten current current.frame.remaining with
          core, position, sentFrames := t.sentFrames ++ [(current.serial, current.frame.header)] }
  | writeAllPanic (current : CurrentFrame) :
      t.position = .select → t.core.currentFrame = some current → 0 < current.frame.remaining →
      (∀ result, (t.currentWritten current current.frame.remaining).core.frameSent
        { current with frame := current.frame.advance current.frame.remaining } ≠ .ok result) →
      Step t (.write current.frame.remaining)
        { t.currentWritten current current.frame.remaining with
          position := .panicked
          sentFrames := t.sentFrames ++ [(current.serial, current.frame.header)] }
  | writeSomeError (pending : OutgoingFrame) (data : Option Bytes) (k : Nat) :
      t.position = .writingError data →
      t.core.pendingError = some pending → 0 < k → k < pending.remaining →
      Step t (.write k) { t with
        written := t.written ++ pending.bytes.take k
        begun := begin t.begun pending
        core := { t.core with pendingError := some (pending.advance k) } }
  | writeAllError (pending : OutgoingFrame) (data : Option Bytes) :
      t.position = .writingError data →
      t.core.pendingError = some pending → 0 < pending.remaining →
      Step t (.write pending.remaining) { t with
        written := t.written ++ pending.bytes.take pending.remaining
        begun := begin t.begun pending
        core := { t.core with pendingError := none }
        position := .done (.failed (.remoteProtocolViolation pending.header data)) }
  | writeFailed : t.position = .select ∨ (∃ data, t.position = .writingError data) →
      Step t .writeFailed { t with position := .done (.failed .writeFailed) }
  | read (bytes : Bytes) (position : Position) : t.position = .select →
    t.core.buffer.length < t.core.nextParseAt →
      t.core.buffer.length + bytes.length < 2 ^ 63 → position = .top ∨ position = .select →
      Step t (.read bytes)
        { t with core := { t.core with buffer := t.core.buffer ++ bytes }, position }
  | readDone : t.position = .select → t.core.nextParseAt ≤ t.core.buffer.length →
      Step t .readDone { t with position := .top }
  | readFailed : t.position = .select → Step t .readFailed
      { t with position := .done (.failed .readFailed) }
  | hangUp : t.position = .select → Step t .hangUp { t with position := .done .closed }
  | taken (a : IoAct) (item : QueuedItem) (rest : List QueuedItem)
      (core : IoCore N) : a = .recv ∨ a = .tryRecv →
      t.position = .select ∨ t.position = .draining → t.core.receiver.queue = item :: rest →
      (t.dequeued rest).handleIncomingItem item = .ok (.ok (), core) →
        Step t a { t with core, position := .draining }
  | rejected (a : IoAct) (item : QueuedItem) (rest : List QueuedItem) (core : IoCore N)
      (violation : LocalProtocolViolation) : a = .recv ∨ a = .tryRecv →
      t.position = .select ∨ t.position = .draining → t.core.receiver.queue = item :: rest →
      (t.dequeued rest).handleIncomingItem item = .ok (.error violation, core) →
      Step t a { t with core, position := .done (.failed (.localProtocolViolation violation)) }
  | recvClosed : t.position = .select → t.core.receiver.queue = [] →
      t.core.receiver.closed = true ∨ t.core.receiver.handles = false →
      Step t .recv { t with position := .done .closed }
  | drained : t.position = .draining → t.core.receiver.queue = [] → t.core.receiver.handles = true →
      Step t .tryRecv { t with position := .top }
  | drainedClosed {a : IoAct} : t.position = .draining → t.core.receiver.queue = [] →
      a = .tryRecv ∧ t.core.receiver.handles = false ∨ a = .tryRecvClosed ∧
        t.core.receiver.closed = true →
      Step t a { t with position := .done .closed }
  | timeout (data : Option Bytes) : t.position = .writingError data →
      Step t .timeout { t with position := .done (.failed .errorWriteTimeout) }
  | drop : t.position = .select ∨ (∃ data, t.position = .writingError data) → Step t .drop
      { t with position := .top }

theorem turn_steps {t : IoTask N} (htop : t.position = .top) : Step t .turn t.turn := by
  unfold turn
  split
  next frame hp =>
    split
    next => exact .panic _ (.inl htop)
    next data hd => exact .pending frame data htop hp hd
  next hp =>
    split
    next => exact .panic _ (.inl htop)
    next outcome event core h =>
      exact .event outcome event core htop hp (IoCore.parseIncoming_steps h)
    next outcome err core h => exact .failed outcome err core htop hp (IoCore.parseIncoming_steps h)
    next outcome core h =>
      split
      next => exact .panic _ (.inl htop)
      next core' hr =>
        exact .selecting outcome core core' htop hp (IoCore.parseIncoming_steps h)
          (IoCore.readyIfIdle_steps hr)

theorem remaining_advance {f : OutgoingFrame} {k : Nat} (hk : k ≤ f.remaining) :
    (f.advance k).remaining = f.remaining - k := by
  unfold OutgoingFrame.advance OutgoingFrame.remaining at *
  split
  next => dsimp only; omega
  next => simp only [List.length_drop]; omega

theorem header_advance (f : OutgoingFrame) (k : Nat) : (f.advance k).header = f.header := by
  unfold OutgoingFrame.advance
  split <;> rfl

/-- The core that a finished frame leaves does not depend on what has been taken of the frame. -/
theorem cleared_currentWritten (t : IoTask N) (current : CurrentFrame) (k k' : Nat) (i : Fin N) :
    (t.currentWritten current k).core.cleared { current with frame := current.frame.advance k' } i =
      t.core.cleared current i := by
  simp only [IoCore.cleared, currentWritten, header_advance]

theorem writeCurrent_steps {t : IoTask N} {current : CurrentFrame} {k : Nat}
    (hs : t.position = .select) (hc : t.core.currentFrame = some current) (h0 : 0 < k)
    (hk : k ≤ current.frame.remaining) :
    Step t (.write k) (t.writeCurrent current k) := by
  have hrem := remaining_advance hk
  unfold writeCurrent
  dsimp only
  split
  next hz =>
    have hke : k = current.frame.remaining := by omega
    subst hke
    rw [header_advance]
    split
    next h =>
      refine .writeAllPanic current hs hc h0 ?_
      intro result hr
      rw [currentWritten] at hr
      simp [h] at hr
    next err core h =>
      exact .writeAll current core _ (.error err) hs hc h0 (IoCore.frameSent_steps h) rfl
    next core h =>
      exact .writeAll current core _ (.ok ()) hs hc h0 (IoCore.frameSent_steps h) rfl
  next hz => exact .writeSome current k hs hc h0 (by omega)

theorem writeError_steps {t : IoTask N} {pending : OutgoingFrame} {data : Option Bytes} {k : Nat}
    (hs : t.position = .writingError data) (hp : t.core.pendingError = some pending) (h0 : 0 < k)
    (hk : k ≤ pending.remaining) : Step t (.write k) (t.writeError pending data k) := by
  have hrem := remaining_advance hk
  unfold writeError
  dsimp only
  split
  next hz =>
    have hke : k = pending.remaining := by omega
    subst hke
    rw [header_advance]
    exact .writeAllError pending data hs hp h0
  next hz => exact .writeSomeError pending data k hs hp h0 (by omega)

theorem take_steps {t : IoTask N} {a : IoAct} {item : QueuedItem} {rest : List QueuedItem}
    (ha : a = .recv ∨ a = .tryRecv) (hs : t.position = .select ∨ t.position = .draining)
    (hq : t.core.receiver.queue = item :: rest) : Step t a (t.take item rest) := by
  unfold take
  split
  next => exact .panic _ (.inr hs)
  next violation core h => exact .rejected a item rest core violation ha hs hq h
  next core h => exact .taken a item rest core ha hs hq h

theorem enqueue_steps {t t' : IoTask N} {item : QueuedItem} (h : t.enqueue item = some t') :
    Step t (.enqueue item) t' := by
  unfold enqueue at h
  split at h
  next => simp at h
  next hopen =>
    rw [not_or, Bool.not_eq_true] at hopen
    cases item with
    | request channel ioId payload =>
      dsimp only at h
      split at h
      next => simp at h
      next hnew =>
        cases Option.some.inj h
        refine .enqueue _ _ hopen.1 ?_ rfl
        rintro _ _ _ ⟨rfl, rfl, rfl⟩
        exact hnew
    | _ =>
      cases Option.some.inj h
      exact .enqueue _ _ hopen.1 (by simp) rfl

section Actions

variable {t t' : IoTask N}

theorem step_write_steps {k : Nat} (h : t.step (.write k) = some t') : Step t (.write k) t' := by
  simp only [step] at h
  split at h
  next hs =>
    split at h
    next current hc =>
      split at h
      next hk =>
        cases Option.some.inj h
        exact writeCurrent_steps hs hc hk.1 hk.2
      next => simp at h
    next => simp at h
  next data hs =>
    split at h
    next pending hp =>
      split at h
      next hk =>
        cases Option.some.inj h
        exact writeError_steps hs hp hk.1 hk.2
      next => simp at h
    next => simp at h
  next => simp at h

theorem step_writeFailed_steps (h : t.step .writeFailed = some t') : Step t .writeFailed t' := by
  simp only [step] at h
  split at h
  next hs =>
    split at h
    next =>
      cases Option.some.inj h
      exact .writeFailed (.inl hs)
    next => simp at h
  next data hs =>
    cases Option.some.inj h
    exact .writeFailed (.inr ⟨data, hs⟩)
  next => simp at h

theorem step_read_steps {bytes : Bytes} (h : t.step (.read bytes) = some t') :
    Step t (.read bytes) t' := by
  simp only [step] at h
  split at h
  next hr =>
    obtain ⟨hs, hlt, _, hmax⟩ := hr
    split at h
    next =>
      cases Option.some.inj h
      exact .read bytes .top hs hlt hmax (.inl rfl)
    next =>
      cases Option.some.inj h
      have := Step.read (t := t) bytes .select hs hlt hmax (.inr rfl)
      rwa [← hs] at this
  next => simp at h

theorem step_recv_steps (h : t.step .recv = some t') : Step t .recv t' := by
  simp only [step] at h
  split at h
  next hs =>
    split at h
    next item rest hq =>
      cases Option.some.inj h
      exact take_steps (.inl rfl) (.inl hs) hq
    next hq =>
      split at h
      next hc =>
        cases Option.some.inj h
        exact .recvClosed hs hq (by simpa using hc)
      next => simp at h
  next => simp at h

theorem step_tryRecv_steps (h : t.step .tryRecv = some t') : Step t .tryRecv t' := by
  simp only [step] at h
  split at h
  next hs =>
    split at h
    next item rest hq =>
      cases Option.some.inj h
      exact take_steps (.inr rfl) (.inr hs) hq
    next hq =>
      cases Option.some.inj h
      cases hh : t.core.receiver.handles with
      | true => exact .drained hs hq hh
      | false => exact .drainedClosed hs hq (.inl ⟨rfl, hh⟩)
  next => simp at h

end Actions

/-- Whatever the action, it takes one of the steps. -/
theorem step_steps {t t' : IoTask N} {a : IoAct} (h : t.step a = some t') : Step t a t' := by
  cases a with
  | enqueue item => exact enqueue_steps h
  | dropHandles =>
    cases Option.some.inj h
    exact .dropHandles
  | turn =>
    simp only [step] at h
    split at h
    next htop =>
      cases Option.some.inj h
      exact turn_steps htop
    next => simp at h
  | write k => exact step_write_steps h
  | writeFailed => exact step_writeFailed_steps h
  | read bytes => exact step_read_steps h
  | readDone =>
    simp only [step] at h
    split at h
    next hr =>
      cases Option.some.inj h
      exact .readDone hr.1 hr.2
    next => simp at h
  | readFailed =>
    simp only [step] at h
    split at h
    next hr =>
      cases Option.some.inj h
      exact .readFailed hr.1
    next => simp at h
  | hangUp =>
    simp only [step] at h
    split at h
    next hr =>
      cases Option.some.inj h
      exact .hangUp hr.1
    next => simp at h
  | recv => exact step_recv_steps h
  | tryRecv => exact step_tryRecv_steps h
  | tryRecvClosed =>
    simp only [step] at h
    split at h
    next hc =>
      cases Option.some.inj h
      exact .drainedClosed hc.1 hc.2.1 (.inr ⟨rfl, hc.2.2⟩)
    next => simp at h
  | timeout =>
    simp only [step] at h
    split at h
    next data hs =>
      cases Option.some.inj h
      exact .timeout data hs
    next => simp at h
  | drop =>
    simp only [step] at h
    split at h
    next hs =>
      cases Option.some.inj h
      exact .drop (.inl hs)
    next data hs =>
      cases Option.some.inj h
      exact .drop (.inr ⟨data, hs⟩)
    next => simp at h

/-- An invariant of all steps holds throughout every run. -/
theorem Reach.keeps {builder : ProtocolBuilder N} {ok : IoTask N → IoAct → Bool}
    {P : IoTask N → Prop} (hinit : P (.new builder))
    (hstep : ∀ {t a t'}, P t → ok t a = true → Step t a t' → P t') {t : IoTask N}
    (h : Reach builder ok t) : P t :=
  Transition.Reach.invariant h hinit fun hP hok hs => hstep hP hok (step_steps hs)

end IoTask

end Juliet
