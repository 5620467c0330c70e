import Juliet.CouplingReads

namespace Juliet

open Rust

open JulietProtocol (readsOf)

/-- The reads among outcomes. -/
def readsIn (outcomes : List ReadOutcome) : List CompletedRead :=
  outcomes.flatMap fun o => readsOf (some o)

theorem readsIn_toList (outcome : Option ReadOutcome) :
    readsIn outcome.toList = readsOf outcome := by
  cases outcome with
  | none => rfl
  | some o => simp [readsIn]

namespace IoTask

variable {N : Nat} {t t' : IoTask N}

/-- What `process_incoming` has returned so far. -/
def reads (t : IoTask N) : List CompletedRead := readsIn t.outcomes

/-- The outcomes that a step has added. -/
def outcomesSince (t t' : IoTask N) : List ReadOutcome := t'.outcomes.drop t.outcomes.length

/-- The bytes that a step has written. -/
def writtenSince (t t' : IoTask N) : Bytes := t'.written.drop t.written.length

theorem outcomesSince_append {outcomes : List ReadOutcome}
    (h : t'.outcomes = t.outcomes ++ outcomes) :
    t.outcomesSince t' = outcomes := by
  rw [outcomesSince, h, List.drop_left]

theorem writtenSince_append {bytes : Bytes} (h : t'.written = t.written ++ bytes) :
    t.writtenSince t' = bytes := by
  rw [writtenSince, h, List.drop_left]

theorem enqueue_task {item : QueuedItem} (h : t.step (.enqueue item) = some t') :
    t'.core = t.dequeued (t.core.receiver.queue ++ [item]) ∧ t'.outcomes = t.outcomes ∧
    t'.written = t.written := by
  simp only [step, enqueue] at h
  split at h
  next => simp at h
  next =>
    cases item with
    | request channel ioId payload =>
      dsimp only at h
      split at h
      next => simp at h
      next =>
        cases Option.some.inj h
        exact ⟨rfl, rfl, rfl⟩
    | _ =>
      cases Option.some.inj h
      exact ⟨rfl, rfl, rfl⟩

theorem read_task {bytes : Bytes} (h : t.step (.read bytes) = some t') :
    t'.core = { t.core with buffer := t.core.buffer ++ bytes } ∧ t'.outcomes = t.outcomes ∧
    t'.written = t.written := by
  simp only [step] at h
  split at h
  next =>
    split at h
    next =>
      cases Option.some.inj h
      exact ⟨rfl, rfl, rfl⟩
    next =>
      cases Option.some.inj h
      exact ⟨rfl, rfl, rfl⟩
  next => simp at h

section

variable {builder : ProtocolBuilder N} {peer : Side N} {reads : List CompletedRead}
  {ab ba : List FrameIter} {pipe : Bytes} {enqueued : List QueuedItem}
  {unanswered : Fin N → Finset Id}

/-- How a step of a task that takes in frames of the peer, and may send some, leaves things. -/
structure Advances (builder : ProtocolBuilder N) (peer : Side N) (reads : List CompletedRead)
    (ba : List FrameIter) (pipe : Bytes) (enqueued : List QueuedItem)
    (unanswered : Fin N → Finset Id) (t t' : IoTask N) : Prop where
  outcomes : ∃ more, t'.outcomes = t.outcomes ++ more
  noFatal : ∀ err, .fatal err ∉ t.outcomesSince t'
  serves : ∃ ab' taken ba', ba = taken ++ ba' ∧
    taken.filterMap (FrameIter.completes builder.maxFrameSize) = readsIn (t.outcomesSince t') ∧
    t'.core.Serves builder peer reads ab' ba' (pipe ++ t.writtenSince t') enqueued
      (fun i => unanswered i ∪ reportedBy i (readsIn (t.outcomesSince t'))) []

theorem Advances.wrote {bytes : Bytes}
    (hs : t'.core.Serves builder peer reads ab ba (pipe ++ bytes) enqueued unanswered [])
    (ho : t'.outcomes = t.outcomes) (hw : t'.written = t.written ++ bytes) :
    Advances builder peer reads ba pipe enqueued unanswered t t' := by
  have hnone : t.outcomesSince t' = [] := outcomesSince_append (by rw [ho, List.append_nil])
  refine ⟨⟨[], by rw [ho,
    List.append_nil]⟩, by simp [hnone], ab, [], ba, rfl, by rw [hnone]; rfl, ?_⟩
  rw [hnone, writtenSince_append hw]
  simpa [readsIn, reportedBy] using hs

theorem Advances.quiet (hs : t'.core.Serves builder peer reads ab ba pipe enqueued unanswered [])
    (ho : t'.outcomes = t.outcomes) (hw : t'.written = t.written) :
    Advances builder peer reads ba pipe enqueued unanswered t t' :=
  .wrote (by rwa [List.append_nil]) ho (by rw [hw, List.append_nil])

theorem Advances.parsed {outcome : Option ReadOutcome} {taken ba' : List FrameIter}
    (hfatal : ∀ err, outcome ≠ some (.fatal err)) (hsplit : ba = taken ++ ba')
    (hreads : taken.filterMap (FrameIter.completes builder.maxFrameSize) = readsOf outcome)
    (hs : t'.core.Serves builder peer reads ab ba' pipe enqueued
      (fun i => unanswered i ∪ reportedBy i (readsOf outcome)) [])
    (ho : t'.outcomes = t.outcomes ++ outcome.toList) (hw : t'.written = t.written) :
    Advances builder peer reads ba pipe enqueued unanswered t t' := by
  have hnothing : t.writtenSince t' = [] := writtenSince_append (by rw [hw, List.append_nil])
  have hsince := outcomesSince_append ho
  refine ⟨⟨_, ho⟩, ?_, ab, taken, ba', hsplit, by rw [hsince, readsIn_toList, hreads], ?_⟩
  · intro err hin
    rw [hsince] at hin
    exact hfatal err (Option.mem_toList.mp hin)
  · rw [hsince, readsIn_toList, hnothing, List.append_nil]
    exact hs

/-- The last byte of the frame at hand is written, and the wait queue of its channel processed. -/
theorem serves_sentStep {current : CurrentFrame} {core : IoCore N} {r : Except CoreError Unit}
    (h : t.core.Serves builder peer reads ab ba pipe enqueued unanswered [])
    (hc : t.core.currentFrame = some current)
    (hs : (t.currentWritten current current.frame.remaining).core.SentStep
      { current with frame := current.frame.advance current.frame.remaining } r core) :
    core.Serves builder peer reads ab ba (pipe ++ current.frame.bytes.take current.frame.remaining)
      enqueued unanswered
      [] := by
  obtain ⟨reported, hcoupled, hsup⟩ := h
  have hsound := hcoupled.tidy.sound
  obtain ⟨hwell, _⟩ := hsound.current current hc
  have hbytes : current.frame.bytes.take current.frame.remaining = current.frame.bytes := by
    rw [← hwell.bytes_length, List.take_length]
  have hcleared : ∀ {i : Fin N},
      (current.frame.advance current.frame.remaining).header.channel.get.toNat = i →
      ((t.currentWritten current current.frame.remaining).core.cleared
        { current with frame := current.frame.advance current.frame.remaining } i).Serves
        builder peer reads ab ba
        (pipe ++ current.frame.bytes.take current.frame.remaining) enqueued unanswered [] := by
    intro i hi
    rw [header_advance] at hi
    rw [cleared_currentWritten, hbytes]
    exact ⟨reported, hcoupled.cleared hc hi, hsup.idle rfl rfl rfl⟩
  cases hs with
  | error active he =>
    rw [header_advance, (hsound.current_channel hc).1] at he
    simp at he
  | scanned i c hi hq => exact (hcleared hi).processWaitQueue hq
  | violation i c err hi hq => exact (hcleared hi).processWaitQueue hq

/-- A step that neither enqueues nor reads. -/
theorem Step.advances {a : IoAct} (hs : Step t a t')
    (h : t.core.Serves builder peer reads ab ba pipe enqueued unanswered [])
    (hplain : ∀ it ∈ ba, it.header.kind ≠ .ok .cancelReq) (hitem : ∀ item, a ≠ .enqueue item)
    (hread : ∀ bytes, a ≠ .read bytes) :
    Advances builder peer reads ba pipe enqueued unanswered t t' := by
  have hnoError : t.core.pendingError = none := by
    obtain ⟨_, hc, _⟩ := h
    exact hc.tidy.noError
  cases hs with
  | enqueue item issued _ _ _ => exact absurd rfl (hitem item)
  | read bytes position _ _ _ _ => exact absurd rfl (hread bytes)
  | dropHandles =>
    obtain ⟨reported, hc, hsup⟩ := h
    exact .quiet ⟨reported, hc.idle { hc.tidy.sound with } rfl rfl rfl rfl rfl rfl rfl,
      hsup.idle rfl rfl rfl⟩ rfl rfl
  | event outcome event core _ _ hparse =>
    obtain ⟨hfatal, taken, ba', hsplit, hreads, hserves⟩ := h.parseStep hplain hparse
    exact .parsed hfatal hsplit hreads hserves rfl rfl
  | failed outcome err core _ _ hparse =>
    obtain ⟨hfatal, taken, ba', hsplit, hreads, hserves⟩ := h.parseStep hplain hparse
    exact .parsed hfatal hsplit hreads hserves rfl rfl
  | selecting outcome core core' _ _ hparse hready =>
    obtain ⟨hfatal, taken, ba', hsplit, hreads, reported, hc, hsup⟩ := h.parseStep hplain hparse
    obtain ⟨ab', hc'⟩ := hc.readyStep hready
    have hreceiver : core'.receiver = core.receiver := by cases hready <;> rfl
    have hsup' := hsup.idle (by rw [hreceiver]) hready.keeps.1 hready.rest.2.1
    exact .parsed hfatal hsplit hreads ⟨reported, hc', hsup'⟩ rfl rfl
  | writeSome current k _ hc _ hk =>
    obtain ⟨reported, hcoupled, hsup⟩ := h
    exact .wrote ⟨reported, coupled_currentWritten hcoupled hc hk, hsup.idle rfl rfl rfl⟩ rfl rfl
  | writeAll current core position r _ hc _ hsent _ =>
    exact .wrote (serves_sentStep h hc hsent) rfl rfl
  | writeAllPanic current _ hc _ hpanic =>
    obtain ⟨_, hcoupled, _⟩ := h
    obtain ⟨result, hresult⟩ := frameSent_current hcoupled.tidy.sound hc current.frame.remaining
    exact absurd hresult (hpanic result)
  | writeSomeError pending data k _ he _ _ => simp [hnoError] at he
  | writeAllError pending data _ he _ => simp [hnoError] at he
  | taken a item rest core _ _ hq hi =>
    exact .quiet ((h.take hq).itemStep (IoCore.handleIncomingItem_steps hi)) rfl rfl
  | rejected a item rest core violation _ _ hq hi =>
    exact .quiet ((h.take hq).itemStep (IoCore.handleIncomingItem_steps hi)) rfl rfl
  | _ => exact .quiet h rfl rfl

end

end IoTask

end Juliet
