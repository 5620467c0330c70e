import Juliet.WaitQueue

namespace Juliet

open Rust

namespace IoCore

variable {N : Nat} {self c : IoCore N}

/-- The channels are covered, whatever else of the core changes. -/
theorem CoversAt.congr {j : Fin N} {answer : Option (ChannelId × Id)} (h : self.CoversAt j)
    (hs : self.Sound)
    (hset : Channel.Settles answer j (self.juliet.channels j) (c.juliet.channels j))
    (hother : ∀ channel id, answer = some (channel, id) → channel.get.toNat ≠ j)
    (hm : c.juliet.maxFrameSize = self.juliet.maxFrameSize)
    (ha : c.activeMultiFrame = self.activeMultiFrame) (hw : c.waitQueue = self.waitQueue)
    (hf : ∀ j : Nat, self.inFlight j = true → c.inFlight j = true) : c.CoversAt j := by
  intro item hmem hsend
  rw [hw] at hmem
  apply hf
  apply h item hmem
  rw [← hsend]
  symm
  obtain ⟨hc, _, ho⟩ := hset
  apply sendable_congr (hs.waiting j item hmem) ?_ hc hm (by rw [ha])
  cases answer with
  | none => exact ho
  | some answer =>
    obtain ⟨channel, id⟩ := answer
    simpa [hother channel id rfl] using ho

/-- Parsing leaves the channels covered on which no request has been answered. -/
theorem CoversAt.parsed {j : Fin N} {o : ReadOutcome} {juliet : JulietProtocol N} {buffer : Bytes}
    (h : self.CoversAt j) (hs : self.Sound)
    (hp : self.juliet.processIncoming self.buffer = .ok (o, juliet, buffer))
    (hother : ∀ channel id, answeredBy (some o) = some (channel, id) → channel.get.toNat ≠ j) :
    (self.parsed juliet buffer).CoversAt j := by
  have hset := JulietProtocol.processIncoming_settles hs.valid hp
  exact h.congr hs (hset.channels j) hother hset.maxFrameSize rfl rfl (fun _ hf => hf)

theorem CoversAt.handleCompletedRead {j : Fin N} (h : self.CoversAt j) (read : CompletedRead) :
    (self.handleCompletedRead read).2.CoversAt j := by
  rcases self.handleCompletedRead_core read with he | ⟨key, he⟩
  · exact he.symm ▸ h
  · rw [he]
    exact h

/-- A channel on which a request has just been answered can take another one. -/
theorem stuckOn_of_answered {channel : ChannelId} {id : Id} {payload : Option Bytes}
    {juliet : JulietProtocol N} {buffer : Bytes} {i : Fin N} (hs : self.Sound)
    (hi : channel.get.toNat = i)
    (hp : self.juliet.processIncoming self.buffer =
      .ok (.success (.receivedResponse channel id payload), juliet, buffer))
    (queue : List QueuedItem) : (self.parsed juliet buffer).stuckOn i queue = false := by
  obtain ⟨hc, _, ho⟩ := (JulietProtocol.processIncoming_settles hs.valid hp).channels i
  simp only [answeredBy, CompletedRead.answered, hi, if_true] at ho
  have hfree : (juliet.channels i).allowedToSendRequest = true := by
    have hle := (hs.valid i).outgoing_le
    have hpos : 0 < (self.juliet.channels i).outgoingRequests.card := Finset.card_pos.mpr ⟨id, ho.1⟩
    rw [Channel.allowedToSendRequest, ho.2, hc, Finset.card_erase_of_mem ho.1, decide_eq_true_eq]
    omega
  simp [stuckOn, IoCore.parsed, hfree]

theorem ReadyStep.inFlight_of {j : Nat} (hs : ReadyStep self c) (h : self.inFlight j = true) :
    c.inFlight j = true := by
  have hcur : ∀ {entry : ReadyEntry} {rest queue : List ReadyEntry} {isFinal : Bool},
      self.currentFrame = none →
      self.readyQueue = entry :: rest → (∀ e ∈ rest, e ∈ queue) →
      { self with
        readyQueue := queue
        currentFrame := some ⟨(entry.frames.nextOwned self.juliet.maxFrameSize).1, isFinal,
          entry.serial⟩ }.inFlight j =
          true := by
    intro entry rest queue isFinal hnone hq hsub
    simp only [IoCore.inFlight, hnone, hq, List.any_cons, Option.any_none,
      Bool.or_false, Bool.or_eq_true, List.any_eq_true, decide_eq_true_eq] at h
    simp only [IoCore.inFlight, Option.any_some, FrameIter.nextOwned_header,
      Bool.or_eq_true, List.any_eq_true, decide_eq_true_eq]
    rcases h with h | ⟨e, he, hch⟩
    · exact .inr h
    · exact .inl ⟨e, hsub e he, hch⟩
  cases hs with
  | busy _ _ => exact h
  | empty _ _ => exact h
  | more entry rest next hnone hq _ => exact hcur hnone hq (by simp +contextual)
  | final entry rest hnone hq _ => exact hcur hnone hq (fun _ he => he)

theorem ReadyStep.covers {j : Fin N} (hs : ReadyStep self c) (h : self.CoversAt j) :
    c.CoversAt j := by
  have hf := fun hj => hs.inFlight_of (j := j) hj
  cases hs <;> exact fun item hm hsend => hf (h item hm hsend)

/-- The end of a frame concerns its channel alone. -/
theorem CoversAt.cleared {j : Fin N} {sent : CurrentFrame} {i : Fin N} (h : self.CoversAt j)
    (hs : self.Sound) (hc : self.currentFrame = some sent)
    (hi : sent.frame.header.channel.get.toNat = i) (hj : j ≠ i) :
    (self.cleared sent i).CoversAt j := by
  intro item hm hsend
  have hsame : (self.cleared sent i).sendable item = self.sendable item := by
    exact sendable_congr (hs.waiting j item hm) rfl rfl rfl (cleared_active_of_ne _ _ hj)
  rw [hsame] at hsend
  have hflight := h item hm hsend
  have hne : ¬ (i : Nat) = j := fun he => hj (Fin.ext he.symm)
  simp only [inFlight, hc, Option.any_some, hi, hne, decide_false, Bool.or_false] at hflight
  simp only [inFlight, IoCore.cleared, Option.any_none, Bool.or_false]
  exact hflight

theorem SendStep.pendingError_none {item : QueuedItem} {r : Except LocalProtocolViolation Unit}
    (hs : SendStep self item r c) (h : c.pendingError = none) : self.pendingError = none := by
  cases hs with
  | error _ _ _ _ _ _ => simp [erroring] at h
  | late _ _ _ | refused _ _ | oversized _ _ _ _ _ _ _ _ => exact h
  | _ => simpa using h

theorem ItemStep.pendingError_none {item : QueuedItem} {r : Except LocalProtocolViolation Unit}
    (hs : ItemStep self item r c) (h : c.pendingError = none) : self.pendingError = none := by
  cases hs with
  | send r c _ hs => exact hs.pendingError_none h
  | _ => exact h

theorem ItemStep.covers {item : QueuedItem} (hs : ItemStep self item (.ok ()) c)
    (hsound : self.Sound) (hp : c.pendingError = none) (h : ∀ j, self.CoversAt j) :
    ∀ j, c.CoversAt j := by
  cases hs with
  | wait channel i hi hw =>
    intro j
    by_cases hj : j = i
    · subst hj
      intro item' hm hsend
      rw [setWaitQueue_self, List.mem_append, List.mem_singleton] at hm
      rcases hm with hm | rfl
      · exact h j item' hm hsend
      · rw [setWaitQueue_sendable, sendable_iff, hw] at hsend
        simp at hsend
    · exact (h j).setWaitQueue hj _
  | send r c _ hs =>
    rcases hs.covers hsound rfl hp with ⟨i, hext, _⟩ | ⟨rfl, _⟩
    · intro j
      by_cases hj : j = i
      · subst hj
        exact fun _ _ _ => hext.here
      · exact hext.others j hj (h j)
    · exact h

end IoCore

namespace IoTask

variable {N : Nat} {t t' : IoTask N}

/-- Where `next_event` waits with nothing to send, every waiting item really waits. -/
def NotForgotten (t : IoTask N) : Prop :=
  t.position = .select → t.core.pendingError = none → t.core.currentFrame = none →
    t.core.readyQueue = [] →
    ∀ i : Fin N, ∀ item ∈ t.core.waitQueue i, ∃ channel,
      itemShouldWait item t.core.juliet t.core.activeMultiFrame = .ok (.ok (some channel))

/-- A cancelled response is read only while nothing waits on its channel or a frame of the channel
is still to be sent, and the last frame of a channel does not end with the channel stuck. -/
def strandsNothing (t : IoTask N) (a : IoAct) : Bool :=
  t.core.pendingError.isSome ||
    match a with
    | .turn =>
      match t.core.juliet.processIncoming t.core.buffer with
      | .ok (.success (.responseCancellation channel _), _, _) =>
        if h : channel.get.toNat < N then
          (t.core.waitQueue ⟨channel.get.toNat, h⟩).isEmpty || t.core.inFlight channel.get.toNat
        else true
      | _ => true
    | .write k =>
      match t.core.currentFrame with
      | some current =>
        if h : current.frame.header.channel.get.toNat < N then
          let i : Fin N := ⟨current.frame.header.channel.get.toNat, h⟩
          let core := t.core.cleared current i
          k ≠ current.frame.remaining || core.inFlight i || !core.stuckOn i (core.waitQueue i)
        else true
      | none => true
    | _ => true

/-- What carries `NotForgotten` from step to step. -/
def Covered (t : IoTask N) : Prop :=
  t.core.pendingError = none → (∀ exit, t.position ≠ .done exit) → t.position ≠ .panicked →
    ∀ j, t.core.CoversAt j

theorem Covered.notForgotten (h : Covered t) (hs : t.core.Sound) : NotForgotten t := by
  intro hp hnone hc hr i item hm
  obtain ⟨waits, hw⟩ := itemShouldWait_of_waitsOn t.core.juliet t.core.activeMultiFrame
    (hs.waiting i item hm)
  cases waits with
  | some channel => exact ⟨channel, hw⟩
  | none =>
    have hflight := h hnone (by simp [hp]) (by simp [hp]) i item hm (IoCore.sendable_iff.mpr hw)
    simp [IoCore.inFlight, hc, hr] at hflight

/-- Parsing keeps all channels covered. -/
theorem covers_parseStep {outcome : Option ReadOutcome} {result : Option (Except CoreError IoEvent)}
    {core : IoCore N} (hs : t.core.ParseStep outcome result core) (hsound : t.core.Sound)
    (hok : strandsNothing t .turn = true) (hnone : t.core.pendingError = none)
    (h : ∀ j, t.core.CoversAt j) (hp : core.pendingError = none)
    (hr : ∀ err, result ≠ some (.error err)) : ∀ j, core.CoversAt j := by
  cases hs with
  | skip _ => exact h
  | incomplete n juliet buffer hread =>
    exact fun j => (h j).parsed hsound hread (by simp [answeredBy])
  | fatal errMsg juliet buffer frame _ _ _ => simp [IoCore.erroring] at hp
  | event read juliet buffer hread hresp =>
    intro j
    apply IoCore.CoversAt.handleCompletedRead
    cases read with
    | receivedResponse channel id payload => exact absurd rfl (hresp channel id payload)
    | responseCancellation channel id =>
      by_cases hj : channel.get.toNat = j
      · have hlt : channel.get.toNat < N := hj ▸ j.isLt
        have hje : (⟨channel.get.toNat, hlt⟩ : Fin N) = j := Fin.ext hj
        simp only [strandsNothing, hnone, hread, hlt, dif_pos, Option.isSome_none,
          Bool.false_or, Bool.or_eq_true, List.isEmpty_iff, hje] at hok
        intro item hm _
        rcases hok with hempty | hflight
        · simp [IoCore.parsed, hempty] at hm
        · exact hj ▸ hflight
      · refine (h j).parsed hsound hread ?_
        intro channel' id' he
        simp only [answeredBy, CompletedRead.answered, Option.some.injEq, Prod.mk.injEq] at he
        rw [← he.1]
        exact hj
    | _ => exact (h j).parsed hsound hread (by simp [answeredBy, CompletedRead.answered])
  | response channel id payload juliet buffer c hread hq =>
    have hset := JulietProtocol.processIncoming_settles hsound.valid hread
    have hlt := hset.known channel id rfl
    have hi : channel.get.toNat = (⟨channel.get.toNat, hlt⟩ : Fin N) := rfl
    have hothers : ∀ j ≠ (⟨channel.get.toNat, hlt⟩ : Fin N),
        (t.core.parsed juliet buffer).CoversAt j := by
      intro j hj
      refine (h j).parsed hsound hread ?_
      intro channel' id' he
      simp only [answeredBy, CompletedRead.answered, Option.some.injEq, Prod.mk.injEq] at he
      rw [← he.1]
      exact fun hje => hj (Fin.ext hje.symm)
    have hcovers := IoCore.processWaitQueue_covers hi
      (hsound.parsed (hsound.valid.processIncoming hread) buffer) hnone
      hothers (.inr (IoCore.stuckOn_of_answered hsound hi hread _)) hq
    exact fun j => (hcovers j).handleCompletedRead _
  | violation channel id payload juliet buffer err c _ _ => exact absurd rfl (hr _)

theorem covers_currentWritten {current : CurrentFrame} {j : Fin N}
    (hc : t.core.currentFrame = some current) (k : Nat) (h : t.core.CoversAt j) :
    (t.currentWritten current k).core.CoversAt j := by
  intro item hm hsend
  have hflight := h item hm hsend
  simp only [IoCore.inFlight, hc, Option.any_some] at hflight
  simpa only [IoCore.inFlight, currentWritten, Option.any_some, header_advance] using hflight

theorem covers_sentStep {current : CurrentFrame} {core : IoCore N} (hsound : t.core.Sound)
    (hc : t.core.currentFrame = some current)
    (hok : strandsNothing t (.write current.frame.remaining) = true)
    (hnone : t.core.pendingError = none) (h : ∀ j, t.core.CoversAt j) {r : Except CoreError Unit}
    (hr : r = .ok ()) (hs : (t.currentWritten current current.frame.remaining).core.SentStep
      { current with frame := current.frame.advance current.frame.remaining } r core) :
    ∀ j, core.CoversAt j := by
  cases hs with
  | error _ _ => simp at hr
  | violation _ _ _ _ _ => simp at hr
  | scanned i c hi hq =>
    rw [header_advance] at hi
    rw [cleared_currentWritten, header_advance] at hq
    have hlt : current.frame.header.channel.get.toNat < N := hi ▸ i.isLt
    have hie : (⟨current.frame.header.channel.get.toNat, hlt⟩ : Fin N) = i := Fin.ext hi
    simp only [strandsNothing, hnone, hc, hlt, dif_pos, hie, Option.isSome_none, Bool.false_or,
      ne_eq, not_true_eq_false, decide_false, Bool.or_eq_true, Bool.not_eq_true'] at hok
    rw [hi] at hok
    exact IoCore.processWaitQueue_covers hi (hsound.cleared current i) hnone
      (fun j hj => (h j).cleared hsound hc hi hj) hok hq

theorem Covered.step {a : IoAct} (h : Covered t) (hsound : t.core.Sound)
    (hok : strandsNothing t a = true) (hs : Step t a t') : Covered t' := by
  intro hp hd hpan
  cases hs with
  | enqueue _ _ _ _ _ | dropHandles => exact h hp hd hpan
  | panic _ _ => exact absurd rfl hpan
  | pending frame data htop _ _ => exact h hp (by simp [htop]) (by simp [htop])
  | event outcome event core htop hnone hparse =>
    exact covers_parseStep hparse hsound hok hnone (h hnone (by simp [htop]) (by simp [htop]))
      hp (by simp)
  | failed outcome err core _ _ _ => exact absurd rfl (hd _)
  | selecting outcome core core' htop hnone hparse hready =>
    have hcore := covers_parseStep hparse hsound hok hnone
      (h hnone (by simp [htop]) (by simp [htop]))
      (hready.keeps.2.symm.trans hp) (by simp)
    exact fun j => hready.covers (hcore j)
  | writeSome current k hpos hc _ _ =>
    exact fun j => covers_currentWritten hc k (h hp (by simp [hpos]) (by simp [hpos]) j)
  | writeAll current core position r hpos hc _ hsent hr =>
    subst hr
    cases r with
    | error err => exact absurd rfl (hd _)
    | ok _ =>
      have hnone : t.core.pendingError = none := by
        cases hsent with
        | scanned i c _ hq =>
          have hkept := IoCore.processWaitQueue_pendingError (hsound.cleared _ i) hq
          exact hkept.symm.trans hp
      exact covers_sentStep hsound hc hok hnone
        (h hnone (by simp [hpos]) (by simp [hpos])) rfl hsent
  | writeAllPanic _ _ _ _ => exact absurd rfl hpan
  | writeSomeError pending data k _ _ _ _ => simp at hp
  | read bytes position hpos _ _ _ => exact h hp (by simp [hpos]) (by simp [hpos])
  | readDone hpos _ => exact h hp (by simp [hpos]) (by simp [hpos])
  | taken a item rest core _ hpos _ hi =>
    have hstep := IoCore.handleIncomingItem_steps hi
    have hlive : (∀ exit, t.position ≠ .done exit) ∧ t.position ≠ .panicked := by
      rcases hpos with hpos | hpos <;> simp [hpos]
    exact hstep.covers (sound_dequeued hsound rest) hp
      (h (hstep.pendingError_none hp) hlive.1 hlive.2)
  | drained hpos _ _ => exact h hp (by simp [hpos]) (by simp [hpos])
  | drop hpos =>
    have hlive : (∀ exit, t.position ≠ .done exit) ∧ t.position ≠ .panicked := by
      rcases hpos with hpos | ⟨_, hpos⟩ <;> simp [hpos]
    exact h hp hlive.1 hlive.2
  | _ => exact absurd rfl (hd _)

/-- In every run whose steps strand nothing, no item that can be sent is forgotten in a wait
queue. -/
theorem waiting_notForgotten {builder : ProtocolBuilder N} (h : Reach builder strandsNothing t) :
    NotForgotten t := by
  have hinv : t.core.Sound ∧ Covered t := Reach.keeps (P := fun t => t.core.Sound ∧ Covered t)
    ⟨IoCore.new_sound builder, fun _ _ _ j item hm => by simp [IoTask.new, IoCore.new] at hm⟩
    (fun hP hok hs => ⟨hs.sound hP.1, hP.2.step hP.1 hok hs⟩) h
  exact hinv.2.notForgotten hinv.1

/-- Two requests on a channel for one; the peer cancels the response to the first. -/
def cancelledFirst : List IoAct :=
  [.enqueue (.request ⟨0⟩ ⟨1⟩ none), .enqueue (.request ⟨0⟩ ⟨2⟩ none), .turn, .recv, .tryRecv,
    .tryRecv, .turn, .write 4, .turn, .read [5, 0, 1, 0], .turn, .turn]

/-- The second request could be sent and waits on an idle connection. -/
theorem request_forgotten :
    ∃ t, run JulietProtocol.smallBuilder anyStep cancelledFirst = some t ∧
      Reach JulietProtocol.smallBuilder anyStep t ∧ t.events = [.receivedCancellationResponse ⟨1⟩] ∧
      t.core.waitQueue 0 = [.request ⟨0⟩ ⟨2⟩ none] ∧ ¬ NotForgotten t := by
  have hrun : (run JulietProtocol.smallBuilder anyStep cancelledFirst).map
      (fun t => (t.events, t.core.waitQueue 0, t.position, t.core.pendingError,
        t.core.currentFrame, t.core.readyQueue,
        itemShouldWait (.request ⟨0⟩ ⟨2⟩ none) t.core.juliet t.core.activeMultiFrame)) =
        some ([.receivedCancellationResponse ⟨1⟩], [.request ⟨0⟩ ⟨2⟩ none], .select, none, none, [],
          .ok (.ok none)) := rfl
  obtain ⟨t, ht, he⟩ := Option.map_eq_some_iff.mp hrun
  simp only [Prod.mk.injEq] at he
  obtain ⟨hev, hw, hp, hnone, hc, hr, hwaits⟩ := he
  refine ⟨t, ht, Transition.Reach.exec .start ht, hev, hw, ?_⟩
  intro h
  obtain ⟨channel, hblocked⟩ := h hp hnone hc hr 0 (.request ⟨0⟩ ⟨2⟩ none) (by simp [hw])
  rw [hwaits] at hblocked
  simp at hblocked

/-- While the first request is outstanding the second one has to wait. -/
theorem waiting_notForgotten_second :
    ∃ t, run JulietProtocol.smallBuilder strandsNothing (cancelledFirst.take 9) = some t ∧
      t.position = .select ∧
      t.core.currentFrame = none ∧ t.core.waitQueue 0 = [.request ⟨0⟩ ⟨2⟩ none] ∧
      NotForgotten t := by
  have hrun : (run JulietProtocol.smallBuilder strandsNothing (cancelledFirst.take 9)).map
      (fun t => (t.position, t.core.currentFrame, t.core.waitQueue 0)) =
        some (.select, none, [.request ⟨0⟩ ⟨2⟩ none]) := rfl
  obtain ⟨t, ht, he⟩ := Option.map_eq_some_iff.mp hrun
  simp only [Prod.mk.injEq] at he
  obtain ⟨hp, hc, hw⟩ := he
  exact ⟨t, ht, hp, hc, hw, waiting_notForgotten (Transition.Reach.exec .start ht)⟩

end IoTask

end Juliet
