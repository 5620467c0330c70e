import Juliet.AnswerEvents
import Juliet.HonestFrame

namespace Juliet

open Rust

namespace IoCore

variable {N : Nat} {self : IoCore N} {i : Fin N}

/-- Nothing waits behind a frame that ends its message. -/
theorem frameSent_idle {sent : CurrentFrame} (hi : sent.frame.header.channel.get.toNat = i)
    (he : sent.frame.header.isError = false) (ha : self.activeMultiFrame i = none)
    (hw : self.waitQueue i = []) :
    self.frameSent sent = .ok (.ok (), { self with currentFrame := none }) := by
  have hclear : { self with currentFrame := none }.clearActive sent.frame.header =
      .ok { self with currentFrame := none } := by
    simp [clearActive, channelIndex_of hi, ha]
  have hscan : { self with currentFrame := none }.processWaitQueue sent.frame.header.channel =
      .ok (.ok (), { self with currentFrame := none }) := by
    simp [processWaitQueue, channelIndex_of hi, hw, waitLoop]
  simp only [frameSent, hclear, he, ite_self, bind_ok, Bool.false_eq_true,
    if_false, hscan, pure_eq_ok]

/-- The only item of the wait queue is a request that can be sent. -/
theorem processWaitQueue_request (self : IoCore N) {channel : ChannelId} {ioId : IoId} {id : Id}
    (hi : channel.get.toNat = i) (hq : self.waitQueue i = [.request channel ioId none])
    (ha : (self.juliet.channels i).allowedToSendRequest = true)
    (hid : (self.juliet.channels i).Generates id) :
    self.processWaitQueue channel =
      .ok (.ok (), (self.setWaitQueue i []).created i (.request channel ioId none)
      (Channel.requestMessage channel id none)
        (self.juliet.setChannel i ((self.juliet.channels i).withRequest id))
      (self.requestMap.insert ioId (channel, id))) := by
  have hwait : itemShouldWait (.request channel ioId none) self.juliet self.activeMultiFrame =
      .ok (.ok none) := by
    rw [itemShouldWait_request hi, if_pos ha]
    simp
  have hwithin : JulietProtocol.PayloadWithin none
      (self.juliet.channels i).config.maxRequestPayloadSize := by
    simp [JulietProtocol.PayloadWithin]
  have hsend := sendToReadyQueue_request (self.setWaitQueue i []) hi ha hwithin hid ioId
  simp only [processWaitQueue, channelIndex_of hi, bind_ok, hq, List.length_singleton, waitLoop,
    setWaitQueue_juliet, setWaitQueue_active, hwait, hsend, JulietProtocol.allowedToSendRequest,
    JulietProtocol.lookupChannel_of hi, Except.map]
  split
  next he => simp at he
  next => rfl
  next => rfl

theorem parseIncoming_response {channel : ChannelId} {id : Id} {payload : Option Bytes}
    {juliet : JulietProtocol N} {buffer : Bytes} {c : IoCore N}
    (hready : self.nextParseAt ≤ self.buffer.length)
    (hp : self.juliet.processIncoming self.buffer =
      .ok (.success (.receivedResponse channel id payload), juliet, buffer))
    (hq : (self.parsed juliet buffer).processWaitQueue channel = .ok (.ok (), c)) :
    self.parseIncoming = .ok (some (.success (.receivedResponse channel id payload)),
      some (c.handleCompletedRead (.receivedResponse channel id payload)).1,
      (c.handleCompletedRead (.receivedResponse channel id payload)).2) := by
  unfold parsed at hq
  simp only [parseIncoming, hready, if_true, hp, bind_ok, hq, pure_eq_ok]

end IoCore

namespace IoTask

/-- The last frame of a message is written with nothing waiting behind it. -/
theorem step_write_idle {N : Nat} {t : IoTask N} {current : CurrentFrame} {i : Fin N}
    (hs : t.position = .select) (hc : t.core.currentFrame = some current)
    (h0 : 0 < current.frame.remaining) (hi : current.frame.header.channel.get.toNat = i)
    (he : current.frame.header.isError = false) (ha : t.core.activeMultiFrame i = none)
    (hw : t.core.waitQueue i = []) :
    ∃ t', t.step (.write current.frame.remaining) = some t' ∧
      t'.core = { t.core with currentFrame := none } ∧
      t'.position = .top ∧ t'.issued = t.issued := by
  have hall := remaining_advance (le_refl current.frame.remaining)
  have hsent : { t.core with currentFrame := some { current with
      frame := current.frame.advance current.frame.remaining } }.frameSent
        { current with frame := current.frame.advance current.frame.remaining } =
          .ok (.ok (), { t.core with currentFrame := none }) := by
    refine IoCore.frameSent_idle (i := i) ?_ ?_ ha hw
    · rwa [header_advance]
    · rwa [header_advance]
  refine ⟨t.writeCurrent current current.frame.remaining, ?_, ?_⟩
  · simp [step, hs, hc, h0]
  · simp [writeCurrent, hall, hsent]

/-! A connection on which the ids come round while the first request stays unanswered. -/

/-- One channel on which two requests may be outstanding. -/
def reuseBuilder : ProtocolBuilder 1 := ⟨fun _ => ⟨2, 0, 0⟩, .smallest⟩

/-- The protocol when `outgoing` are outstanding and `prev` was the last id. -/
def asked (prev : UInt16) (outgoing : Finset Id) : JulietProtocol 1 :=
  { reuseBuilder.build with
    channels := fun i =>
      { reuseBuilder.build.channels i with prevRequestId := prev, outgoingRequests := outgoing } }

/-- The request map with the first request only. -/
def firstMap : BiMap IoId (ChannelId × Id) := ⟨[(⟨0⟩, (⟨0⟩, ⟨1⟩))], by decide, by decide⟩

/-- The core when the first request is the only one outstanding and nothing is to be done. -/
def lull (prev : UInt16) (history : List Sent) : IoCore 1 :=
  { IoCore.new reuseBuilder with
    juliet := asked prev {⟨1⟩}
    nextParseAt := 4
    requestMap := firstMap
    history }

/-- The core that has created one more request. -/
def sending (prev : UInt16) (history : List Sent) (n : Nat) : IoCore 1 :=
  { lull prev history with
    juliet := asked (prev + 1) {⟨prev + 1⟩, ⟨1⟩}
    requestMap := firstMap.insert ⟨n⟩ (⟨0⟩, ⟨prev + 1⟩)
    readyQueue := [⟨history.length, (Channel.requestMessage ⟨0⟩ ⟨prev + 1⟩ none).frames⟩]
    history := history ++ [⟨.request ⟨0⟩ ⟨n⟩ none, Channel.requestMessage ⟨0⟩ ⟨prev + 1⟩ none⟩] }

/-- Where the task stands, with the request ids from `n` on unused. -/
structure Stands (core : IoCore 1) (position : Position) (n : Nat) (t : IoTask 1) : Prop where
  core : t.core = core
  position : t.position = position
  unused : ∀ m, n ≤ m → ⟨m⟩ ∉ t.issued

/-- A request that is sent and answered. -/
def round (n : Nat) (id : Id) : List IoAct :=
  [.enqueue (.request ⟨0⟩ ⟨n⟩ none), .recv, .tryRecv, .turn, .write 4, .turn,
    .read (Header.new .response ⟨0⟩ id).bytes, .turn, .turn]

variable {prev : UInt16} {history : List Sent} {n : Nat} {t : IoTask 1}

theorem asked_setChannel (prev prev' : UInt16) (outgoing outgoing' : Finset Id) :
    (asked prev outgoing).setChannel 0
      { (asked prev outgoing).channels 0 with
        prevRequestId := prev', outgoingRequests := outgoing' } =
      asked prev' outgoing' := by
  unfold asked JulietProtocol.setChannel
  congr 1
  funext i
  obtain rfl : i = 0 := Subsingleton.elim _ _
  simp

theorem asked_of {juliet : JulietProtocol 1} {outgoing : Finset Id}
    (hc : juliet.channels 0 = (asked prev outgoing).channels 0)
    (hm : juliet.maxFrameSize = reuseBuilder.maxFrameSize) : juliet = asked prev outgoing := by
  obtain ⟨channels, maxFrameSize⟩ := juliet
  have hchannels : channels = (asked prev outgoing).channels := by
    funext i
    obtain rfl : i = 0 := Subsingleton.elim _ _
    exact hc
  dsimp only at hm
  rw [hchannels, hm]
  rfl

theorem handleIncomingItem_lull (hp : prev ≠ 0) :
    (lull prev history).handleIncomingItem (.request ⟨0⟩ ⟨n⟩ none) =
      .ok (.ok (), sending prev history n) := by
  have hi : (ChannelId.mk 0).get.toNat = (0 : Fin 1) := rfl
  have ha : ((lull prev history).juliet.channels 0).allowedToSendRequest = true := rfl
  have hid : ((lull prev history).juliet.channels 0).Generates ⟨prev + 1⟩ := by
    have hne : prev + 1 ≠ 1 := by
      intro h
      exact hp (by simpa using h)
    simp [Channel.Generates, lull, asked, Channel.searchId, hne]
  have hwait : itemShouldWait (.request ⟨0⟩ ⟨n⟩ none) (lull prev history).juliet
      (lull prev history).activeMultiFrame =
      .ok (.ok none) := by
    rw [itemShouldWait_request hi, if_pos ha]
    simp
  rw [IoCore.handleIncomingItem, hwait]
  simp only [bind_ok]
  rw [IoCore.sendToReadyQueue_request _ hi ha (by simp [JulietProtocol.PayloadWithin]) hid]
  have hjuliet : (lull prev history).juliet.setChannel 0
      (((lull prev history).juliet.channels 0).withRequest ⟨prev + 1⟩) =
      asked (prev + 1) {⟨prev + 1⟩, ⟨1⟩} := asked_setChannel _ _ _ _
  rw [hjuliet]
  rfl

/-- The bytes of an answer are read as such, and leave the first request outstanding. -/
theorem processIncoming_answer (prev : UInt16) {id : Id} (hid : id ≠ ⟨1⟩) :
    (asked prev {id, ⟨1⟩}).processIncoming (Header.new .response ⟨0⟩ id).bytes =
      .ok (.success (.receivedResponse ⟨0⟩ id none), asked prev {⟨1⟩}, []) := by
  let it : FrameIter := (createUncheckedResponse ⟨0⟩ id none).frames
  have hi : (ChannelId.mk 0).get.toNat = (0 : Fin 1) := rfl
  have hs : Sendable ((asked prev {id, ⟨1⟩}).channels 0).config ⟨0⟩ id .response it.msg := .response
  have ha : ((asked prev {id, ⟨1⟩}).channels 0).Admits .response id it := by
    refine ⟨by simp, ?_, by simp, fun _ => ?_⟩
    · intro _
      exact Finset.mem_insert_self id _
    · simp [asked, ProtocolBuilder.build, Channel.new, MultiframeReceiver.inProgressHeader]
  have hpass : it.passOver (asked prev {id, ⟨1⟩}).maxFrameSize
      ((asked prev {id, ⟨1⟩}).channels 0).currentMultiframeReceiver = some .ready := rfl
  have hframe := JulietProtocol.processFrame_honest hi hs ha hpass (by simp [it,
    OutgoingMessage.frames]) []
  have hemit : it.emit (asked prev {id, ⟨1⟩}).maxFrameSize = (Header.new .response ⟨0⟩ id).bytes :=
    FrameIter.emit_none rfl
  rw [hemit, List.append_nil] at hframe
  rw [JulietProtocol.processIncoming_of_some hframe]
  have herase : ({id, ⟨1⟩} : Finset Id).erase id = {⟨1⟩} := Finset.erase_insert (by simpa using hid)
  have hafter : (asked prev {id, ⟨1⟩}).setChannel 0
      (((asked prev {id, ⟨1⟩}).channels 0).release id) =
      asked prev {⟨1⟩} := by
    refine (asked_setChannel prev prev {id, ⟨1⟩} (({id, ⟨1⟩} : Finset Id).erase id)).trans ?_
    rw [herase]
  rw [← hafter]
  rfl

/-- The history with one more request. -/
def withRound (history : List Sent) (prev : UInt16) (n : Nat) : List Sent :=
  history ++ [⟨.request ⟨0⟩ ⟨n⟩ none, Channel.requestMessage ⟨0⟩ ⟨prev + 1⟩ none⟩]

/-- The core that has the answer to its latest request in its buffer. -/
def answering (prev : UInt16) (history : List Sent) (n : Nat) : IoCore 1 :=
  { sending prev history n with
    readyQueue := [], buffer := (Header.new .response ⟨0⟩ ⟨prev + 1⟩).bytes }

/-- The answer to the latest request is reported for it. -/
theorem parseIncoming_answer (history : List Sent) (hp : prev ≠ 0) (hn : n ≠ 0) :
    ∃ outcome event, (answering prev history n).parseIncoming =
      .ok (outcome, some (.ok event),
        { lull (prev + 1) (withRound history prev n) with nextParseAt := 0 }) := by
  have hne : (⟨prev + 1⟩ : Id) ≠ ⟨1⟩ := by
    intro h
    exact hp (by simpa using h)
  have hparse : (answering prev history n).juliet.processIncoming
      (answering prev history n).buffer =
      .ok (.success (.receivedResponse ⟨0⟩ ⟨prev + 1⟩ none), asked (prev + 1) {⟨1⟩}, []) :=
    processIncoming_answer (prev + 1) hne
  have hscan :
      ((answering prev history n).parsed (asked (prev + 1) {⟨1⟩}) []).processWaitQueue ⟨0⟩ =
        .ok (.ok (), (answering prev history n).parsed (asked (prev + 1) {⟨1⟩}) []) := rfl
  have hpair : ((⟨n⟩, (⟨0⟩, ⟨prev + 1⟩)) : IoId × (ChannelId × Id)) ∈
      ((answering prev history n).parsed (asked (prev + 1) {⟨1⟩}) []).requestMap.pairs :=
        BiMap.mem_insert.mpr (.inl rfl)
  have hmap : ((answering prev history n).requestMap.removeByRight (⟨0⟩, ⟨prev + 1⟩)).2 =
      firstMap := by
    refine BiMap.removeByRight_insert ?_ ?_
    · simp [firstMap, hn]
    · intro a
      simp only [firstMap, List.mem_singleton, Prod.mk.injEq, not_and]
      exact fun _ _ => hne
  obtain ⟨event, _, hread⟩ :=
    IoCore.handleCompletedRead_answered (.receivedResponse ⟨0⟩ ⟨prev + 1⟩ none) rfl hpair
  refine ⟨some (.success (.receivedResponse ⟨0⟩ ⟨prev + 1⟩ none)), event, ?_⟩
  rw [IoCore.parseIncoming_response (show 4 ≤ 4 from le_rfl) hparse hscan, hread]
  have hcore : { (answering prev history n).parsed (asked (prev + 1) {⟨1⟩}) [] with
      requestMap := ((answering prev history n).requestMap.removeByRight (⟨0⟩, ⟨prev + 1⟩)).2 } =
        { lull (prev + 1) (withRound history prev n) with nextParseAt := 0 } := by
    rw [hmap]
    rfl
  rw [← hcore]
  rfl

theorem Stands.ask (h : Stands (lull prev history) .select n t) (hp : prev ≠ 0) :
    ∃ t', Transition.exec step anyStep [.enqueue (.request ⟨0⟩ ⟨n⟩ none), .recv] t = some t' ∧
      Stands (sending prev history n) .draining (n + 1) t' := by
  obtain ⟨core, position, issued, written, begun, sentFrames, outcomes, events⟩ := t
  obtain ⟨hcore, hposition, hunused⟩ := h
  dsimp only at hcore hposition hunused
  subst hcore hposition
  refine ⟨⟨sending prev history n, .draining, insert ⟨n⟩ issued, written, begun, sentFrames,
    outcomes, events⟩, ?_,
    rfl, rfl, ?_⟩
  · have hreceiver : (lull prev history).receiver = ⟨[], false, true⟩ := rfl
    have hqueue : { lull prev history with receiver := ⟨[], false, true⟩ } = lull prev history :=
      rfl
    simp [Transition.exec, anyStep, step, IoTask.enqueue, hreceiver, hunused n le_rfl, take, hqueue,
      handleIncomingItem_lull hp]
  · intro m hm
    have hne : (⟨m⟩ : IoId) ≠ ⟨n⟩ := by simp; omega
    simpa [hne] using hunused m (by omega)

/-- The only frame of the request. -/
def requestFrame (prev : UInt16) (serial : Nat) : CurrentFrame :=
  ⟨((Channel.requestMessage ⟨0⟩ ⟨prev + 1⟩ none).frames.nextOwned reuseBuilder.maxFrameSize).1,
    true, serial⟩

theorem Stands.send (h : Stands (sending prev history n) .draining (n + 1) t) :
    ∃ t', Transition.exec step anyStep [.tryRecv, .turn, .write 4] t = some t' ∧
      Stands { sending prev history n with readyQueue := [] } .top (n + 1) t' := by
  obtain ⟨core, position, issued, written, begun, sentFrames, outcomes, events⟩ := t
  obtain ⟨hcore, hposition, hunused⟩ := h
  dsimp only at hcore hposition hunused
  subst hcore hposition
  have hready : Transition.exec step anyStep [.tryRecv, .turn]
      (⟨sending prev history n, .draining, issued, written, begun, sentFrames, outcomes,
        events⟩ : IoTask 1) =
        some ⟨{ sending prev history n with
          readyQueue := [], currentFrame := some (requestFrame prev history.length) },
          .select, issued, written, begun, sentFrames, outcomes ++ [], events⟩ := rfl
  obtain ⟨t', ht', hc, hp, hi⟩ := step_write_idle
    (t := ⟨{ sending prev history n with
      readyQueue := [], currentFrame := some (requestFrame prev history.length) },
      .select, issued, written, begun, sentFrames, outcomes ++ [], events⟩)
    rfl rfl (show 0 < 4 by decide) (show _ = ((0 : Fin 1) : Nat) from rfl)
    (Header.new_isError _ _ _) rfl rfl
  refine ⟨t', ?_, hc, hp, ?_⟩
  · rw [show [IoAct.tryRecv, .turn, .write 4] = [.tryRecv, .turn] ++ [.write 4] from rfl,
      Transition.exec_append, hready]
    simp only [Option.bind_some, Transition.exec, anyStep, if_true]
    rw [show IoAct.write 4 = .write (requestFrame prev history.length).frame.remaining from rfl,
      ht']
    rfl
  · rw [hi]
    exact hunused

theorem Stands.answer (h : Stands { sending prev history n with readyQueue := [] } .top (n + 1) t)
    (hp : prev ≠ 0)
    (hn : n ≠ 0) :
    ∃ t', Transition.exec step anyStep [.turn, .read (Header.new .response ⟨0⟩ ⟨prev + 1⟩).bytes,
      .turn, .turn] t = some t' ∧
      Stands (lull (prev + 1) (withRound history prev n)) .select (n + 1) t' := by
  obtain ⟨core, position, issued, written, begun, sentFrames, outcomes, events⟩ := t
  obtain ⟨hcore, hposition, hunused⟩ := h
  dsimp only at hcore hposition hunused
  subst hcore hposition
  have hread : Transition.exec step anyStep [.turn,
      .read (Header.new .response ⟨0⟩ ⟨prev + 1⟩).bytes]
      (⟨{ sending prev history n with readyQueue := [] }, .top, issued, written, begun,
        sentFrames, outcomes, events⟩
        : IoTask 1) =
        some ⟨answering prev history n, .top, issued, written, begun, sentFrames,
          outcomes ++ [], events⟩ := rfl
  obtain ⟨outcome, event, hparse⟩ := parseIncoming_answer history hp hn
  have hturn : ∀ outcomes, (⟨answering prev history n, .top, issued, written, begun, sentFrames,
      outcomes, events⟩ : IoTask 1).step .turn =
      some ⟨{ lull (prev + 1) (withRound history prev n) with nextParseAt := 0 }, .top, issued,
        written, begun, sentFrames,
        outcomes ++ outcome.toList, events ++ [event]⟩ := by
    intro outcomes
    have hpending : (answering prev history n).pendingError = none := rfl
    simp [step, turn, hpending, hparse]
  refine ⟨⟨lull (prev + 1) (withRound history prev n), .select, issued, written, begun, sentFrames,
    outcomes ++ [] ++ outcome.toList ++ [.incomplete ⟨4, by decide, by decide⟩], events ++ [event]⟩,
    ?_, rfl, rfl, hunused⟩
  rw [show [IoAct.turn, .read (Header.new .response ⟨0⟩ ⟨prev + 1⟩).bytes, .turn, .turn] =
    [.turn, .read (Header.new .response ⟨0⟩ ⟨prev + 1⟩).bytes] ++ [.turn, .turn] from rfl,
    Transition.exec_append, hread]
  simp only [Option.bind_some, Transition.exec, anyStep, if_true, hturn]
  rfl

theorem Stands.round (h : Stands (lull prev history) .select n t) (hp : prev ≠ 0) (hn : n ≠ 0) :
    ∃ t', Transition.exec step anyStep (IoTask.round n ⟨prev + 1⟩) t = some t' ∧
      Stands (lull (prev + 1) (withRound history prev n)) .select (n + 1) t' := by
  obtain ⟨t₁, h₁, hs₁⟩ := h.ask hp
  obtain ⟨t₂, h₂, hs₂⟩ := hs₁.send
  obtain ⟨t₃, h₃, hs₃⟩ := hs₂.answer hp hn
  refine ⟨t₃, ?_, hs₃⟩
  rw [show IoTask.round n ⟨prev + 1⟩ = [.enqueue (.request ⟨0⟩ ⟨n⟩ none),
    .recv] ++ ([.tryRecv, .turn, .write 4] ++
    [.turn, .read (Header.new .response ⟨0⟩ ⟨prev + 1⟩).bytes, .turn, .turn]) from rfl,
    Transition.exec_append, h₁, Option.bind_some, Transition.exec_append, h₂, Option.bind_some, h₃]

/-- The first request is sent, and then `k` others that are answered. -/
def rounds : Nat → List IoAct
  | 0 => [.enqueue (.request ⟨0⟩ ⟨0⟩ none), .turn, .recv, .tryRecv, .turn, .write 4, .turn]
  | k + 1 => rounds k ++ round (k + 1) ⟨UInt16.ofNat (k + 1) + 1⟩

theorem owner_withRound (hp : prev ≠ 0) (h : owner history (⟨0⟩, ⟨1⟩) = some ⟨0⟩) :
    owner (withRound history prev n) (⟨0⟩, ⟨1⟩) = some ⟨0⟩ := by
  rw [withRound, owner_request, Channel.requestMessage_id, if_neg]
  · exact h
  · intro he
    exact hp (by simpa using he)

def firstHistory : List Sent := [⟨.request ⟨0⟩ ⟨0⟩ none, Channel.requestMessage ⟨0⟩ ⟨1⟩ none⟩]

theorem stands_first :
    ∃ t, run reuseBuilder anyStep (rounds 0) = some t ∧
      Stands (lull 1 firstHistory) .select 1 t := by
  have hrun : (run reuseBuilder anyStep (rounds 0)).map (fun t =>
      ({ t.core with juliet := asked 1 {⟨1⟩} }, t.core.juliet.channels 0,
        t.core.juliet.maxFrameSize, t.position, t.issued)) =
        some (lull 1 firstHistory, (asked 1 {⟨1⟩}).channels 0, reuseBuilder.maxFrameSize,
          .select, {⟨0⟩}) := rfl
  obtain ⟨⟨core, position, issued, written, begun, sentFrames, outcomes, events⟩, ht, he⟩ :=
    Option.map_eq_some_iff.mp hrun
  simp only [Prod.mk.injEq] at he
  obtain ⟨hcore, hchannel, hmax, hposition, hissued⟩ := he
  have hjuliet := asked_of hchannel hmax
  refine ⟨_, ht, ?_, hposition, ?_⟩
  · dsimp only
    rw [← hcore, ← hjuliet]
  · intro m hm
    simp only [hissued, Finset.mem_singleton, IoId.mk.injEq]
    omega

theorem stands_rounds (k : Nat) (hk : k < 65535) :
    ∃ t history, run reuseBuilder anyStep (rounds k) = some t ∧
      Stands (lull (UInt16.ofNat (k + 1)) history) .select (k + 1) t ∧
      owner history (⟨0⟩, ⟨1⟩) = some ⟨0⟩ := by
  induction k with
  | zero =>
    obtain ⟨t, ht, hs⟩ := stands_first
    exact ⟨t, firstHistory, ht, hs, by decide⟩
  | succ k ih =>
    obtain ⟨t, history, hrun, hs, howner⟩ := ih (by omega)
    have hp : UInt16.ofNat (k + 1) ≠ 0 := by
      intro h
      have := congrArg UInt16.toNat h
      simp at this
      omega
    obtain ⟨t', ht', hs'⟩ := hs.round hp (by omega)
    have hnext : UInt16.ofNat (k + 1 + 1) = UInt16.ofNat (k + 1) + 1 := UInt16.ofNat_add (k + 1) 1
    refine ⟨t', withRound history (UInt16.ofNat (k + 1)) (k + 1), ?_, ?_, owner_withRound hp howner⟩
    · rw [run] at hrun ⊢
      rw [rounds, Transition.exec_append, hrun, Option.bind_some]
      exact ht'
    · rw [hnext]
      exact hs'

/-- The last free request goes out, one more has to wait, and the first is answered. -/
def lastAnswer : List IoAct :=
  [.enqueue (.request ⟨0⟩ ⟨65536⟩ none), .tryRecv, .tryRecv, .turn,
    .read (Header.new .response ⟨0⟩ ⟨1⟩).bytes]

/-- The core when one request waits and the answer to the first is in the buffer. -/
def blocked (history : List Sent) : IoCore 1 :=
  { (sending 65535 history 65535).setWaitQueue 0 [.request ⟨0⟩ ⟨65536⟩ none] with
    readyQueue := []
    currentFrame := some (requestFrame 65535 history.length)
    buffer := (Header.new .response ⟨0⟩ ⟨1⟩).bytes }

theorem Stands.block (h : Stands (sending 65535 history 65535) .draining 65536 t) :
    ∃ t', Transition.exec step anyStep lastAnswer t = some t' ∧
      Stands (blocked history) .top 65537 t' := by
  obtain ⟨core, position, issued, written, begun, sentFrames, outcomes, events⟩ := t
  obtain ⟨hcore, hposition, hunused⟩ := h
  dsimp only at hcore hposition hunused
  subst hcore hposition
  have hasked : (⟨sending 65535 history 65535, .draining, issued, written, begun,
      sentFrames, outcomes, events⟩
      : IoTask 1).step (.enqueue (.request ⟨0⟩ ⟨65536⟩ none)) =
        some ⟨{ sending 65535 history 65535 with receiver := ⟨[.request ⟨0⟩ ⟨65536⟩ none],
          false, true⟩ }, .draining,
          insert ⟨65536⟩ issued, written, begun, sentFrames, outcomes, events⟩ := by
    have hreceiver : (sending 65535 history 65535).receiver = ⟨[], false, true⟩ := rfl
    simp [step, IoTask.enqueue, hreceiver, hunused 65536 le_rfl]
  refine ⟨⟨blocked history, .top, insert ⟨65536⟩ issued, written, begun, sentFrames,
    outcomes ++ [], events⟩, ?_, rfl,
    rfl, ?_⟩
  · simp only [lastAnswer, Transition.exec, anyStep, if_true, hasked, Option.bind_some]
    rfl
  · intro m hm
    have hne : (⟨m⟩ : IoId) ≠ ⟨65536⟩ := by simp; omega
    simpa [hne] using hunused m (by omega)

/-- The waiting request gets the id of the first, and takes its place in the request map. -/
theorem parseIncoming_blocked (history : List Sent) :
    ∃ event core, event.answerId = some ⟨65536⟩ ∧ (blocked history).parseIncoming =
      .ok (some (.success (.receivedResponse ⟨0⟩ ⟨1⟩ none)), some (.ok event), core) := by
  let juliet : JulietProtocol 1 :=
    (asked 0 {⟨0⟩, ⟨1⟩}).setChannel 0 (((asked 0 {⟨0⟩, ⟨1⟩}).channels 0).release ⟨1⟩)
  have hparse : (blocked history).juliet.processIncoming (blocked history).buffer =
      .ok (.success (.receivedResponse ⟨0⟩ ⟨1⟩ none), juliet, []) := rfl
  have hi : (ChannelId.mk 0).get.toNat = (0 : Fin 1) := rfl
  have hid : (juliet.channels 0).Generates ⟨1⟩ := rfl
  obtain ⟨c, hscan, hmap⟩ : ∃ c, ((blocked history).parsed juliet []).processWaitQueue ⟨0⟩ =
      .ok (.ok (), c) ∧
      c.requestMap = (blocked history).requestMap.insert ⟨65536⟩ (⟨0⟩, ⟨1⟩) :=
    ⟨_, IoCore.processWaitQueue_request ((blocked history).parsed juliet []) hi rfl rfl hid,
      IoCore.created_requestMap _ _ _ _ _⟩
  have hpair : ((⟨65536⟩, (⟨0⟩, ⟨1⟩)) : IoId × (ChannelId × Id)) ∈ c.requestMap.pairs := by
    rw [hmap]
    exact BiMap.mem_insert.mpr (.inl rfl)
  obtain ⟨event, hevent, hread⟩ :=
    IoCore.handleCompletedRead_answered (.receivedResponse ⟨0⟩ ⟨1⟩ none) rfl hpair
  rw [IoCore.parseIncoming_response (show 4 ≤ 4 from le_rfl) hparse hscan, hread]
  exact ⟨event, _, hevent, rfl⟩

/-- When the ids have come round, the answer to the first request is handed to another one. -/
theorem answer_for_another_request :
    ∃ t t', run reuseBuilder anyStep (rounds 65534 ++ [.enqueue (.request ⟨0⟩ ⟨65535⟩ none),
      .recv] ++ lastAnswer) = some t ∧
      Reach reuseBuilder anyStep t ∧ t.step .turn = some t' ∧ t.core.Outstanding (⟨0⟩, ⟨1⟩) ⟨0⟩ ∧
      t'.outcomes = t.outcomes ++ [.success (.receivedResponse ⟨0⟩ ⟨1⟩ none)] ∧
      (∃ event, t'.events = t.events ++ [event] ∧ event.answerId = some ⟨65536⟩) ∧
      ¬ ReportsOutstanding t t' := by
  obtain ⟨t₀, history, hrun, hs, howner⟩ := stands_rounds 65534 (by omega)
  obtain ⟨t₁, h₁, hs₁⟩ := hs.ask (by decide)
  obtain ⟨t, h₂, hcore, hposition, _⟩ := hs₁.block
  have hall : run reuseBuilder anyStep (rounds 65534 ++ [.enqueue (.request ⟨0⟩ ⟨65535⟩ none),
      .recv] ++ lastAnswer) =
      some t := by
    simp only [Transition.exec_append, hrun, Option.bind_some]
    rw [h₁, Option.bind_some, h₂]
  obtain ⟨event, core, hevent, hparse⟩ := parseIncoming_blocked history
  have hpending : (blocked history).pendingError = none := rfl
  have hturn : t.step .turn = some { t with
      core, outcomes := t.outcomes ++ [.success (.receivedResponse ⟨0⟩ ⟨1⟩ none)]
      events := t.events ++ [event] } := by
    simp [step, hposition, turn, hcore, hpending, hparse]
  have hout : t.core.Outstanding (⟨0⟩, ⟨1⟩) ⟨0⟩ := by
    rw [hcore]
    refine ⟨owner_withRound (by decide) howner, 0, rfl, ?_⟩
    exact Finset.mem_insert_of_mem (Finset.mem_singleton_self _)
  refine ⟨t, _, hall, Transition.Reach.exec .start hall, hturn, hout, rfl, ⟨event, rfl, hevent⟩, ?_⟩
  intro h
  obtain ⟨read, key, hread, hkey, howner', _⟩ := h event ⟨65536⟩ rfl hevent
  have he : read = .receivedResponse ⟨0⟩ ⟨1⟩ none := by simpa using hread.symm
  subst he
  cases Option.some.inj hkey
  rw [hout.1] at howner'
  simp at howner'

/-- Two requests go out, a third one waits, and the answer to the first is in the buffer. -/
def answeredWhileWaiting : List IoAct :=
  [.enqueue (.request ⟨0⟩ ⟨0⟩ none), .enqueue (.request ⟨0⟩ ⟨1⟩ none),
    .enqueue (.request ⟨0⟩ ⟨2⟩ none), .turn, .recv, .tryRecv, .tryRecv, .tryRecv, .turn, .write 4,
    .turn, .write 4, .turn, .read (Header.new .response ⟨0⟩ ⟨1⟩).bytes]

/-- The waiting request takes an id of its own, and the answer is reported for the first one. -/
theorem answers_reported_first :
    ∃ t t', run reuseBuilder keepsAnsweredId answeredWhileWaiting = some t ∧
      t.core.waitQueue 0 = [.request ⟨0⟩ ⟨2⟩ none] ∧ t.step .turn = some t' ∧
      t'.core.requestMap.pairs = [(⟨2⟩, (⟨0⟩, ⟨3⟩)), (⟨1⟩, (⟨0⟩, ⟨2⟩))] ∧
      t'.events = [.receivedResponse ⟨0⟩ none] ∧ ReportsOutstanding t t' := by
  have hrun : (run reuseBuilder keepsAnsweredId answeredWhileWaiting).map
      (fun t => (t.core.waitQueue 0,
      keepsAnsweredId t .turn, (t.step .turn).map
      fun t' => (t'.core.requestMap.pairs, t'.events))) =
        some ([.request ⟨0⟩ ⟨2⟩ none], true,
          some ([(⟨2⟩, (⟨0⟩, ⟨3⟩)), (⟨1⟩, (⟨0⟩, ⟨2⟩))], [.receivedResponse ⟨0⟩ none])) := rfl
  obtain ⟨t, ht, he⟩ := Option.map_eq_some_iff.mp hrun
  simp only [Prod.mk.injEq] at he
  obtain ⟨hwaits, hok, hstep⟩ := he
  obtain ⟨t', ht', he'⟩ := Option.map_eq_some_iff.mp hstep
  obtain ⟨hmap, hevents⟩ := Prod.mk.inj he'
  exact ⟨t, t', ht, hwaits, ht', hmap, hevents,
    (answers_reported (Transition.Reach.exec .start ht) hok ht').1⟩

end IoTask

end Juliet
