import Juliet.CancelOrder
import Juliet.WaitQueue

namespace Juliet

open Rust

theorem OutgoingMessage.isMultiFrame_eq (msg : OutgoingMessage) (m : MaxFrameSize) :
    msg.isMultiFrame m = msg.payload.any fun payload => payloadIsMultiFrame m payload.length := by
  unfold isMultiFrame
  cases msg.payload <;> rfl

namespace IoCore

variable {N : Nat} {self c : IoCore N} {i : Fin N}

/-- An item that has waited is sent, dropped or refused. -/
theorem sendToReadyQueue_total {item : QueuedItem} (self : IoCore N) (hw : item.waitsOn i) :
    ∃ r c, self.sendToReadyQueue item = .ok (r, c) := by
  rcases QueuedItem.waitsOn_cases hw with ⟨channel, ioId, payload, rfl, hi⟩ | ⟨channel,
    id, payload, rfl, hi⟩
  · obtain ⟨r, juliet, hc⟩ := self.juliet.createRequest_total channel payload
    simp only [sendToReadyQueue, hc, bind_ok]
    cases r with
    | error violation => exact ⟨_, _, rfl⟩
    | ok msg =>
      simp only [markActive_of hi, bind_ok]
      exact ⟨_, _, rfl⟩
  · simp only [sendToReadyQueue]
    split
    next => exact ⟨_, _, rfl⟩
    next =>
      simp only [markActive_of hi, bind_ok]
      exact ⟨_, _, rfl⟩
    next => exact ⟨_, _, rfl⟩

theorem waitLoop_total {channel : ChannelId} (remaining : Nat) {self : IoCore N} (hs : self.Sound) :
    ∃ r c, waitLoop channel i remaining self = .ok (r, c) := by
  induction remaining generalizing self with
  | zero => exact ⟨_, _, rfl⟩
  | succ remaining ih =>
    unfold waitLoop
    split
    next => exact ⟨_, _, rfl⟩
    next item rest hq =>
      have hw : item.waitsOn i := hs.waiting i item (hq ▸ List.mem_cons_self)
      have hrest : ∀ item' ∈ rest, item'.waitsOn i := by
        intro item' hm
        exact hs.waiting i item' (hq ▸ List.mem_cons_of_mem item hm)
      obtain ⟨waits, hwaits⟩ := itemShouldWait_of_waitsOn self.juliet self.activeMultiFrame hw
      simp only [setWaitQueue_juliet, setWaitQueue_active, hwaits, bind_ok]
      cases waits with
      | some channel' =>
        simp only [setWaitQueue_self, setWaitQueue_twice]
        refine ih (hs.setWaitQueue ?_)
        intro item' hm
        rcases List.mem_append.mp hm with hm | hm
        · exact hrest item' hm
        · rw [List.mem_singleton.mp hm]
          exact hw
      | none =>
        obtain ⟨r, c, hsend⟩ := sendToReadyQueue_total (self.setWaitQueue i rest) hw
        have hs' := (hs.setWaitQueue hrest).sendStep (sendToReadyQueue_steps hsend)
        simp only [hsend, bind_ok]
        cases r with
        | error violation => exact ⟨_, _, rfl⟩
        | ok _ =>
          dsimp only
          split
          next => exact ⟨_, _, rfl⟩
          next => exact ⟨_, _, rfl⟩
          next => exact ih hs'

theorem processWaitQueue_total {channel : ChannelId} (hs : self.Sound)
    (hi : channel.get.toNat = i) :
    ∃ r c, self.processWaitQueue channel = .ok (r, c) := by
  simp only [processWaitQueue, channelIndex_of hi, bind_ok]
  exact waitLoop_total _ hs

/-- What follows the last byte of a frame does not panic. -/
theorem frameSent_total (hs : self.Sound) (sent : CurrentFrame)
    (hi : sent.frame.header.channel.get.toNat = i) :
    ∃ result, self.frameSent sent = .ok result := by
  have hcleared : ∃ active,
      (if sent.isFinal then { self with currentFrame := none }.clearActive sent.frame.header
      else .ok { self with currentFrame := none }) =
        .ok { self with currentFrame := none, activeMultiFrame := active } := by
    split
    next =>
      simp only [clearActive, channelIndex_of hi, bind_ok, pure_eq_ok]
      split
      next => exact ⟨Function.update self.activeMultiFrame i none, rfl⟩
      next => exact ⟨self.activeMultiFrame, rfl⟩
    next => exact ⟨self.activeMultiFrame, rfl⟩
  obtain ⟨active, hcleared⟩ := hcleared
  simp only [frameSent, hcleared, bind_ok]
  split
  next => exact ⟨_, rfl⟩
  next =>
    have hs' : { self with currentFrame := none, activeMultiFrame := active }.Sound :=
      { hs with current := by simp }
    obtain ⟨r, c, hq⟩ := processWaitQueue_total hs' hi
    rw [hq]
    cases r <;> exact ⟨_, rfl⟩

/-- What happens to the frames of a core short of readying or sending one: nothing, or a message is
created, and one of several frames only while none is active on its channel. -/
inductive Makes (self : IoCore N) : IoCore N → Prop
  | idle (c : IoCore N) : c.readyQueue = self.readyQueue → c.currentFrame = self.currentFrame →
      c.activeMultiFrame = self.activeMultiFrame → c.history = self.history →
      c.juliet.maxFrameSize = self.juliet.maxFrameSize → Makes self c
  | create (i : Fin N) (item : QueuedItem) (msg : OutgoingMessage) (juliet : JulietProtocol N)
      (requestMap : BiMap IoId (ChannelId × Id)) : juliet.maxFrameSize = self.juliet.maxFrameSize →
      msg.header.channel.get.toNat = i →
      (msg.isMultiFrame self.juliet.maxFrameSize = true → self.activeMultiFrame i = none) →
      Makes self (self.created i item msg juliet requestMap)

/-- A request of several frames that need not wait finds no such message active on its channel. -/
theorem request_free {channel : ChannelId} {ioId : IoId} {payload : Option Bytes} {id : Id}
    (hi : channel.get.toNat = i) (ha : (self.juliet.channels i).allowedToSendRequest = true)
    (hw : itemShouldWait (.request channel ioId payload) self.juliet self.activeMultiFrame =
      .ok (.ok none))
    (hmulti : (Channel.requestMessage channel id payload).isMultiFrame
      self.juliet.maxFrameSize = true) :
    self.activeMultiFrame i = none := by
  rw [OutgoingMessage.isMultiFrame_eq] at hmulti
  rw [itemShouldWait_request hi, if_pos ha] at hw
  by_contra hactive
  rw [if_pos ⟨Option.isSome_iff_ne_none.mpr hactive, hmulti⟩] at hw
  simp at hw

theorem response_free {channel : ChannelId} {id : Id} {payload : Option Bytes}
    (hi : channel.get.toNat = i)
    (hw : itemShouldWait (.response channel id payload) self.juliet self.activeMultiFrame =
      .ok (.ok none))
    (hmulti : (createUncheckedResponse channel id payload).isMultiFrame
      self.juliet.maxFrameSize = true) :
    self.activeMultiFrame i = none := by
  have hany : payload.any
      (fun payload => payloadIsMultiFrame self.juliet.maxFrameSize payload.length) = true := by
    rw [OutgoingMessage.isMultiFrame_eq] at hmulti
    cases payload with
    | none => simp [createUncheckedResponse, OutgoingMessage.new] at hmulti
    | some payload => simpa [createUncheckedResponse, OutgoingMessage.new] using hmulti
  rw [itemShouldWait_response hi] at hw
  by_contra hactive
  rw [if_pos ⟨Option.isSome_iff_ne_none.mpr hactive, hany⟩] at hw
  simp at hw

theorem SendStep.makes {item : QueuedItem} {r : Except LocalProtocolViolation Unit}
    (hs : SendStep self item r c)
    (hw : itemShouldWait item self.juliet self.activeMultiFrame = .ok (.ok none))
    (hp : c.pendingError = none) :
    Makes self c := by
  cases hs with
  | request channel ioId payload i id hi ha _ _ =>
    exact .create i _ _ _ _ rfl (by simpa using hi) (request_free hi ha hw)
  | cancel ioId channel i id hi _ _ =>
    refine .create i _ _ _ _ rfl (by simpa [createUncheckedRequestCancellation,
      OutgoingMessage.new] using hi) ?_
    simp [createUncheckedRequestCancellation, OutgoingMessage.new, OutgoingMessage.isMultiFrame]
  | response channel id payload i hi _ _ =>
    refine .create i _ _ _ _ rfl ?_ ?_
    · cases payload <;> simpa [createUncheckedResponse, OutgoingMessage.new] using hi
    · exact response_free hi hw
  | responseCancellation channel id i hi _ =>
    refine .create i _ _ _ _ rfl (by simpa [createUncheckedResponseCancellation,
      OutgoingMessage.new] using hi) ?_
    simp [createUncheckedResponseCancellation, OutgoingMessage.new, OutgoingMessage.isMultiFrame]
  | late _ _ _ => exact .idle _ rfl rfl rfl rfl rfl
  | refused _ _ => exact .idle _ rfl rfl rfl rfl rfl
  | oversized channel id payload i _ _ _ _ => exact .idle _ rfl rfl rfl rfl rfl
  | error channel id payload frame _ _ => simp [erroring] at hp

theorem ScanStep.makes (hs : ScanStep i self c) (hsound : self.Sound)
    (hp : self.pendingError = none) :
    Relation.ReflTransGen Makes self c ∧ c.pendingError = none := by
  have hset : ∀ queue, Makes self (self.setWaitQueue i queue) :=
    fun queue => .idle _ rfl rfl rfl rfl rfl
  cases hs with
  | rotate item rest channel _ _ => exact ⟨.single (hset _), hp⟩
  | promote item rest r c hq hw hs =>
    have hp' : c.pendingError = none :=
      (hs.pendingError_eq (hsound.waiting i item (hq ▸ List.mem_cons_self))).trans hp
    exact ⟨.head (hset rest) (.single (hs.makes hw hp')), hp'⟩
  | lose item rest _ => exact ⟨.single (hset _), hp⟩

theorem processWaitQueue_makes {channel : ChannelId} {r : Except LocalProtocolViolation Unit}
    (hsound : self.Sound) (hp : self.pendingError = none)
    (hq : self.processWaitQueue channel = .ok (r, c)) :
    Relation.ReflTransGen Makes self c ∧ c.pendingError = none := by
  refine hsound.scansKeep (P := fun c => Relation.ReflTransGen Makes self c ∧ c.pendingError = none)
    hq ⟨.refl, hp⟩ ?_
  rintro i b c hb ⟨hmade, hp'⟩ hstep
  obtain ⟨hmore, hp''⟩ := hstep.makes hb hp'
  exact ⟨hmade.trans hmore, hp''⟩

theorem handleCompletedRead_makes (self : IoCore N) (read : CompletedRead) :
    Makes self (self.handleCompletedRead read).2 := by
  rcases self.handleCompletedRead_core read with he | ⟨key, he⟩
  · rw [he]
    exact .idle _ rfl rfl rfl rfl rfl
  · rw [he]
    exact .idle _ rfl rfl rfl rfl rfl

theorem ParseStep.makes {outcome : Option ReadOutcome} {result : Option (Except CoreError IoEvent)}
    (hsound : self.Sound) (hs : ParseStep self outcome result c) (hp : self.pendingError = none)
    (hp' : c.pendingError = none) :
    Relation.ReflTransGen Makes self c := by
  have hparsed : ∀ {o juliet buffer}, self.juliet.processIncoming self.buffer =
      .ok (o, juliet, buffer) →
      Makes self (self.parsed juliet buffer) ∧ (self.parsed juliet buffer).Sound := by
    intro o juliet buffer hin
    have hm := (JulietProtocol.processIncoming_settles hsound.valid hin).maxFrameSize
    exact ⟨.idle _ rfl rfl rfl rfl hm, hsound.parsed (hsound.valid.processIncoming hin) buffer⟩
  cases hs with
  | skip _ => exact .refl
  | incomplete n juliet buffer hin =>
    exact .single (.idle _ rfl rfl rfl rfl
      (JulietProtocol.processIncoming_settles hsound.valid hin).maxFrameSize)
  | fatal errMsg juliet buffer frame _ _ _ => simp [erroring] at hp'
  | event read juliet buffer hin _ =>
    exact .head (hparsed hin).1 (.single (handleCompletedRead_makes _ read))
  | response channel id payload juliet buffer c hin hq =>
    obtain ⟨hmade, _⟩ := processWaitQueue_makes (hparsed hin).2 hp hq
    exact .head (hparsed hin).1 (hmade.tail (handleCompletedRead_makes c _))
  | violation channel id payload juliet buffer err c hin hq =>
    exact .head (hparsed hin).1 (processWaitQueue_makes (hparsed hin).2 hp hq).1

theorem ItemStep.makes {item : QueuedItem} {r : Except LocalProtocolViolation Unit}
    (hs : ItemStep self item r c) (hp : c.pendingError = none) : Makes self c := by
  cases hs with
  | refused _ _ => exact .idle _ rfl rfl rfl rfl rfl
  | wait channel i _ _ => exact .idle _ rfl rfl rfl rfl rfl
  | send r c hw hs => exact hs.makes hw hp

/-- The serials of the messages with frames still to be sent, as often as they stand there. -/
def flight (self : IoCore N) : List Nat :=
  (self.currentFrame.map CurrentFrame.serial).toList ++ self.readyQueue.map ReadyEntry.serial

theorem created_flight (i : Fin N) (item : QueuedItem) (msg : OutgoingMessage)
    (juliet : JulietProtocol N) (requestMap : BiMap IoId (ChannelId × Id)) :
    (self.created i item msg juliet requestMap).flight = self.flight ++ [self.history.length] := by
  simp [flight]

theorem mem_flight {k : Nat} : k ∈ self.flight ↔
    (∃ current, self.currentFrame = some current ∧ current.serial = k) ∨
      k ∈ self.readyQueue.map ReadyEntry.serial := by
  simp [flight]

/-- Creating messages appends to the history and leaves the frame at hand alone. -/
theorem made_grows (hs : Relation.ReflTransGen Makes self c) :
    ∃ new : List Sent, c.history = self.history ++ new ∧
    c.flight = self.flight ++ List.range' self.history.length new.length ∧
    c.currentFrame = self.currentFrame ∧
    c.juliet.maxFrameSize = self.juliet.maxFrameSize := by
  induction hs with
  | refl => exact ⟨[], by simp⟩
  | tail _ hstep ih =>
    obtain ⟨new, hh, hf, hc, hm⟩ := ih
    cases hstep with
    | idle c hq hc' _ hh' hm' =>
      refine ⟨new, hh'.trans hh, ?_, hc'.trans hc, hm'.trans hm⟩
      rw [flight, hq, hc']
      exact hf
    | create i item msg juliet requestMap hm' _ _ =>
      refine ⟨new ++ [⟨item, msg⟩], ?_, ?_, ?_, ?_⟩
      · rw [created_history, hh, List.append_assoc]
      · rw [created_flight, hf, hh, List.append_assoc, List.length_append, List.length_append,
          List.length_singleton, List.range'_concat, Nat.one_mul]
      · rw [created_currentFrame, hc]
      · rw [created_juliet, hm', hm]

theorem ReadyStep.mem_flight (hs : ReadyStep self c) (k : Nat) :
    k ∈ c.flight ↔ k ∈ self.flight := by
  cases hs with
  | busy _ _ => exact Iff.rfl
  | empty _ _ => exact Iff.rfl
  | more entry rest next hnone hq _ =>
    simp only [flight, hnone, hq, Option.map_some, Option.map_none, Option.toList_some,
      Option.toList_none, List.map_append, List.map_cons, List.map_nil, List.mem_append,
      List.mem_cons, List.not_mem_nil, or_false, false_or]
    exact ⟨fun h => h.elim .inl fun h => h.symm, fun h => h.imp_right .inl⟩
  | final entry rest hnone hq _ => simp [flight, hnone, hq]

theorem ReadyStep.rest (hs : ReadyStep self c) :
    c.activeMultiFrame = self.activeMultiFrame ∧ c.history = self.history ∧
    c.juliet = self.juliet := by
  cases hs <;> exact ⟨rfl, rfl, rfl⟩

/-- Every message has at most one entry in the ready queue, and none once its last frame is at
hand. -/
structure Lined (core : IoCore N) : Prop where
  numbered : ∀ k ∈ core.flight, k < core.history.length
  once : (core.readyQueue.map ReadyEntry.serial).Nodup
  final : ∀ current ∈ core.currentFrame, current.isFinal = true ↔
    current.serial ∉ core.readyQueue.map ReadyEntry.serial

namespace Lined

theorem makes (h : self.Lined) (hs : Makes self c) : c.Lined := by
  cases hs with
  | idle c hq hc _ hh _ =>
    refine ⟨?_, ?_, ?_⟩
    · rw [flight, hq, hc, hh]
      exact h.numbered
    · rw [hq]
      exact h.once
    · rw [hq, hc]
      exact h.final
  | create i item msg juliet requestMap _ _ _ =>
    have hfresh : self.history.length ∉ self.flight := fun hk => Nat.lt_irrefl _ (h.numbered _ hk)
    have hready : ∀ k ∈ self.readyQueue.map ReadyEntry.serial, k ≠ self.history.length := by
      rintro k hk rfl
      exact hfresh (mem_flight.mpr (.inr hk))
    refine ⟨?_, ?_, ?_⟩
    · intro k hk
      rw [created_flight, List.mem_append, List.mem_singleton] at hk
      rw [created_history, List.length_append, List.length_singleton]
      rcases hk with hk | rfl
      · exact Nat.lt_succ_of_lt (h.numbered k hk)
      · exact Nat.lt_succ_self _
    · rw [created_readyQueue, List.map_append, List.nodup_append]
      refine ⟨h.once, List.nodup_singleton _, ?_⟩
      intro a ha b hb
      rw [List.mem_singleton.mp hb]
      exact hready a ha
    · intro current hc
      rw [created_currentFrame] at hc
      have hlt := h.numbered _ (mem_flight.mpr (.inl ⟨current, hc, rfl⟩))
      rw [h.final current hc, created_readyQueue, List.map_append, List.mem_append, not_or]
      refine ⟨fun hn => ⟨hn, ?_⟩, fun hn => hn.1⟩
      rw [List.map_singleton, List.mem_singleton]
      exact Nat.ne_of_lt hlt

theorem made (hs : Relation.ReflTransGen Makes self c) (h : self.Lined) : c.Lined := by
  induction hs with
  | refl => exact h
  | tail _ hstep ih => exact ih.makes hstep

theorem readyStep (h : self.Lined) (hs : ReadyStep self c) : c.Lined := by
  have hnum : ∀ k ∈ c.flight, k < c.history.length := by
    intro k hk
    rw [hs.rest.2.1]
    exact h.numbered k ((hs.mem_flight k).mp hk)
  cases hs with
  | busy _ _ => exact h
  | empty _ _ => exact h
  | more entry rest next _ hq _ =>
    have hone := h.once
    rw [hq, List.map_cons, List.nodup_cons] at hone
    refine ⟨hnum, ?_, ?_⟩
    · rw [List.map_append, List.nodup_append]
      refine ⟨hone.2, List.nodup_singleton _, ?_⟩
      rintro a ha b hb rfl
      rw [List.map_singleton, List.mem_singleton] at hb
      exact hone.1 (hb ▸ ha)
    · intro current hc
      cases Option.some.inj hc
      simp
  | final entry rest _ hq _ =>
    have hone := h.once
    rw [hq, List.map_cons, List.nodup_cons] at hone
    refine ⟨hnum, hone.2, ?_⟩
    intro current hc
    cases Option.some.inj hc
    simpa using hone.1

theorem cleared (h : self.Lined) (current : CurrentFrame) (i : Fin N) :
    (self.cleared current i).Lined where
  numbered :=
    fun k hk => h.numbered k (mem_flight.mpr (.inr (by simpa [IoCore.cleared, flight] using hk)))
  once := h.once
  final := by simp [IoCore.cleared]

theorem new (builder : ProtocolBuilder N) : (IoCore.new builder).Lined where
  numbered := by simp [IoCore.new, flight]
  once := by simp [IoCore.new]
  final := by simp [IoCore.new]

end Lined

end IoCore

namespace IoTask

variable {N : Nat} {t t' : IoTask N}

/-- What a step does to the frames while no error is to be sent. -/
inductive Effect (t t' : IoTask N) : Prop
  | made : Relation.ReflTransGen IoCore.Makes t.core t'.core → t'.begun = t.begun →
  t'.sentFrames = t.sentFrames →
      Effect t t'
  | readied (c : IoCore N) : Relation.ReflTransGen IoCore.Makes t.core c → c.ReadyStep t'.core →
    t'.begun = t.begun →
      t'.sentFrames = t.sentFrames → Effect t t'
  | wrote (current : CurrentFrame) (k : Nat) : t.core.currentFrame = some current → 0 < k →
      t'.core = (t.currentWritten current k).core → t'.begun = begin t.begun current.frame →
      t'.sentFrames = t.sentFrames → Effect t t'
  | sent (current : CurrentFrame) (i : Fin N) : t.core.currentFrame = some current →
      current.frame.header.channel.get.toNat = i →
      Relation.ReflTransGen IoCore.Makes (t.core.cleared current i) t'.core →
        t'.begun = begin t.begun current.frame →
      t'.sentFrames = t.sentFrames ++ [(current.serial, current.frame.header)] → Effect t t'

theorem frameSent_current {current : CurrentFrame} (hsound : t.core.Sound)
    (hc : t.core.currentFrame = some current) (k : Nat) :
    ∃ result, (t.currentWritten current k).core.frameSent
      { current with frame := current.frame.advance k } = .ok result := by
  obtain ⟨i, hi⟩ := (hsound.current_channel hc).2
  rw [← header_advance current.frame k] at hi
  exact IoCore.frameSent_total (sound_currentWritten hsound hc k)
    { current with frame := current.frame.advance k } hi

theorem Step.effect {a : IoAct} (hs : Step t a t') (hsound : t.core.Sound)
    (hp : t.core.pendingError = none) (hp' : t'.core.pendingError = none) : Effect t t' := by
  have hquiet : ∀ {c : IoCore N}, c.readyQueue = t.core.readyQueue → c.currentFrame =
      t.core.currentFrame →
      c.activeMultiFrame = t.core.activeMultiFrame → c.history = t.core.history →
        c.juliet = t.core.juliet →
      Relation.ReflTransGen IoCore.Makes t.core c := by
    intro c hq hc ha hh hj
    exact .single (.idle c hq hc ha hh (by rw [hj]))
  cases hs with
  | event outcome event core _ _ hparse => exact .made (hparse.makes hsound hp hp') rfl rfl
  | failed outcome err core _ _ hparse => exact .made (hparse.makes hsound hp hp') rfl rfl
  | selecting outcome core core' _ _ hparse hready =>
    exact .readied core (hparse.makes hsound hp (hready.keeps.2.symm.trans hp')) hready rfl rfl
  | writeSome current k _ hc h0 _ => exact .wrote current k hc h0 rfl rfl rfl
  | writeAll current core position r _ hc _ hsent _ =>
    have hsound' := sound_currentWritten hsound hc current.frame.remaining
    cases hsent with
    | error active he =>
      rw [header_advance, (hsound.current_channel hc).1] at he
      simp at he
    | scanned i c hi hq | violation i c err hi hq =>
      have hmade := (IoCore.processWaitQueue_makes (hsound'.cleared _ i) hp hq).1
      rw [cleared_currentWritten] at hmade
      rw [header_advance] at hi
      exact .sent current i hc hi hmade rfl rfl
  | writeAllPanic current _ hc _ hpanic =>
    obtain ⟨result, hresult⟩ := frameSent_current hsound hc current.frame.remaining
    exact absurd hresult (hpanic result)
  | writeSomeError pending data k _ he _ _ => simp [hp] at he
  | writeAllError pending data _ he _ => simp [hp] at he
  | taken a item rest core _ _ _ hi | rejected a item rest core _ _ _ _ hi =>
    have hdeq : IoCore.Makes t.core (t.dequeued rest) := .idle _ rfl rfl rfl rfl rfl
    exact .made (.head hdeq (.single ((IoCore.handleIncomingItem_steps hi).makes hp'))) rfl rfl
  | _ => exact .made (hquiet rfl rfl rfl rfl rfl) rfl rfl

/-- The frame at hand counts as written once one of its bytes is. -/
theorem writtenSerials_begin {current : CurrentFrame} (hc : t.core.currentFrame = some current) :
    t.writtenSerials ++ (if current.frame.position = 0 then [current.serial] else []) =
      t.sentFrames.map Prod.fst ++ [current.serial] := by
  by_cases hz : current.frame.position = 0
  · simp [writtenSerials, hc, Option.filter, hz]
  · have hpos : 0 < current.frame.position := by omega
    simp [writtenSerials, hc, Option.filter, hz, hpos]

theorem lined_currentWritten {current : CurrentFrame} {k : Nat} (h : t.core.Lined)
    (hc : t.core.currentFrame = some current) : (t.currentWritten current k).core.Lined := by
  refine ⟨?_, h.once, ?_⟩
  · intro k' hk
    refine h.numbered k' ?_
    simpa [IoCore.flight, currentWritten, hc] using hk
  · intro current' hc'
    cases Option.some.inj hc'
    exact h.final current hc

theorem writtenSerials_ready {c : IoCore N} (hs : c.ReadyStep t'.core)
    (hc : c.currentFrame = t.core.currentFrame) (hsent : t'.sentFrames = t.sentFrames) :
    t'.writtenSerials = t.writtenSerials := by
  rw [writtenSerials, writtenSerials, hsent, ← hc]
  generalize t'.core = c' at hs
  cases hs with
  | busy _ _ => rfl
  | empty _ _ => rfl
  | more entry rest next hnone _ _ => simp [hnone, Option.filter, FrameIter.nextOwned_position]
  | final entry rest hnone _ _ => simp [hnone, Option.filter, FrameIter.nextOwned_position]

theorem writtenSerials_wrote {current : CurrentFrame} {k : Nat} (h0 : 0 < k)
    (hcore : t'.core = (t.currentWritten current k).core) (hsent : t'.sentFrames = t.sentFrames) :
    t'.writtenSerials = t.sentFrames.map Prod.fst ++ [current.serial] := by
  have hpos := OutgoingFrame.advance_position (f := current.frame) h0
  simp [writtenSerials, hsent, hcore, currentWritten, Option.filter, hpos]

theorem writtenSerials_sent {current : CurrentFrame} {header : Header}
    (hnone : t'.core.currentFrame = none)
    (hsent : t'.sentFrames = t.sentFrames ++ [(current.serial, header)]) :
    t'.writtenSerials = t.sentFrames.map Prod.fst ++ [current.serial] := by
  simp [writtenSerials, hsent, hnone]

/-- How a step changes which messages there are, which are in flight and of which frames are
written. -/
structure Progress (t t' : IoTask N) : Prop where
  history : ∃ new, t'.core.history = t.core.history ++ new
  maxFrameSize : t'.core.juliet.maxFrameSize = t.core.juliet.maxFrameSize
  flight : ∀ k ∈ t'.core.flight, k ∈ t.core.flight ∨ t.core.history.length ≤ k
  written : t'.writtenSerials = t.writtenSerials ∨ ∃ current, t.core.currentFrame = some current ∧
    t'.writtenSerials = t.writtenSerials ++ [current.serial]

theorem Effect.progress (he : Effect t t') : Progress t t' := by
  have hmade : ∀ {self c : IoCore N}, Relation.ReflTransGen IoCore.Makes self c →
      ∀ k ∈ c.flight, k ∈ self.flight ∨ self.history.length ≤ k := by
    intro self c hs k hk
    obtain ⟨new, _, hf, _, _⟩ := IoCore.made_grows hs
    rw [hf, List.mem_append, List.mem_range'_1] at hk
    exact hk.imp_right fun h => h.1
  have hbegin : ∀ {current}, t.core.currentFrame = some current →
      t'.writtenSerials = t.sentFrames.map Prod.fst ++ [current.serial] →
      t'.writtenSerials = t.writtenSerials ∨ ∃ current, t.core.currentFrame = some current ∧
        t'.writtenSerials = t.writtenSerials ++ [current.serial] := by
    intro current hc hw
    rw [hw, ← writtenSerials_begin hc]
    split
    next => exact .inr ⟨current, hc, rfl⟩
    next => exact .inl (List.append_nil _)
  cases he with
  | made hs hb hsent =>
    obtain ⟨new, hh, _, hc, hm⟩ := IoCore.made_grows hs
    refine ⟨⟨new, hh⟩, hm, hmade hs, .inl ?_⟩
    rw [writtenSerials, writtenSerials, hc, hsent]
  | readied c hs hready hb hsent =>
    obtain ⟨new, hh, _, hc, hm⟩ := IoCore.made_grows hs
    obtain ⟨_, hh', hj⟩ := hready.rest
    refine ⟨⟨new, hh'.trans hh⟩, by rw [hj, hm], ?_, .inl (writtenSerials_ready hready hc hsent)⟩
    intro k hk
    exact hmade hs k ((hready.mem_flight k).mp hk)
  | wrote current k hc h0 hcore hb hsent =>
    refine ⟨⟨[], by simp [hcore, currentWritten]⟩, by rw [hcore]; rfl, ?_,
      hbegin hc (writtenSerials_wrote h0 hcore hsent)⟩
    intro k' hk
    rw [hcore] at hk
    left
    simpa [IoCore.flight, currentWritten, hc] using hk
  | sent current i hc _ hs hb hsent =>
    obtain ⟨new, hh, _, hnone, hm⟩ := IoCore.made_grows hs
    refine ⟨⟨new, hh⟩, hm, ?_, hbegin hc (writtenSerials_sent hnone hsent)⟩
    intro k hk
    refine (hmade hs k hk).imp_left fun hk => IoCore.mem_flight.mpr (.inr ?_)
    simpa [IoCore.flight, IoCore.cleared] using hk

end IoTask

end Juliet
