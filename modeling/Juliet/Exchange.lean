import Juliet.LaneRuns

namespace Juliet

open Rust JulietProtocol

/-- One end of a connection together with the requests it has cancelled: those for which the message
has been created, those for which it has been sent, and those of which a part had been sent by then.
Of the messages that are abandoned, `leftOpen` are those whose rest the peer goes on waiting for. -/
structure Party (N : Nat) extends Side N where
  cancelled : Finset (Nat × Id)
  revoked : Finset (Nat × Id)
  halfway : Finset (Nat × Id)
  leftOpen : List FrameIter

namespace Party

variable {N : Nat}

def new (builder : ProtocolBuilder N) : Party N :=
  { toSide := Side.new builder
    cancelled := ∅
    revoked := ∅
    halfway := ∅
    leftOpen := [] }

/-- Whether a request of which a part has been sent is the one that a cancellation is for. -/
def cancels (it it' : FrameIter) : Bool :=
  it.header.kind.toOption == some .cancelReq && it'.startedOn it.header.channel.get.toNat &&
    it'.header.kind.toOption == some .requestPl && it'.header.id == it.header.id

def key (it : FrameIter) : Nat × Id := (it.header.channel.get.toNat, it.header.id)

/-- Whether a frame is the cancellation that its side has created for a request. -/
def revokes (self : Party N) (it : FrameIter) : Bool :=
  it.header.kind.toOption == some .cancelReq && decide (key it ∈ self.cancelled)

/-- Sending the next frame of the message `it`. -/
def sends (self : Party N) (before : List FrameIter) (it : FrameIter) (after : List FrameIter) :
    Party N :=
  { self with
    stream := self.stream ++ it.emit self.protocol.maxFrameSize
    sending := before ++ (it.nextOwned self.protocol.maxFrameSize).2.toList ++ after
    revoked := if self.revokes it then insert (key it) self.revoked else self.revoked
    halfway := if (before ++ after).any (cancels it) then insert (key it) self.halfway
      else self.halfway
    leftOpen := self.leftOpen.filter fun it' => !cancels it it' }

/-- Giving up the frames of `it` that have not been sent. -/
def abandons (self : Party N) (before : List FrameIter) (it : FrameIter) (after : List FrameIter) :
    Party N :=
  { self with
    sending := before ++ after
    leftOpen :=
      if 0 < it.bytesProcessed ∧ key it ∉ self.halfway then self.leftOpen ++ [it]
      else self.leftOpen }

/-- Answering a request that has been reported. -/
def answers (self : Party N) (protocol : JulietProtocol N) (i : Fin N) (id : Id)
    (msg : Option OutgoingMessage) : Party N :=
  { self with
    protocol := protocol
    sending := self.sending ++ (msg.map (·.frames)).toList
    reported := Function.update self.reported i ((self.reported i).erase id) }

end Party

/-- Both ends; each reads what the other one sends. -/
abbrev Exchange (N : Nat) := Bool → Party N

inductive ExchangeAct
  | createRequest (x : Bool) (channel : ChannelId) (payload : Option Bytes)
  | createResponse (x : Bool) (channel : ChannelId) (id : Id) (payload : Option Bytes)
  | cancelRequest (x : Bool) (channel : ChannelId) (id : Id)
  | cancelResponse (x : Bool) (channel : ChannelId) (id : Id)
  | send (x : Bool) (before : List FrameIter) (it : FrameIter) (after : List FrameIter)
  | abandon (x : Bool) (before : List FrameIter) (it : FrameIter) (after : List FrameIter)
  | deliver (x : Bool) (k : Nat)

/-- The steps of the two sides. A request is cancelled at most once, only requests that have been
reported are answered, and on each channel a message in parts is begun only when no other one is
under way. A request of several frames may be abandoned once its cancellation has been sent. -/
inductive ExchangeStep {N : Nat} (s : Exchange N) : ExchangeAct → Exchange N → Prop
  | createRequest (x : Bool) (channel : ChannelId) (payload : Option Bytes) (msg : OutgoingMessage)
      (p : JulietProtocol N) : (s x).protocol.createRequest channel payload = .ok (.ok msg, p) →
      ExchangeStep s (.createRequest x channel payload) (Function.update s x
        { s x with
          protocol := p
          sending := (s x).sending ++ [msg.frames]
          cancelled := (s x).cancelled.erase (channel.get.toNat, msg.header.id)
          revoked := (s x).revoked.erase (channel.get.toNat, msg.header.id)
          halfway := (s x).halfway.erase (channel.get.toNat, msg.header.id) })
  | createResponse (x : Bool) (channel : ChannelId) (id : Id) (payload : Option Bytes) (i : Fin N)
      (r : Option OutgoingMessage) (p : JulietProtocol N) : channel.get.toNat = i →
        id ∈ (s x).reported i →
      (s x).protocol.createResponse channel id payload = (.ok r, p) →
      ExchangeStep s (.createResponse x channel id payload)
        (Function.update s x ((s x).answers p i id r))
  | cancelRequest (x : Bool) (channel : ChannelId) (id : Id) (msg : OutgoingMessage)
      (p : JulietProtocol N) :
      (s x).protocol.cancelRequest channel id = (.ok (some msg), p) →
        (channel.get.toNat, id) ∉ (s x).cancelled →
      ExchangeStep s (.cancelRequest x channel id) (Function.update s x
        { s x with
          protocol := p
          sending := (s x).sending ++ [msg.frames]
          cancelled := insert (channel.get.toNat, id) (s x).cancelled })
  | cancelRequestLate (x : Bool) (channel : ChannelId) (id : Id) (p : JulietProtocol N) :
      (s x).protocol.cancelRequest channel id = (.ok none, p) →
      ExchangeStep s (.cancelRequest x channel id) (Function.update s x { s x with protocol := p })
  | cancelResponse (x : Bool) (channel : ChannelId) (id : Id) (i : Fin N)
      (r : Option OutgoingMessage)
      (p : JulietProtocol N) : channel.get.toNat = i → id ∈ (s x).reported i →
      (s x).protocol.cancelResponse channel id = (.ok r, p) →
      ExchangeStep s (.cancelResponse x channel id) (Function.update s x ((s x).answers p i id r))
  | send (x : Bool) (before : List FrameIter) (it : FrameIter) (after : List FrameIter) :
      (s x).sending = before ++ it :: after →
      (it.bytesProcessed = 0 → (it.nextOwned (s x).protocol.maxFrameSize).2 ≠ none →
        ∀ it' ∈ before ++ after ++ (s x).leftOpen,
        it'.startedOn it.header.channel.get.toNat = false) →
      ExchangeStep s (.send x before it after) (Function.update s x ((s x).sends before it after))
  | abandon (x : Bool) (before : List FrameIter) (it : FrameIter) (after : List FrameIter) :
      (s x).sending = before ++ it :: after → it.header.kind = .ok .requestPl →
      it.msg.isMultiFrame (s x).protocol.maxFrameSize = true → Party.key it ∈ (s x).revoked →
      ExchangeStep s (.abandon x before it after)
        (Function.update s x ((s x).abandons before it after))
  | deliver (x : Bool) (k : Nat) (reads : List CompletedRead) (n : NonZeroU32)
      (p : JulietProtocol N) (buffer : Bytes) :
      (s x).protocol.receive ((s x).buffer ++ (s !x).stream.take k) =
        .ok (reads, .waiting n p buffer) →
      ExchangeStep s (.deliver x k) (Function.update
        (Function.update s (!x) { s !x with stream := (s !x).stream.drop k }) x
        { s x with toSide := (s x).took p buffer reads })

/-- The states of two sides built from the same builder, along runs whose steps are all
`allowed`. -/
inductive ExchangeReach {N : Nat} (builder : ProtocolBuilder N)
    (allowed : Exchange N → ExchangeAct → Prop) : Exchange N → Prop
  | start : ExchangeReach builder allowed fun _ => Party.new builder
  | step {s s' : Exchange N} {act : ExchangeAct} : ExchangeReach builder allowed s →
      ExchangeStep s act s' → allowed s act → ExchangeReach builder allowed s'

/-- Nothing is on its way, no transfer is unfinished and every reported request has been
answered. -/
def Exchange.Quiescent {N : Nat} (s : Exchange N) : Prop :=
  ∀ x, (s x).sending = [] ∧ (s x).stream = [] ∧ (s x).buffer = [] ∧
    ∀ i, (s x).reported i = ∅ ∧ ((s x).chan i).currentMultiframeReceiver = .ready

/-- A cancellation is sent only when its side has sent none or all of every message with its id on
its channel, and no request is abandoned of which nothing has been sent. -/
def Exchange.Spares {N : Nat} (s : Exchange N) : ExchangeAct → Prop
  | .send x before it after => it.header.kind = .ok .cancelReq →
      ∀ it' ∈ before ++ after ++ (s x).leftOpen,
        it'.startedOn it.header.channel.get.toNat = true → it'.header.id ≠ it.header.id
  | .abandon _ _ it _ => 0 < it.bytesProcessed
  | _ => True

/-- A side as its peer has to see it: what is left open is still to be sent. -/
def Party.facing {N : Nat} (self : Party N) : Side N :=
  { self.toSide with sending := self.sending ++ self.leftOpen }

/-- What holds of two sides whose cancellations spare the messages that are under way. -/
structure Exchange.Orderly {N : Nat} (builder : ProtocolBuilder N) (s : Exchange N) : Prop where
  whole : ∀ x, (s x).halfway = ∅
  begun : ∀ x, ∀ it ∈ (s x).leftOpen, 0 < it.bytesProcessed
  joined : ∀ x, ∃ ab ba, Joined builder (s x).facing (s !x).facing ab ba

theorem Party.of_cancels {it it' : FrameIter} (hc : Party.cancels it it' = true) :
    it.header.kind = .ok .cancelReq ∧ it'.startedOn it.header.channel.get.toNat = true ∧
      it'.header.id = it.header.id := by
  simp only [Party.cancels, Bool.and_eq_true, beq_iff_eq] at hc
  obtain ⟨⟨⟨hk, hs⟩, _⟩, hid⟩ := hc
  refine ⟨?_, hs, hid⟩
  cases hh : it.header.kind with
  | error e => simp [hh, Except.toOption] at hk
  | ok k => simpa [hh, Except.toOption] using hk

/-- The order in which the messages of a side are kept does not matter. -/
theorem Joined.reorder {N : Nat} {builder : ProtocolBuilder N} {a b : Side N}
    {ab ba sending : List FrameIter} (h : Joined builder a b ab ba) (hp : sending.Perm a.sending) :
    Joined builder { a with sending := sending } b ab ba := by
  have hall : (ab ++ sending).Perm (ab ++ a.sending) := hp.append_left ab
  refine ⟨⟨h.left.valid, h.left.config, h.left.frameSize, h.left.tracked⟩, h.right, ?_, ?_⟩
  · refine ⟨h.toward.bytes, fun it hin => h.toward.sendable it (hall.mem_iff.mp hin),
      fun it hin => h.toward.begun it (hall.mem_iff.mp hin), ?_, fun i => ?_⟩
    · intro i
      obtain ⟨r, hr, ho⟩ := h.toward.chain i
      exact ⟨r, hr, ho.trans (openedBy_perm hp).symm⟩
    · exact (h.toward.balanced i).congr (requestIds_perm hall) rfl
  · exact ⟨h.back.bytes, h.back.sendable, h.back.begun, h.back.chain,
      fun i => (h.back.balanced i).congr rfl (answerIds_perm hall)⟩

namespace Exchange

variable {N : Nat} {builder : ProtocolBuilder N} {s s' : Exchange N} {act : ExchangeAct}

theorem orderly_new (builder : ProtocolBuilder N) : Orderly builder fun _ => Party.new builder where
  whole _ := rfl
  begun _ := by simp [Party.new]
  joined _ := ⟨[], [], joined_new builder⟩

theorem Orderly.update (h : Orderly builder s) {x : Bool} {party : Party N} {ab ba : List FrameIter}
    (hw : party.halfway = ∅) (hb : ∀ it ∈ party.leftOpen, 0 < it.bytesProcessed)
    (hj : Joined builder party.facing (s !x).facing ab ba) :
    Orderly builder (Function.update s x party) := by
  have hxx : (!x) ≠ x := by cases x <;> simp
  constructor
  · intro z
    rcases eq_or_eq_not z x with rfl | rfl
    · simpa using hw
    · simpa using h.whole (!x)
  · intro z
    rcases eq_or_eq_not z x with rfl | rfl
    · simpa using hb
    · simpa using h.begun (!x)
  · intro z
    rcases eq_or_eq_not z x with rfl | rfl
    · exact ⟨ab, ba, by simpa [hxx] using hj⟩
    · exact ⟨ba, ab, by simpa [hxx] using hj.symm⟩

/-- A message that is created comes behind what its side has still to send. -/
theorem created_perm (party : Party N) (msg : FrameIter) :
    ((party.sending ++ [msg]) ++ party.leftOpen).Perm (msg :: party.facing.sending) := by
  rw [List.append_assoc]
  exact List.perm_middle

theorem Orderly.answers (h : Orderly builder s) {x : Bool} {channel : ChannelId} {id : Id}
    {kind : Kind} {i : Fin N} {msg : OutgoingMessage} (hi : channel.get.toNat = i)
    (hin : id ∈ (s x).reported i) (hs : Sendable (builder.channelConfig i) channel id kind msg)
    (hk : kind.isAnswer = true) :
    Orderly builder (Function.update s x
      ((s x).answers ((s x).protocol.answered i id) i id (some msg))) := by
  obtain ⟨ab, ba, hj⟩ := h.joined x
  exact h.update (h.whole x) (h.begun x)
    (hj.answer hi hs hk hin (created_perm (s x) msg.frames) rfl)

/-- A reported request is registered, so that answering it yields a message. -/
theorem Orderly.registered (h : Orderly builder s) {x : Bool} {id : Id} {i : Fin N}
    (hin : id ∈ (s x).reported i) :
    id ∈ ((s x).protocol.channels i).incomingRequests := by
  obtain ⟨ab, ba, hj⟩ := h.joined x
  rw [← Finset.mem_val,
    show ((s x).protocol.channels i).incomingRequests.val = _ from hj.left.tracked i]
  exact Multiset.mem_add.mpr (.inl hin)

theorem Orderly.createResponse (h : Orderly builder s) {x : Bool} {channel : ChannelId} {id : Id}
    {payload : Option Bytes} {i : Fin N} {r : Option OutgoingMessage} {p : JulietProtocol N}
    (hi : channel.get.toNat = i) (hin : id ∈ (s x).reported i)
    (hc : (s x).protocol.createResponse channel id payload = (.ok r, p)) :
    Orderly builder (Function.update s x ((s x).answers p i id r)) := by
  have hidx : ∀ {j : Fin N}, (s x).protocol.lookupChannel channel = .ok j → j = i :=
    fun hl => Fin.ext ((JulietProtocol.lookupChannel_ok hl).symm.trans hi)
  obtain ⟨_, _, hj⟩ := h.joined x
  rcases (s x).protocol.createResponse_cases channel id payload with
    ⟨_, he⟩ | ⟨j, hl, hn, _⟩ | ⟨j, hl, _, ⟨_, he⟩ | ⟨hw, he⟩⟩
  · simp [hc] at he
  · cases hidx hl
    exact absurd (h.registered hin) hn
  · simp [hc] at he
  · cases hidx hl
    rw [hc, Prod.mk.injEq, Except.ok.injEq] at he
    obtain ⟨rfl, rfl⟩ := he
    rw [show ((s x).protocol.channels i).config = _ from hj.left.config i] at hw
    cases payload with
    | none => exact h.answers hi hin .response rfl
    | some pl => exact h.answers hi hin (.responsePl pl (hw pl rfl)) rfl

theorem Orderly.cancelResponse (h : Orderly builder s) {x : Bool} {channel : ChannelId} {id : Id}
    {i : Fin N} {r : Option OutgoingMessage} {p : JulietProtocol N} (hi : channel.get.toNat = i)
    (hin : id ∈ (s x).reported i) (hc : (s x).protocol.cancelResponse channel id = (.ok r, p)) :
    Orderly builder (Function.update s x ((s x).answers p i id r)) := by
  have hreg := h.registered hin
  have hl : (s x).protocol.lookupChannel channel = .ok i := by
    have hlt : channel.get.toNat < N := hi ▸ i.isLt
    have hidx : (⟨channel.get.toNat, hlt⟩ : Fin N) = i := Fin.ext hi
    simp [JulietProtocol.lookupChannel, hlt, hidx]
  have he : (s x).protocol.cancelResponse channel id =
      (.ok (some (createUncheckedResponseCancellation channel id)),
        (s x).protocol.answered i id) := by
    simp [JulietProtocol.cancelResponse, hl, hreg, JulietProtocol.answered]
  rw [hc, Prod.mk.injEq, Except.ok.injEq] at he
  obtain ⟨rfl, rfl⟩ := he
  exact h.answers hi hin .cancelResp rfl

/-- Sending a message that spares those under way neither hits one of them nor closes what is left
open. -/
theorem Spares.sends_keeps {x : Bool} {before after : List FrameIter} {it : FrameIter}
    (hspares : s.Spares (.send x before it after)) :
    ((s x).sends before it after).halfway = (s x).halfway ∧
      ((s x).sends before it after).leftOpen = (s x).leftOpen := by
  have hapart : ∀ it' ∈ before ++ after ++ (s x).leftOpen, Party.cancels it it' = false := by
    intro it' hin
    rw [Bool.eq_false_iff]
    intro hc
    obtain ⟨hk, hs, hid⟩ := Party.of_cancels hc
    exact hspares hk it' hin hs hid
  have hnone : (before ++ after).any (Party.cancels it) = false := by
    rw [List.any_eq_false]
    intro it' hin
    simp [hapart it' (List.mem_append_left _ hin)]
  constructor
  · simp only [Party.sends, hnone, Bool.false_eq_true, if_false]
  · show (s x).leftOpen.filter (fun it' => !Party.cancels it it') = (s x).leftOpen
    rw [List.filter_eq_self]
    intro it' hin
    simp [hapart it' (List.mem_append_right _ hin)]

theorem Orderly.send (h : Orderly builder s) {x : Bool} {before after : List FrameIter}
    {it : FrameIter} (hq : (s x).sending = before ++ it :: after)
    (halone : it.bytesProcessed = 0 → (it.nextOwned (s x).protocol.maxFrameSize).2 ≠ none →
      ∀ it' ∈ before ++ after ++ (s x).leftOpen, it'.startedOn it.header.channel.get.toNat = false)
    (hspares : s.Spares (.send x before it after)) :
    Orderly builder (Function.update s x ((s x).sends before it after)) := by
  obtain ⟨ab, ba, hj⟩ := h.joined x
  have hsize : (s x).protocol.maxFrameSize = builder.maxFrameSize := hj.left.frameSize
  rw [hsize] at halone
  have hp : (s x).facing.sending.Perm (it :: (before ++ after ++ (s x).leftOpen)) := by
    rw [show (s x).facing.sending = (s x).sending ++ (s x).leftOpen from rfl, hq]
    exact List.perm_middle.append_right _
  have hp' : (before ++ (it.nextOwned builder.maxFrameSize).2.toList ++ after ++
      (s x).leftOpen).Perm
      ((it.nextOwned builder.maxFrameSize).2.toList ++ (before ++ after ++ (s x).leftOpen)) := by
    rw [← List.append_assoc, ← List.append_assoc]
    exact (List.perm_append_comm.append_right after).append_right _
  have hnext := hj.send hp hp' ⟨halone, hspares⟩
  rw [← hsize] at hnext
  obtain ⟨hsame, hopen⟩ := hspares.sends_keeps
  have hfacing : Joined builder ((s x).sends before it after).facing (s !x).facing
      (ab ++ [it]) ba := by
    rw [Party.facing, hopen]
    exact hnext
  exact h.update (hsame.trans (h.whole x)) (hopen ▸ h.begun x) hfacing

/-- What is abandoned has been begun, and its side stays as if it were still to be sent. -/
theorem Orderly.abandon (h : Orderly builder s) {x : Bool} {before after : List FrameIter}
    {it : FrameIter} (hq : (s x).sending = before ++ it :: after) (hpos : 0 < it.bytesProcessed) :
    Orderly builder (Function.update s x ((s x).abandons before it after)) := by
  obtain ⟨ab, ba, hj⟩ := h.joined x
  have hopen : ((s x).abandons before it after).leftOpen = (s x).leftOpen ++ [it] := by
    simp [Party.abandons, hpos, h.whole x]
  have hp : ((s x).abandons before it after).facing.sending.Perm (s x).facing.sending := by
    rw [Party.facing, Party.facing, hopen, hq]
    show (before ++ after ++ ((s x).leftOpen ++ [it])).Perm
        (before ++ it :: after ++ (s x).leftOpen)
    rw [← List.append_assoc]
    refine (List.perm_append_singleton _ _).trans ?_
    exact (List.perm_middle.symm).append_right _
  refine h.update (h.whole x) ?_ (hj.reorder hp)
  intro it' hin
  rw [hopen, List.mem_append, List.mem_singleton] at hin
  rcases hin with hin | rfl
  · exact h.begun x it' hin
  · exact hpos

/-- Every step that spares the messages under way keeps what is on its way in order. -/
theorem Orderly.step (h : Orderly builder s) (hs : ExchangeStep s act s') (hspares : s.Spares act) :
    Orderly builder s' := by
  cases hs with
  | createRequest x channel payload msg p hc =>
    obtain ⟨ab, ba, hj⟩ := h.joined x
    exact h.update (by simp [h.whole x]) (h.begun x)
      (hj.createRequest hc (created_perm (s x) msg.frames))
  | createResponse x channel id payload i r p hi hin hc => exact h.createResponse hi hin hc
  | cancelRequest x channel id msg p hc _ =>
    obtain ⟨ab, ba, hj⟩ := h.joined x
    exact h.update (h.whole x) (h.begun x) (hj.cancelRequest hc (created_perm (s x) msg.frames))
  | cancelRequestLate x channel id p hc =>
    obtain ⟨ab, ba, hj⟩ := h.joined x
    have hp : p = (s x).protocol := by
      rw [← JulietProtocol.cancelRequest_state (s x).protocol channel id, hc]
    subst hp
    exact h.update (h.whole x) (h.begun x) hj
  | cancelResponse x channel id i r p hi hin hc => exact h.cancelResponse hi hin hc
  | send x before it after hq halone => exact h.send hq halone hspares
  | abandon x before it after hq _ _ _ => exact h.abandon hq hspares
  | deliver x k reads n p buffer hr =>
    obtain ⟨ab, ba, hj⟩ := h.joined x
    rcases hj.receive k hr with ⟨err, he, _⟩ | ⟨n', p', buffer', taken, ba', he, _, hend, _⟩
    · simp at he
    · cases he
      have hxx : (!x) ≠ x := by cases x <;> simp
      constructor
      · intro z
        rcases eq_or_eq_not z x with rfl | rfl
        · simpa using h.whole z
        · simpa using h.whole (!x)
      · intro z
        rcases eq_or_eq_not z x with rfl | rfl
        · simpa using h.begun z
        · simpa using h.begun (!x)
      · intro z
        rcases eq_or_eq_not z x with rfl | rfl
        · exact ⟨ab, ba', by simpa [hxx, Party.facing, Side.took] using hend⟩
        · exact ⟨ba', ab, by simpa [hxx, Party.facing, Side.took] using hend.symm⟩

theorem orderly_of_reach (h : ExchangeReach builder Spares s) : Orderly builder s := by
  induction h with
  | start => exact orderly_new builder
  | step _ hs hspares ih => exact ih.step hs hspares

theorem emits_eq_nil {m : MaxFrameSize} {its : List FrameIter}
    (h : (its.map (·.emit m)).flatten = []) : its = [] := by
  cases its with
  | nil => rfl
  | cons it its =>
    rw [List.map_cons, List.flatten_cons, FrameIter.emit_eq_body] at h
    have hlen := congrArg List.length h
    simp only [List.length_append, Header.bytes_length, List.length_nil] at hlen
    omega

/-- As long as no cancellation hits a message of which a part has been sent and no request is
abandoned unsent, no request is outstanding when nothing is on its way and all that has been
reported is answered. -/
theorem quiescent_releases (h : ExchangeReach builder Spares s) (hq : Quiescent s) (x : Bool)
    (i : Fin N) :
    ((s x).chan i).outgoingRequests = ∅ := by
  have horderly := orderly_of_reach h
  obtain ⟨ab, ba, hj⟩ := horderly.joined x
  obtain ⟨hsend, hstream, hbuffer, hchans⟩ := hq x
  obtain ⟨hsend', hstream', hbuffer', hchans'⟩ := hq !x
  have hab : ab = [] := by
    have hbytes := hj.toward.bytes
    rw [show (s !x).facing.buffer = [] from hbuffer',
      show (s x).facing.stream = [] from hstream] at hbytes
    exact emits_eq_nil hbytes.symm
  have hba : ba = [] := by
    have hbytes := hj.back.bytes
    rw [show (s x).facing.buffer = [] from hbuffer,
      show (s !x).facing.stream = [] from hstream'] at hbytes
    exact emits_eq_nil hbytes.symm
  have hincoming : ((s !x).chan i).incomingRequests.val = 0 := by
    rw [show ((s !x).chan i).incomingRequests.val = _ from hj.right.tracked i, Side.chan]
    show ((s !x).reported i).val + ((s !x).chan i).currentMultiframeReceiver.request = 0
    rw [(hchans' i).1, (hchans' i).2]
    rfl
  have hbalanced : Balanced i ((s x).chan i) ((s !x).chan i)
      (ab ++ ((s x).sending ++ (s x).leftOpen))
      (ba ++ ((s !x).sending ++ (s !x).leftOpen)) := hj.toward.balanced i
  unfold Balanced at hbalanced
  rw [hab, hba, hsend, hsend', hincoming, (hchans i).2, List.nil_append,
    List.nil_append, List.nil_append, List.nil_append, requestIds_later (horderly.begun x),
    answerIds_later (horderly.begun !x)] at hbalanced
  exact Finset.val_eq_zero.mp hbalanced

theorem spares_single {x : Bool} (it : FrameIter) (hopen : (s x).leftOpen = []) :
    s.Spares (.send x [] it []) := by
  intro _ it' hin
  simp [hopen] at hin

/-- The only message of a side may be sent. -/
theorem send_single (s : Exchange N) (x : Bool) (it : FrameIter) (hq : (s x).sending = [it])
    (hopen : (s x).leftOpen = []) :
    ExchangeStep s (.send x [] it []) (Function.update s x ((s x).sends [] it [])) :=
  .send x [] it [] hq (by simp [hopen])

/-- A request of two frames is cancelled after its last frame and refused by the peer. -/
theorem quiescent_releases_refused :
    ∃ s : Exchange 1, ExchangeReach smallBuilder Spares s ∧ Quiescent s ∧
    ((s false).chan 0).prevRequestId = 1 ∧ ((s false).chan 0).outgoingRequests = ∅ := by
  have h0 : ExchangeReach smallBuilder Spares (fun _ => Party.new smallBuilder) := .start
  have h1 := h0.step (.createRequest false ⟨0⟩ (some [1, 2, 3, 4, 5, 6]) _ _ rfl) trivial
  have h2 := h1.step (send_single _ false _ rfl rfl) (spares_single _ rfl)
  have h3 := h2.step (send_single _ false _ rfl rfl) (spares_single _ rfl)
  have h4 := h3.step (.deliver true 15 _ _ _ _ rfl) trivial
  have h5 := h4.step (.cancelRequest false ⟨0⟩ ⟨1⟩ _ _ rfl (by decide)) trivial
  have h6 := h5.step (send_single _ false _ rfl rfl) (spares_single _ rfl)
  have h7 := h6.step (.deliver true 4 _ _ _ _ rfl) trivial
  have h8 := h7.step (.cancelResponse true ⟨0⟩ ⟨1⟩ 0 _ _ rfl (by decide) rfl) trivial
  have h9 := h8.step (send_single _ true _ rfl rfl) (spares_single _ rfl)
  have h10 := h9.step (.deliver false 4 _ _ _ _ rfl) trivial
  obtain ⟨s, hs, hq, hprev⟩ : ∃ s, ExchangeReach smallBuilder Spares s ∧ Quiescent s ∧
      ((s false).chan 0).prevRequestId = 1 := by
    refine ⟨_, h10, ?_, rfl⟩
    intro x
    cases x
    · exact ⟨rfl, rfl, rfl, by decide⟩
    · exact ⟨rfl, rfl, rfl, by decide⟩
  exact ⟨s, hs, hq, hprev, quiescent_releases hs hq false 0⟩

/-- A request is cancelled when one of its two frames has been sent. The peer drops it in silence,
so that no answer ever releases its id. -/
theorem cancelled_halfway_leaks : ∃ s : Exchange 1, ExchangeReach smallBuilder (fun _ _ => True) s ∧
    Quiescent s ∧ ((s false).chan 0).outgoingRequests ≠ ∅ := by
  have h0 : ExchangeReach smallBuilder (fun _ _ => True) (fun _ => Party.new smallBuilder) := .start
  have h1 := h0.step (.createRequest false ⟨0⟩ (some [1, 2, 3, 4, 5, 6]) _ _ rfl) trivial
  have h2 := h1.step (send_single _ false _ rfl rfl) trivial
  have h3 := h2.step (.deliver true 10 _ _ _ _ rfl) trivial
  have h4 := h3.step (.cancelRequest false ⟨0⟩ ⟨1⟩ _ _ rfl (by decide)) trivial
  have h5 := h4.step (.send false [_] _ [] rfl (by decide)) trivial
  have h6 := h5.step (.deliver true 4 _ _ _ _ rfl) trivial
  have h7 := h6.step (.abandon false [] _ [] rfl (by decide) (by decide) (by decide)) trivial
  refine ⟨_, h7, ?_, by decide⟩
  intro x
  cases x
  · exact ⟨rfl, rfl, rfl, by decide⟩
  · exact ⟨rfl, rfl, rfl, by decide⟩

/-- The first request is answered. The second one is cancelled and then abandoned before any frame
of it has been sent: the peer never learns of it, and no answer releases its id. -/
theorem cancelled_unsent_leaks : ∃ s : Exchange 1, ExchangeReach smallBuilder (fun _ _ => True) s ∧
    Quiescent s ∧ ((s false).chan 0).outgoingRequests ≠ ∅ := by
  have h0 : ExchangeReach smallBuilder (fun _ _ => True) (fun _ => Party.new smallBuilder) := .start
  have h1 := h0.step (.createRequest false ⟨0⟩ none _ _ rfl) trivial
  have h2 := h1.step (send_single _ false _ rfl rfl) trivial
  have h3 := h2.step (.deliver true 4 _ _ _ _ rfl) trivial
  have h4 := h3.step (.createResponse true ⟨0⟩ ⟨1⟩ none 0 _ _ rfl (by decide) rfl) trivial
  have h5 := h4.step (send_single _ true _ rfl rfl) trivial
  have h6 := h5.step (.deliver false 4 _ _ _ _ rfl) trivial
  have h7 := h6.step (.createRequest false ⟨0⟩ (some [1, 2, 3, 4, 5, 6]) _ _ rfl) trivial
  have h8 := h7.step (.cancelRequest false ⟨0⟩ ⟨2⟩ _ _ rfl (by decide)) trivial
  have h9 := h8.step (.send false [_] _ [] rfl (by decide)) trivial
  have h10 := h9.step (.deliver true 4 _ _ _ _ rfl) trivial
  have h11 := h10.step (.abandon false [] _ [] rfl (by decide) (by decide) (by decide)) trivial
  refine ⟨_, h11, ?_, by decide⟩
  intro x
  cases x
  · exact ⟨rfl, rfl, rfl, by decide⟩
  · exact ⟨rfl, rfl, rfl, by decide⟩

end Exchange

end Juliet
