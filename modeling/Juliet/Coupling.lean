import Juliet.LaneHeaders
import Juliet.MultiFrameSends

namespace Juliet

open Rust

/-- The header of the message that a read comes from. -/
def CompletedRead.header : CompletedRead → Header
  | .errorReceived header _ => header
  | .newRequest channel id payload =>
    Header.new (if payload.isSome then .requestPl else .request) channel id
  | .receivedResponse channel id payload =>
    Header.new (if payload.isSome then .responsePl else .response) channel id
  | .requestCancellation channel id => Header.new .cancelReq channel id
  | .responseCancellation channel id => Header.new .cancelResp channel id

/-- The read that the peer is to return for an item, under the id that its request has got. -/
def Sent.announced (sent : Sent) : Option CompletedRead :=
  match sent.item with
  | .request channel _ payload => some (.newRequest channel sent.msg.header.id payload)
  | .requestCancellation _ => some (.requestCancellation sent.msg.header.channel sent.msg.header.id)
  | .response channel id payload => some (.receivedResponse channel id payload)
  | .responseCancellation channel id => some (.responseCancellation channel id)
  | .error _ _ _ => none

/-- A message is meant to be read as what its item asks for. -/
theorem Sent.Made.announced {N : Nat} {sent : Sent} (h : sent.Made N) :
    sent.msg.asRead = sent.announced ∧ ∀ read ∈ sent.announced, read.header = sent.msg.header := by
  cases h with
  | request channel ioId payload id _ =>
    cases payload <;> simp [Sent.announced, OutgoingMessage.asRead, Channel.requestMessage,
      OutgoingMessage.new, Kind.readOf, CompletedRead.header, Except.toOption]
  | requestCancellation ioId channel id _ =>
    simp [Sent.announced, OutgoingMessage.asRead, createUncheckedRequestCancellation,
      OutgoingMessage.new, Kind.readOf, CompletedRead.header, Except.toOption]
  | response channel id payload _ =>
    cases payload <;> simp [Sent.announced, OutgoingMessage.asRead, createUncheckedResponse,
      OutgoingMessage.new, Kind.readOf, CompletedRead.header, Except.toOption]
  | responseCancellation channel id _ =>
    simp [Sent.announced, OutgoingMessage.asRead, createUncheckedResponseCancellation,
      OutgoingMessage.new, Kind.readOf, CompletedRead.header, Except.toOption]

/-- The reads, in order, that come from messages with the header. -/
def readsUnder (header : Header) (reads : List CompletedRead) : List CompletedRead :=
  reads.filter fun read => read.header = header

theorem readsUnder_append (header : Header) (reads more : List CompletedRead) :
    readsUnder header (reads ++ more) = readsUnder header reads ++ readsUnder header more :=
  List.filter_append _ _

/-- The request on a channel that an item answers. -/
def QueuedItem.answerOn (i : Nat) : QueuedItem → Option Id
  | .response channel id _ => if channel.get.toNat = i then some id else none
  | .responseCancellation channel id => if channel.get.toNat = i then some id else none
  | _ => none

/-- The requests on a channel that items answer. -/
def answersIn (i : Nat) (items : List QueuedItem) : Multiset Id :=
  (items.filterMap (QueuedItem.answerOn i) : List Id)

/-- Requests and answers on channels that exist, with payloads within the limits. -/
def QueuedItem.Within {N : Nat} (builder : ProtocolBuilder N) : QueuedItem → Prop
  | .request channel _ payload => ∃ i : Fin N, channel.get.toNat = i ∧
      JulietProtocol.PayloadWithin payload (builder.channelConfig i).maxRequestPayloadSize
  | .response channel _ payload => ∃ i : Fin N, channel.get.toNat = i ∧
      JulietProtocol.PayloadWithin payload (builder.channelConfig i).maxResponsePayloadSize
  | .responseCancellation channel _ => ∃ i : Fin N, channel.get.toNat = i
  | _ => False

namespace IoCore

variable {N : Nat} {self c : IoCore N} {i : Fin N}

/-- What is left to write of the frame at hand. -/
def pendingBytes (self : IoCore N) : Bytes :=
  (self.currentFrame.map fun current => current.frame.bytes).getD []

/-- The messages of the ready queue. -/
def sending (self : IoCore N) : List FrameIter := self.readyQueue.map ReadyEntry.frames

/-- A core and what it has written and its peer has not read, as one end of a connection. -/
def side (self : IoCore N) (pipe : Bytes) (reported : Fin N → Finset Id) : Side N :=
  { protocol := self.juliet
    buffer := self.buffer
    stream := pipe ++ self.pendingBytes
    sending := self.sending
    reported := reported }

theorem created_side (i : Fin N) (item : QueuedItem) (msg : OutgoingMessage)
    (juliet : JulietProtocol N) (requestMap : BiMap IoId (ChannelId × Id)) (pipe : Bytes)
    (reported reported' : Fin N → Finset Id) :
    (self.created i item msg juliet requestMap).side pipe reported' =
      { self.side pipe reported with
        protocol := juliet
        sending := self.sending ++ [msg.frames]
        reported := reported' } := by
  have hbuffer : (self.created i item msg juliet requestMap).buffer = self.buffer := by
    unfold created
    split <;> rfl
  simp [side, hbuffer, sending, pendingBytes]

/-- How the messages of a core hang together, given the frames that it has sent and its peer has not
processed. -/
structure Tidy (m : MaxFrameSize) (ab : List FrameIter) (core : IoCore N) : Prop where
  sound : core.Sound
  noError : core.pendingError = none
  exclusive : core.Exclusive
  frameSize : core.juliet.maxFrameSize = m
  begun : ∀ entry ∈ core.readyQueue, 0 < entry.frames.bytesProcessed →
    entry.frames.msg.isMultiFrame m = true
  current : ∀ current ∈ core.currentFrame, current.frame.bytes ≠ [] ∧
    ∃ it, ab.getLast? = some it ∧ it.header = current.frame.header
  plain : ∀ it ∈ ab ++ core.sending, it.header.kind ≠ .ok .cancelReq

/-- For every header, the reads of the peer and then what it has still to read under the header are
what has been sent under it. -/
def Conveyed (m : MaxFrameSize) (reads : List CompletedRead) (ab : List FrameIter)
    (core : IoCore N) : Prop :=
  ∀ header, readsUnder header (reads ++ ab.filterMap (FrameIter.completes m) ++
    core.sending.filterMap fun it => it.msg.asRead) =
      readsUnder header (core.history.filterMap fun sent => sent.msg.asRead)

/-- What holds of a core that talks to a peer which has returned the reads. -/
structure Coupled (builder : ProtocolBuilder N) (peer : Side N) (reads : List CompletedRead)
    (ab ba : List FrameIter) (pipe : Bytes) (reported : Fin N → Finset Id) (core : IoCore N) :
    Prop where
  joined : Joined builder (core.side pipe reported) peer ab ba
  tidy : core.Tidy builder.maxFrameSize ab
  conveyed : core.Conveyed builder.maxFrameSize reads ab

theorem mem_flightHeaders {m : MaxFrameSize} {ab : List FrameIter} {header : Header}
    (h : self.Tidy m ab) (hin : header ∈ self.flightHeaders) :
    ∃ it ∈ ab ++ self.sending, it.header = header := by
  rcases List.mem_append.mp hin with hin | hin
  · obtain ⟨current, hc, rfl⟩ := Option.map_eq_some_iff.mp (Option.mem_toList.mp hin)
    obtain ⟨_, it, hit, hhd⟩ := h.current current hc
    exact ⟨it, List.mem_append_left _ (List.mem_of_getLast? hit), hhd⟩
  · obtain ⟨entry, he, rfl⟩ := List.mem_map.mp hin
    exact ⟨entry.frames, List.mem_append_right _ (List.mem_map_of_mem he), rfl⟩

namespace Coupled

variable {builder : ProtocolBuilder N} {peer : Side N} {reads : List CompletedRead}
  {ab ba : List FrameIter} {pipe : Bytes} {reported reported' : Fin N → Finset Id}

/-- Creating a message under a header that is not on its way. -/
theorem created (h : Coupled builder peer reads ab ba pipe reported self) {item : QueuedItem}
    {msg : OutgoingMessage} {juliet : JulietProtocol N} {requestMap : BiMap IoId (ChannelId × Id)}
    (hj : Joined builder
      { self.side pipe reported with
        protocol := juliet, sending := self.sending ++ [msg.frames], reported := reported' }
      peer ab ba)
    (hmade : Sent.Made N ⟨item, msg⟩) (hi : msg.header.channel.get.toNat = i)
    (hm : juliet.maxFrameSize = self.juliet.maxFrameSize)
    (hfree : msg.isMultiFrame self.juliet.maxFrameSize = true → self.activeMultiFrame i = none)
    (hnew : ∀ it ∈ ab ++ self.sending, it.header ≠ msg.header)
      (hk : msg.header.kind ≠ .ok .cancelReq) :
    Coupled builder peer reads ab ba pipe reported'
      (self.created i item msg juliet requestMap) := by
  have ht := h.tidy
  have hsending : (self.created i item msg juliet requestMap).sending =
      self.sending ++ [msg.frames] := by
    simp [sending]
  refine ⟨by rwa [created_side i item msg juliet requestMap pipe reported], ⟨?_, ?_, ?_,
    ?_, ?_, ?_, ?_⟩, ?_⟩
  · exact ht.sound.created i requestMap hmade hj.left.valid
  · rw [created_pendingError, ht.noError]
  · refine ht.exclusive.created ht.sound.titled ?_ hm hi hfree
    intro hin
    obtain ⟨it, hit, hhd⟩ := mem_flightHeaders ht hin
    exact hnew it hit hhd
  · rw [created_juliet, hm, ht.frameSize]
  · intro entry he hpos
    rw [created_readyQueue, List.mem_append, List.mem_singleton] at he
    rcases he with he | rfl
    · exact ht.begun entry he hpos
    · exact absurd hpos (by simp [OutgoingMessage.frames])
  · rw [created_currentFrame]
    exact ht.current
  · intro it hit
    rw [hsending, ← List.append_assoc, List.mem_append, List.mem_singleton] at hit
    rcases hit with hit | rfl
    · exact ht.plain it hit
    · exact hk
  · intro header
    have hold := h.conveyed header
    rw [hsending, created_history, List.filterMap_append, List.filterMap_append,
      ← List.append_assoc, readsUnder_append, hold, readsUnder_append _ (self.history.filterMap _)]
    rfl

/-- No message on its way has the header of a new request. -/
theorem request_new (h : Coupled builder peer reads ab ba pipe reported self) {channel : ChannelId}
    {id : Id} {payload : Option Bytes} (hi : channel.get.toNat = i)
    (hfree : id ∉ (self.juliet.channels i).outgoingRequests) :
    ∀ it ∈ ab ++ self.sending, it.header ≠ (Channel.requestMessage channel id payload).header := by
  intro it hit hhd
  have hch : it.header.channel.get.toNat = i := by rw [hhd, Channel.requestMessage_channel, hi]
  have hreq : it.header.isRequest = true := by rw [hhd, Channel.requestMessage_isRequest]
  have hout := h.joined.outstanding hit hch hreq
  rw [hhd, Channel.requestMessage_id] at hout
  exact hfree hout

/-- No message on its way has the header of an answer to a request that is registered. -/
theorem answer_new (h : Coupled builder peer reads ab ba pipe reported self) {channel : ChannelId}
    {id : Id} {kind : Kind} {header : Header} (hi : channel.get.toNat = i)
    (hhd : header = Header.new kind channel id) (hk : kind.isAnswer = true)
    (hin : id ∈ (self.juliet.channels i).incomingRequests) :
    ∀ it ∈ ab ++ self.sending, it.header ≠ header := by
  intro it hit he
  rw [hhd] at he
  have hnot := h.joined.answering hit (by rw [he, Header.new_channel, hi]) (by rw [he,
    Header.new_isAnswer, hk])
  rw [he, Header.new_id] at hnot
  exact hnot hin

/-- Creating the answer to a reported request. -/
theorem answers (h : Coupled builder peer reads ab ba pipe reported self) {item : QueuedItem}
    {msg : OutgoingMessage} {channel : ChannelId} {id : Id} {kind : Kind}
    (hi : channel.get.toNat = i) (hs : Sendable (builder.channelConfig i) channel id kind msg)
    (hk : kind.isAnswer = true) (hin : id ∈ reported i)
    (hincoming : id ∈ (self.juliet.channels i).incomingRequests) (hmade : Sent.Made N ⟨item, msg⟩)
    (hfree : msg.isMultiFrame self.juliet.maxFrameSize = true → self.activeMultiFrame i = none)
    (requestMap : BiMap IoId (ChannelId × Id)) :
    Coupled builder peer reads ab ba pipe (Function.update reported i ((reported i).erase id))
      (self.created i item msg (self.juliet.answered i id) requestMap) := by
  have hj := h.joined.answer hi hs hk hin (List.perm_append_singleton msg.frames self.sending) rfl
  refine h.created hj hmade (by rw [hs.header, Header.new_channel, hi]) rfl hfree
    (h.answer_new hi hs.header hk hincoming) ?_
  rw [hs.header, Header.new_kind]
  rintro hc
  cases Except.ok.inj hc
  simp [Kind.isAnswer] at hk

theorem erase_le {i : Fin N} {id : Id} {item : QueuedItem} (ha : item.answerOn i = some id)
    (j : Fin N) :
    (reported j).val ≤ answersIn j [item] +
      (Function.update reported i ((reported i).erase id) j).val := by
  by_cases hj : j = i
  · subst hj
    rw [Function.update_self, Finset.erase_val]
    simp only [answersIn, List.filterMap_cons, ha, List.filterMap_nil, Multiset.coe_singleton,
      Multiset.singleton_add]
    exact Multiset.le_cons_erase _ _
  · rw [Function.update_of_ne hj]
    exact Multiset.le_add_left _ _

/-- Sending an item to the ready queue takes it off the reported requests if it answers one. -/
theorem sendStep {item : QueuedItem} {r : Except LocalProtocolViolation Unit}
    (h : Coupled builder peer reads ab ba pipe reported self) (hs : SendStep self item r c)
    (hw : itemShouldWait item self.juliet self.activeMultiFrame = .ok (.ok none))
    (hitem : item.Within builder) (hin : ∀ i : Fin N, ∀ id ∈ item.answerOn i, id ∈ reported i) :
    ∃ reported', Coupled builder peer reads ab ba pipe reported' c ∧
      ∀ j : Fin N, (reported j).val ≤ answersIn j [item] + (reported' j).val := by
  have hsame : ∃ reported', Coupled builder peer reads ab ba pipe reported' self ∧
      ∀ j : Fin N, (reported j).val ≤ answersIn j [item] + (reported' j).val :=
    ⟨reported, h, fun j => Multiset.le_add_left _ _⟩
  have hconfig : ∀ j, (self.juliet.channels j).config = builder.channelConfig j :=
    h.joined.left.config
  cases hs with
  | request channel ioId payload i id hi ha hwithin hgen =>
    have hj := h.joined.request hi ha hwithin hgen
      (List.perm_append_singleton (Channel.requestMessage channel id payload).frames self.sending)
    refine ⟨reported,
      h.created hj (.request channel ioId payload id (hi ▸ i.isLt)) (by simpa using hi) rfl
      (request_free hi ha hw) (h.request_new hi hgen.free) ?_, fun j => Multiset.le_add_left _ _⟩
    cases payload <;> simp [Channel.requestMessage, OutgoingMessage.new]
  | cancel ioId channel i id _ _ _ => exact hitem.elim
  | response channel id payload i hi hincoming hwithin =>
    have ha : (QueuedItem.response channel id payload).answerOn i = some id := by
      simp [QueuedItem.answerOn, hi]
    rw [hconfig i] at hwithin
    refine ⟨_, ?_, erase_le ha⟩
    have hmade : Sent.Made N ⟨.response channel id payload,
        createUncheckedResponse channel id payload⟩ :=
      .response channel id payload (hi ▸ i.isLt)
    cases payload with
    | none => exact h.answers hi .response rfl (hin i id ha) hincoming hmade (response_free hi hw) _
    | some pl =>
      exact h.answers hi (.responsePl pl (hwithin pl rfl)) rfl (hin i id ha) hincoming hmade
        (response_free hi hw) _
  | responseCancellation channel id i hi hincoming =>
    have ha : (QueuedItem.responseCancellation channel id).answerOn i = some id := by
      simp [QueuedItem.answerOn, hi]
    refine ⟨_, h.answers hi .cancelResp rfl (hin i id ha) hincoming
      (.responseCancellation channel id (hi ▸ i.isLt)) ?_ _, erase_le ha⟩
    simp [OutgoingMessage.isMultiFrame]
  | late _ _ _ => exact hsame
  | refused _ _ => exact hsame
  | oversized channel id payload i _ hi _ hover =>
    obtain ⟨j, hj, hwithin⟩ := hitem
    cases Fin.ext (hi.symm.trans hj)
    rw [hconfig] at hover
    exact absurd hwithin hover
  | error channel id payload frame _ _ => exact hitem.elim

/-- Nothing changes that the frames depend on. -/
theorem idle (h : Coupled builder peer reads ab ba pipe reported self) (hsound : c.Sound)
    (hj : c.juliet = self.juliet) (hb : c.buffer = self.buffer)
    (hq : c.readyQueue = self.readyQueue) (hc : c.currentFrame = self.currentFrame)
    (ha : c.activeMultiFrame = self.activeMultiFrame) (hh : c.history = self.history)
    (hp : c.pendingError = self.pendingError) :
    Coupled builder peer reads ab ba pipe reported c := by
  have ht := h.tidy
  have hsending : c.sending = self.sending := by rw [sending, sending, hq]
  have hside : c.side pipe reported = self.side pipe reported := by
    rw [side, side, hj, hb, hsending, pendingBytes, pendingBytes, hc]
  refine ⟨hside ▸ h.joined, ⟨hsound, hp.trans ht.noError, ?_, by rw [hj, ht.frameSize], ?_, ?_, ?_⟩,
    ?_⟩
  · exact ht.exclusive.idle hq hc ha hh (by rw [hj])
  · rw [hq]
    exact ht.begun
  · rw [hc]
    exact ht.current
  · rw [hsending]
    exact ht.plain
  · intro header
    rw [hsending, hh]
    exact h.conveyed header

end Coupled

end IoCore

end Juliet
