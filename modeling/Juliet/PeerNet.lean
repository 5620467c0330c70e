import Juliet.Balance
import Juliet.ChunkedInput
import Juliet.ToBytes

namespace Juliet

open Rust

/-- One end of a connection: the protocol with its read buffer, the bytes it has sent that have not
been delivered, and the record of what happened on this side. -/
structure Peer (N : Nat) where
  protocol : JulietProtocol N
  buffer : Bytes
  stream : Bytes
  sent : List OutgoingMessage
  cancelled : Finset (Nat × Id)
  failed : Bool

def Peer.new {N : Nat} (builder : ProtocolBuilder N) : Peer N :=
  { protocol := builder.build
    buffer := []
    stream := []
    sent := []
    cancelled := ∅
    failed := false }

/-- Appends a message to the outgoing stream as a whole. -/
def Peer.post {N : Nat} (self : Peer N) (protocol : JulietProtocol N) :
    Option OutgoingMessage → Peer N
  | some msg =>
    { self with
      protocol := protocol
      stream := self.stream ++ msg.toBytes self.protocol.maxFrameSize
      sent := self.sent ++ [msg] }
  | none => { self with protocol := protocol }

/-- The state of a side after process_incoming has been called until it stopped. -/
def Peer.stop {N : Nat} (self : Peer N) : Stopped N → Peer N
  | .waiting _ protocol buffer => { self with protocol := protocol, buffer := buffer }
  | .fatal _ => { self with failed := true }

/-- Both ends; each reads what the other one sends. -/
abbrev Net (N : Nat) := Bool → Peer N

/-- The steps of the two sides. A request that is outstanding is cancelled at most once; nothing is
asked of the ids that are answered. -/
inductive NetStep {N : Nat} (s : Net N) : Net N → Prop
  | createRequest (x : Bool) (channel : ChannelId) (payload : Option Bytes) (msg : OutgoingMessage)
      (p : JulietProtocol N) : (s x).protocol.createRequest channel payload = .ok (.ok msg, p) →
      NetStep s (Function.update s x
        { (s x).post p (some msg) with cancelled := (s x).cancelled.erase (channel.get.toNat,
          msg.header.id) })
  | createResponse (x : Bool) (channel : ChannelId) (id : Id) (payload : Option Bytes)
      (r : Option OutgoingMessage)
      (p : JulietProtocol N) : (s x).protocol.createResponse channel id payload = (.ok r, p) →
      NetStep s (Function.update s x ((s x).post p r))
  | cancelRequest (x : Bool) (channel : ChannelId) (id : Id) (msg : OutgoingMessage)
      (p : JulietProtocol N) :
      (s x).protocol.cancelRequest channel id = (.ok (some msg), p) →
      (channel.get.toNat, id) ∉ (s x).cancelled →
      NetStep s (Function.update s x
        { (s x).post p (some msg) with
          cancelled := insert (channel.get.toNat, id) (s x).cancelled })
  | cancelRequestLate (x : Bool) (channel : ChannelId) (id : Id) (p : JulietProtocol N) :
      (s x).protocol.cancelRequest channel id = (.ok none, p) →
        NetStep s (Function.update s x ((s x).post p none))
  | cancelResponse (x : Bool) (channel : ChannelId) (id : Id) (r : Option OutgoingMessage)
      (p : JulietProtocol N) :
      (s x).protocol.cancelResponse channel id = (.ok r, p) →
        NetStep s (Function.update s x ((s x).post p r))
  | deliver (x : Bool) (k : Nat) (reads : List CompletedRead) (stopped : Stopped N) :
      (s x).protocol.receive ((s x).buffer ++ (s !x).stream.take k) = .ok (reads, stopped) →
      NetStep s (Function.update (Function.update s (!x)
        { s !x with stream := (s !x).stream.drop k }) x ((s x).stop stopped))

/-- The states of two sides built from the same builder. -/
inductive NetReach {N : Nat} (builder : ProtocolBuilder N) : Net N → Prop
  | start : NetReach builder fun _ => Peer.new builder
  | step {s s' : Net N} : NetReach builder s → NetStep s s' → NetReach builder s'

/-- The messages of a stream whose first frame does not lie within its first `n` bytes. -/
def unstarted (m : MaxFrameSize) : Nat → List OutgoingMessage → List OutgoingMessage
  | _, [] => []
  | n, msg :: msgs =>
    if n < (msg.frames.emit m).length then msg :: msgs
    else unstarted m (n - (msg.toBytes m).length) msgs

/-- The messages of a stream that do not lie within its first `n` bytes. -/
def unfinished (m : MaxFrameSize) : Nat → List OutgoingMessage → List OutgoingMessage
  | _, [] => []
  | n, msg :: msgs =>
    if n < (msg.toBytes m).length then msg :: msgs
    else unfinished m (n - (msg.toBytes m).length) msgs

/-- How many bytes of the stream of `x` its peer has taken off its buffer. -/
def Net.processed {N : Nat} (s : Net N) (m : MaxFrameSize) (x : Bool) : Nat :=
  ((s x).sent.map (·.toBytes m)).flatten.length - (s x).stream.length - (s !x).buffer.length

/-- The requests among messages that are sent on a channel. -/
def requestsOn (i : Nat) (msgs : List OutgoingMessage) : Multiset Id :=
  ((msgs.filter fun msg => msg.header.channel.get.toNat == i && msg.header.isRequest).map
    (·.header.id) : List Id)

/-- The answers among messages that are sent on a channel. -/
def answersOn (i : Nat) (msgs : List OutgoingMessage) : Multiset Id :=
  ((msgs.filter fun msg => msg.header.channel.get.toNat == i && msg.header.isAnswer).map
    (·.header.id) : List Id)

/-- What the cancellation allowance of a channel, now `v`, will be once the messages are processed;
`none` if a cancellation finds nothing left. -/
def spend (limit i : Nat) : Nat → List OutgoingMessage → Option Nat
  | v, [] => some v
  | v, msg :: msgs =>
    if msg.header.channel.get.toNat = i then
      if msg.header.isRequest then spend limit i (min (v + 1) limit) msgs
      else if msg.header.kind = .ok .cancelReq then if v = 0 then none
        else spend limit i (v - 1) msgs
      else spend limit i v msgs
    else spend limit i v msgs

theorem spend_append (limit i v : Nat) (msgs more : List OutgoingMessage) :
    spend limit i v (msgs ++ more) = (spend limit i v msgs).bind fun v => spend limit i v more := by
  induction msgs generalizing v with
  | nil => rfl
  | cons msg msgs ih =>
    simp only [List.cons_append, spend]
    split_ifs <;> first | exact ih _ | rfl

/-- The frames that are on their way: the rest of a message of which the peer has some frames, and
whole messages. -/
def inFlight (m : MaxFrameSize) (begun : Option FrameIter) (msgs : List OutgoingMessage) :
    List FrameIter :=
  (begun.map (·.remaining m)).getD [] ++ msgs.flatMap fun msg => msg.frames.remaining m

theorem inFlight_some {m : MaxFrameSize} {it : FrameIter} (msgs : List OutgoingMessage) :
    inFlight m (some it) msgs = it :: inFlight m (it.nextOwned m).2 msgs := by
  cases h : (it.nextOwned m).2 with
  | none => simp [inFlight, FrameIter.remaining_of_none h]
  | some it' => simp [inFlight, FrameIter.remaining_of_some h]

theorem inFlight_none {m : MaxFrameSize} {msg : OutgoingMessage} (msgs : List OutgoingMessage) :
    inFlight m none (msg :: msgs) = msg.frames :: inFlight m (msg.frames.nextOwned m).2 msgs := by
  rw [← inFlight_some]
  simp [inFlight]

theorem inFlight_snoc (m : MaxFrameSize) (begun : Option FrameIter) (msgs : List OutgoingMessage)
    (msg : OutgoingMessage) :
    inFlight m begun (msgs ++ [msg]) = inFlight m begun msgs ++ msg.frames.remaining m := by
  simp [inFlight]

theorem FrameIter.remaining_not_start {it : FrameIter} (m : MaxFrameSize)
    (h : 0 < it.bytesProcessed) :
    ∀ it' ∈ it.remaining m, 0 < it'.bytesProcessed := by
  induction hn : it.msg.payloadLen - it.bytesProcessed using Nat.strongRecOn generalizing it with
  | ind n ih =>
    cases hx : (it.nextOwned m).2 with
    | none => simpa [FrameIter.remaining_of_none hx] using h
    | some next =>
      obtain ⟨hmsg, _, hlt, hle⟩ := FrameIter.nextOwned_some hx
      rw [FrameIter.remaining_of_some hx]
      intro it' hin
      rcases List.mem_cons.mp hin with rfl | hin
      · exact h
      · rw [← hmsg] at hn
        exact ih _ (by omega) (by omega) rfl it' hin

theorem requestIds_later {i : Nat} {its : List FrameIter} (h : ∀ it ∈ its, 0 < it.bytesProcessed) :
    requestIds i its = 0 := by
  have hf : its.filter (fun it => it.startsOn i && it.header.isRequest) = [] := by
    rw [List.filter_eq_nil_iff]
    intro it hit
    simp [FrameIter.startsOn, Nat.pos_iff_ne_zero.mp (h it hit)]
  simp [requestIds, hf]

theorem answerIds_later {i : Nat} {its : List FrameIter} (h : ∀ it ∈ its, 0 < it.bytesProcessed) :
    answerIds i its = 0 := by
  have hf : its.filter (fun it => it.startsOn i && it.header.isAnswer) = [] := by
    rw [List.filter_eq_nil_iff]
    intro it hit
    simp [FrameIter.startsOn, Nat.pos_iff_ne_zero.mp (h it hit)]
  simp [answerIds, hf]

/-- The frames of a message behind its first one. -/
theorem OutgoingMessage.remaining_cons (msg : OutgoingMessage) (m : MaxFrameSize) :
    ∃ its, msg.frames.remaining m = msg.frames :: its ∧ ∀ it ∈ its, 0 < it.bytesProcessed := by
  cases h : (msg.frames.nextOwned m).2 with
  | none => exact ⟨[], FrameIter.remaining_of_none h, by simp⟩
  | some it =>
    obtain ⟨_, _, hlt, _⟩ := FrameIter.nextOwned_some h
    exact ⟨it.remaining m, FrameIter.remaining_of_some h,
      FrameIter.remaining_not_start m (by omega)⟩

theorem requestIds_remaining (i : Nat) (msg : OutgoingMessage) (m : MaxFrameSize) :
    requestIds i (msg.frames.remaining m) =
      if msg.header.channel.get.toNat = i ∧ msg.header.isRequest = true then {msg.header.id}
      else 0 := by
  obtain ⟨its, hits, hlater⟩ := msg.remaining_cons m
  rw [hits, requestIds_cons, requestIds_later hlater]
  simp [FrameIter.startsOn, FrameIter.header, OutgoingMessage.frames]

theorem answerIds_remaining (i : Nat) (msg : OutgoingMessage) (m : MaxFrameSize) :
    answerIds i (msg.frames.remaining m) =
      if msg.header.channel.get.toNat = i ∧ msg.header.isAnswer = true then {msg.header.id}
      else 0 := by
  obtain ⟨its, hits, hlater⟩ := msg.remaining_cons m
  rw [hits, answerIds_cons, answerIds_later hlater]
  simp [FrameIter.startsOn, FrameIter.header, OutgoingMessage.frames]

end Juliet
