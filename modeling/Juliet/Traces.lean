import Juliet.ProtocolRuns

namespace Juliet

open Rust

/-- What a run of a protocol leaves behind: the requests and the answers that it has created, and
the frames that it has looked at, each with the transfer that was open on its channel. -/
inductive Entry
  | requested (channel : ChannelId) (id : Id)
  | answered (channel : ChannelId) (id : Id)
  | frame (header : Option Header) (transfer : Option Header) (outcome : Option ReadOutcome)

def Entry.read : Entry → Option CompletedRead
  | .frame _ _ (some (.success read)) => some read
  | _ => none

namespace JulietProtocol

variable {N : Nat}

/-- The header of the transfer that is open on the channel of a frame. -/
def openTransfer (self : JulietProtocol N) (header : Header) : Option Header :=
  if h : header.channel.get.toNat < N then
    (self.channels ⟨header.channel.get.toNat, h⟩).currentMultiframeReceiver.inProgressHeader
  else none

def frameEntry (self : JulietProtocol N) (buffer : Bytes) (outcome : Option ReadOutcome) : Entry :=
  .frame (frontHeader buffer) ((frontHeader buffer).bind self.openTransfer) outcome

theorem frameEntry_of {self : JulietProtocol N} {buffer : Bytes} {header : Header} {i : Fin N}
    (hf : frontHeader buffer = some header) (hi : header.channel.get.toNat = i)
    (outcome : Option ReadOutcome) :
    self.frameEntry buffer outcome =
      .frame (some header) (self.channels i).currentMultiframeReceiver.inProgressHeader
        outcome := by
  have hlt : header.channel.get.toNat < N := hi ▸ i.isLt
  have he : (⟨header.channel.get.toNat, hlt⟩ : Fin N) = i := Fin.ext hi
  simp only [frameEntry, hf, Option.bind_some, openTransfer, hlt, dif_pos, he]

def requestEntries (channel : ChannelId) :
    Except LocalProtocolViolation OutgoingMessage → List Entry
  | .ok msg => [.requested channel msg.header.id]
  | .error _ => []

def answerEntries (channel : ChannelId) (id : Id) :
    Except LocalProtocolViolation (Option OutgoingMessage) → List Entry
  | .ok (some _) => [.answered channel id]
  | _ => []

/-- The runs of a protocol, step by step. During a call of `process_incoming` the last component is
what is left of its buffer. -/
inductive Traced (builder : ProtocolBuilder N) : List Entry → JulietProtocol N → Option Bytes → Prop
  | build : Traced builder [] builder.build none
  | createRequest {es : List Entry} {p p' : JulietProtocol N} {channel : ChannelId}
      {payload : Option Bytes}
      {r : Except LocalProtocolViolation OutgoingMessage} : Traced builder es p none →
      p.createRequest channel payload = .ok (r, p') →
        Traced builder (es ++ requestEntries channel r) p' none
  | createResponse {es : List Entry} {p : JulietProtocol N} (channel : ChannelId) (id : Id)
      (payload : Option Bytes) :
      Traced builder es p none →
      Traced builder (es ++ answerEntries channel id (p.createResponse channel id payload).1)
        (p.createResponse channel id payload).2 none
  | cancelRequest {es : List Entry} {p : JulietProtocol N} (channel : ChannelId) (id : Id) :
      Traced builder es p none → Traced builder es (p.cancelRequest channel id).2 none
  | cancelResponse {es : List Entry} {p : JulietProtocol N} (channel : ChannelId) (id : Id) :
      Traced builder es p none →
      Traced builder (es ++ answerEntries channel id (p.cancelResponse channel id).1)
        (p.cancelResponse channel id).2 none
  | call {es : List Entry} {p : JulietProtocol N} (buffer : Bytes) : Traced builder es p none →
      Traced builder es p (some buffer)
  | goOn {es : List Entry} {p s : JulietProtocol N} {buffer b : Bytes} : Traced builder es p
      (some buffer) →
      p.processFrame buffer = .ok (none, s, b) →
        Traced builder (es ++ [p.frameEntry buffer none]) s (some b)
  | stop {es : List Entry} {p s : JulietProtocol N} {buffer b : Bytes} {o : ReadOutcome} :
      Traced builder es p (some buffer) → p.processFrame buffer = .ok (some o, s, b) →
      Traced builder (es ++ [p.frameEntry buffer (some o)]) s none

namespace Traced

variable {builder : ProtocolBuilder N} {es : List Entry} {p s : JulietProtocol N}
  {calling : Option Bytes}

theorem valid (h : Traced builder es p calling) : p.Valid := by
  induction h with
  | build => exact build_valid builder
  | createRequest _ hc ih => exact ih.createRequest hc
  | createResponse channel id payload _ ih => exact ih.createResponse channel id payload
  | cancelRequest channel id _ ih =>
    rw [cancelRequest_state]
    exact ih
  | cancelResponse channel id _ ih => exact ih.cancelResponse channel id
  | call _ _ ih => exact ih
  | goOn _ hp ih => exact processFrame_keeps ih hp
  | stop _ hp ih => exact processFrame_keeps ih hp

/-- An invariant of creating requests, of creating or losing answers and of looking at frames holds
throughout every run. -/
theorem invariant {P : List Entry → JulietProtocol N → Prop} (hbuild : P [] builder.build)
    (hrequest : ∀ {es p} {channel : ChannelId} {i : Fin N} {id}, P es p → p.Valid →
      channel.get.toNat = i →
      (p.channels i).Generates id → P (es ++ [.requested channel id])
    (p.setChannel i ((p.channels i).withRequest id)))
    (hanswer : ∀ {es p} {channel : ChannelId} {i : Fin N} {id}, P es p → channel.get.toNat = i →
      id ∈ (p.channels i).incomingRequests → P (es ++ [.answered channel id]) (p.answered i id))
    (hlost : ∀ {es p} (i : Fin N) id, P es p → P es (p.answered i id))
    (hframe : ∀ {es p s buffer b o}, P es p → p.Valid → FrameStep p buffer o s b →
      P (es ++ [p.frameEntry buffer o]) s)
    (h : Traced builder es p calling) : P es p := by
  induction h with
  | build => exact hbuild
  | createRequest ht hc ih =>
    rcases createRequest_cases hc with ⟨violation, rfl, rfl⟩ | ⟨i, id, hl, _, _, hid, rfl, rfl⟩
    · simpa [requestEntries] using ih
    · simpa [requestEntries] using hrequest ih ht.valid (lookupChannel_ok hl) hid
  | @createResponse es p channel id payload _ ih =>
    rcases p.createResponse_cases channel id payload with
      ⟨_, he⟩ | ⟨i, _, _, he⟩ | ⟨i, hl, hid, ⟨_, he⟩ | ⟨_, he⟩⟩
    · simpa [he, answerEntries] using ih
    · simpa [he, answerEntries] using ih
    · simpa [he, answerEntries] using hlost i id ih
    · simpa [he, answerEntries] using hanswer ih (lookupChannel_ok hl) hid
  | cancelRequest channel id _ ih =>
    rw [cancelRequest_state]
    exact ih
  | @cancelResponse es p channel id _ ih =>
    rcases p.cancelResponse_cases channel id with ⟨_, he⟩ | he | ⟨i, hl, hid, he⟩
    · simpa [he, answerEntries] using ih
    · simpa [he, answerEntries] using ih
    · simpa [he, answerEntries] using hanswer ih (lookupChannel_ok hl) hid
  | call _ _ ih => exact ih
  | goOn ht hp ih => exact hframe ih ht.valid (processFrame_inv ht.valid hp)
  | stop ht hp ih => exact hframe ih ht.valid (processFrame_inv ht.valid hp)

/-- A call of `process_incoming` is a run of its iterations, and what it reads is the last of
them. -/
theorem processIncoming {buffer b : Bytes} {o : ReadOutcome} (h : Traced builder es p none)
    (hp : p.processIncoming buffer = .ok (o, s, b)) :
    ∃ log, Traced builder (es ++ log) s none ∧
      log.filterMap Entry.read = (match o with
        | .success read => [read]
        | _ => []) := by
  obtain ⟨s₀, b₀, hi, hlast⟩ := processIncoming_inv h.valid hp
  have hruns : ∃ log, Traced builder (es ++ log) s₀ (some b₀) ∧ log.filterMap Entry.read = [] := by
    clear hlast
    induction hi with
    | start => exact ⟨[], by simpa using h.call buffer, rfl⟩
    | @next s₁ _ b₁ _ _ hnext ih =>
      obtain ⟨log, hlog, hreads⟩ := ih
      refine ⟨log ++ [s₁.frameEntry b₁ none], ?_, ?_⟩
      · rw [← List.append_assoc]
        exact hlog.goOn hnext
      · rw [List.filterMap_append, hreads]
        rfl
  obtain ⟨log, hlog, hreads⟩ := hruns
  refine ⟨log ++ [s₀.frameEntry b₀ (some o)], ?_, ?_⟩
  · rw [← List.append_assoc]
    exact hlog.stop hlast
  · rw [List.filterMap_append, hreads]
    cases o <;> rfl

end Traced

end JulietProtocol

end Juliet
