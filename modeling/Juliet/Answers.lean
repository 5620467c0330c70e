import Juliet.ProtocolRuns

namespace Juliet

open Rust

/-- The request that a read answers. -/
def CompletedRead.answered : CompletedRead → Option (ChannelId × Id)
  | .receivedResponse channel id _ => some (channel, id)
  | .responseCancellation channel id => some (channel, id)
  | _ => none

def answeredBy : Option ReadOutcome → Option (ChannelId × Id)
  | some (.success read) => read.answered
  | _ => none

/-- What the requests that are outstanding on a channel become when `answer` is read. -/
def Channel.Settles (answer : Option (ChannelId × Id)) (i : Nat) (self c : Channel) : Prop :=
  c.config = self.config ∧ c.prevRequestId = self.prevRequestId ∧
    match answer with
    | some (channel, id) =>
      if channel.get.toNat = i then
        id ∈ self.outgoingRequests ∧ c.outgoingRequests = self.outgoingRequests.erase id
      else c.outgoingRequests = self.outgoingRequests
    | none => c.outgoingRequests = self.outgoingRequests

theorem Channel.Settles.refl (self : Channel) (i : Nat) : Settles none i self self :=
  ⟨rfl, rfl, rfl⟩

theorem Channel.Settles.other {channel : ChannelId} {i : Nat} (hi : channel.get.toNat ≠ i)
    (self : Channel) (id : Id) :
    Settles (some (channel, id)) i self self := by
  refine ⟨rfl, rfl, ?_⟩
  simp [hi]

theorem Channel.Settles.trans {answer : Option (ChannelId × Id)} {i : Nat} {c₀ c₁ c₂ : Channel}
    (h₁ : Settles none i c₀ c₁) (h₂ : Settles answer i c₁ c₂) : Settles answer i c₀ c₂ := by
  obtain ⟨hc₁, hp₁, ho₁⟩ := h₁
  obtain ⟨hc₂, hp₂, ho₂⟩ := h₂
  simp only at ho₁
  rw [ho₁] at ho₂
  exact ⟨hc₂.trans hc₁, hp₂.trans hp₁, ho₂⟩

theorem Channel.cancelInProgress_outgoing (self : Channel) (header : Header) :
    (self.cancelInProgress header).outgoingRequests = self.outgoingRequests ∧
      (self.cancelInProgress header).config = self.config ∧
      (self.cancelInProgress header).prevRequestId = self.prevRequestId := by
  unfold cancelInProgress
  split
  next =>
    split
    next => exact ⟨rfl, rfl, rfl⟩
    next => exact ⟨rfl, rfl, rfl⟩
  next => exact ⟨rfl, rfl, rfl⟩

/-- Frames that do not answer a request leave the outstanding requests alone. -/
theorem ChannelStep.settles {header : Header} {buffer b : Bytes} {self c : Channel} {kind : Kind}
    {o : Option ReadOutcome} (h : ChannelStep header buffer self kind o c b) {i : Nat}
    (hi : header.channel.get.toNat = i) :
    Channel.Settles (answeredBy o) i self c ∧ ∀ channel id, answeredBy o = some (channel, id) →
    channel = header.channel := by
  have hquiet : ∀ {c : Channel}, c.config = self.config → c.prevRequestId = self.prevRequestId →
      c.outgoingRequests = self.outgoingRequests → Channel.Settles none i self c :=
        fun h₁ h₂ h₃ => ⟨h₁, h₂, h₃⟩
  have hreq : ∀ (frame : CompletedFrame),
      answeredBy (completedAs (.newRequest header.channel header.id) frame) = none := by
    intro frame
    unfold completedAs
    cases frame.intoCompletedPayload <;> rfl
  cases h with
  | wait _ _ => exact ⟨.refl self i, by simp [answeredBy]⟩
  | refuse _ _ => exact ⟨.refl self i, by simp [answeredBy, errMsg]⟩
  | request _ _ => exact ⟨hquiet (by simp) (by simp) (by simp), by simp [answeredBy,
    CompletedRead.answered]⟩
  | response hid =>
    refine ⟨⟨rfl, rfl, ?_⟩, by simp [answeredBy, CompletedRead.answered]⟩
    simp [answeredBy, CompletedRead.answered, hi, hid]
  | requestPlRefused _ _ _ _ _ _ => exact ⟨hquiet rfl rfl rfl, by simp [answeredBy, errMsg]⟩
  | requestPlNew frame _ _ _ _ _ _ =>
    rw [hreq frame]
    exact ⟨hquiet (by simp [Channel.withReceiver]) (by simp [Channel.withReceiver])
      (by simp [Channel.withReceiver]),
      by simp⟩
  | requestPlMore frame _ _ _ _ =>
    rw [hreq frame]
    exact ⟨hquiet rfl rfl rfl, by simp⟩
  | responsePl frame receiver _ hid _ =>
    unfold completedAs
    cases frame.intoCompletedPayload with
    | none => exact ⟨hquiet rfl rfl rfl, by simp [answeredBy]⟩
    | some payload =>
      refine ⟨⟨rfl, rfl, ?_⟩, by simp [answeredBy, CompletedRead.answered]⟩
      simp [answeredBy, CompletedRead.answered, hi, hid]
  | cancelReqLate _ _ | cancelReq _ _ =>
    obtain ⟨ho, hc, hp⟩ := Channel.cancelInProgress_outgoing
      { self with cancellationAllowance := self.cancellationAllowance - 1 } header
    exact ⟨hquiet hc hp ho, by simp [answeredBy, CompletedRead.answered]⟩
  | cancelResp hid =>
    refine ⟨⟨rfl, rfl, ?_⟩, by simp [answeredBy, CompletedRead.answered]⟩
    simp [answeredBy, CompletedRead.answered, hi, hid]

namespace JulietProtocol

variable {N : Nat}

/-- What the outstanding requests of all channels become when `answer` is read. -/
structure Settles (answer : Option (ChannelId × Id)) (before after : JulietProtocol N) : Prop where
  maxFrameSize : after.maxFrameSize = before.maxFrameSize
  channels : ∀ i : Fin N, Channel.Settles answer i (before.channels i) (after.channels i)
  known : ∀ channel id, answer = some (channel, id) → channel.get.toNat < N

theorem FrameStep.settles {self s : JulietProtocol N} {buffer b : Bytes} {o : Option ReadOutcome}
    (h : FrameStep self buffer o s b) : Settles (answeredBy o) self s := by
  cases h with
  | wait _ => exact ⟨rfl, fun i => .refl _ i, by simp [answeredBy]⟩
  | refuse _ _ => exact ⟨rfl, fun i => .refl _ i, by simp [answeredBy]⟩
  | error _ _ _ _ _ _ _ => exact ⟨rfl,
    fun i => .refl _ i, by simp [answeredBy, CompletedRead.answered]⟩
  | frame header kind i o c b _ _ hi hs =>
    obtain ⟨hsettles, hchannel⟩ := hs.settles hi
    refine ⟨rfl, ?_, ?_⟩
    · intro j
      by_cases hj : j = i
      · subst hj
        simpa using hsettles
      · rw [setChannel_of_ne _ hj]
        cases ha : answeredBy o with
        | none => exact .refl _ j
        | some answer =>
          obtain ⟨channel, id⟩ := answer
          refine .other ?_ _ id
          rw [hchannel channel id ha, hi]
          exact fun he => hj (Fin.ext he.symm)
    · intro channel id ha
      rw [hchannel channel id ha, hi]
      exact i.isLt

theorem Settles.trans {answer : Option (ChannelId × Id)} {s₀ s₁ s₂ : JulietProtocol N}
    (h₁ : Settles none s₀ s₁) (h₂ : Settles answer s₁ s₂) : Settles answer s₀ s₂ where
  maxFrameSize := h₂.maxFrameSize.trans h₁.maxFrameSize
  channels := fun i => (h₁.channels i).trans (h₂.channels i)
  known := h₂.known

/-- A call of `process_incoming` settles the one request that it reports as answered, if any. -/
theorem processIncoming_settles {self s : JulietProtocol N} {buffer b : Bytes} {o : ReadOutcome}
    (hv : self.Valid) (h : self.processIncoming buffer = .ok (o, s, b)) :
    Settles (answeredBy (some o)) self s := by
  obtain ⟨s₀, b₀, hi, hp⟩ := processIncoming_inv hv h
  have hquiet : Settles none self s₀ ∧ s₀.Valid := by
    clear hp
    induction hi with
    | start => exact ⟨⟨rfl, fun i => .refl _ i, by simp⟩, hv⟩
    | next _ hnext ih =>
      obtain ⟨hset, hv'⟩ := ih
      exact ⟨hset.trans (processFrame_inv hv' hnext).settles, processFrame_keeps hv' hnext⟩
  exact hquiet.1.trans (processFrame_inv hquiet.2 hp).settles

end JulietProtocol

end Juliet
