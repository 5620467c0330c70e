import Juliet.Answers
import Juliet.Balance
import Juliet.Traces

namespace Juliet

open Rust

/-- Whether a frame has been accepted: it has led to a read, or the loop has gone on. -/
def progressed : Option ReadOutcome → Bool
  | none => true
  | some (.success _) => true
  | _ => false

def Header.isCancelReq (h : Header) : Bool := h.kind.toOption == some .cancelReq

@[simp]
theorem Header.new_isCancelReq (kind : Kind) (channel : ChannelId) (id : Id) :
    (Header.new kind channel id).isCancelReq = (kind == .cancelReq) := by
  simp [isCancelReq, Except.toOption]

theorem Header.kind_of_isError {h : Header} (he : h.isError = true) : h.kind.toOption = none := by
  simp [kind, he, debugAssert, Except.toOption]

namespace Entry

/-- A request on the channel is accepted, with its first frame if it has several. -/
def acceptsRequest (i : Nat) : Entry → Bool
  | .frame (some header) transfer outcome =>
    header.channel.get.toNat == i && header.isRequest && transfer != some header &&
      progressed outcome
  | _ => false

/-- A `CancelReq` frame on the channel is accepted. -/
def acceptsCancel (i : Nat) : Entry → Bool
  | .frame (some header) _ outcome =>
    header.channel.get.toNat == i && header.isCancelReq && progressed outcome
  | _ => false

end Entry

/-- An accepted frame is new unless it goes on with the open transfer. -/
theorem Accepted.wasNew_iff {max : Nat} {header : Header} {buffer rest : Bytes}
    {s s' : MultiframeReceiver} {frame : CompletedFrame}
    (h : Accepted max header buffer s (.success frame) s' rest) :
    frame.wasNew = true ↔ s.inProgressHeader ≠ some header := by
  cases h with
  | single _ _ _ hne _ _ _ => simp [CompletedFrame.wasNew, hne]
  | first _ _ _ _ _ _ _ _ => simp [CompletedFrame.wasNew, MultiframeReceiver.inProgressHeader]
  | middle _ _ _ _ _ _ _ => simp [CompletedFrame.wasNew, MultiframeReceiver.inProgressHeader]
  | last _ _ _ _ _ _ _ => simp [CompletedFrame.wasNew, MultiframeReceiver.inProgressHeader]

theorem Channel.cancelInProgress_allowance (self : Channel) (header : Header) :
    (self.cancelInProgress header).cancellationAllowance = self.cancellationAllowance := by
  unfold cancelInProgress
  split
  next =>
    split
    next => rfl
    next => rfl
  next => rfl

theorem completedAs_progressed (read : Option Bytes → CompletedRead) (frame : CompletedFrame) :
    progressed (completedAs read frame) = true := by
  unfold completedAs
  cases frame.intoCompletedPayload <;> rfl

/-- What a frame costs its channel. -/
theorem ChannelStep.spends {header : Header} {buffer b : Bytes} {self c : Channel} {kind : Kind}
    {o : Option ReadOutcome} {i : Nat} (h : ChannelStep header buffer self kind o c b)
    (hv : self.Valid i) (hk : header = Header.new kind header.channel header.id) :
    c.cancellationAllowance + (if kind == .cancelReq && progressed o then 1 else 0) ≤
      self.cancellationAllowance +
      (if kind.isRequest && self.currentMultiframeReceiver.inProgressHeader != some header &&
        progressed o then 1
        else 0) := by
  cases h with
  | wait _ _ => simp [progressed]
  | refuse _ _ => simp [progressed, errMsg]
  | request hc _ =>
    have hne : self.currentMultiframeReceiver.inProgressHeader ≠ some header := by
      intro hin
      cases hr : self.currentMultiframeReceiver with
      | ready => simp [hr, MultiframeReceiver.inProgressHeader] at hin
      | inProgress hd p t =>
        obtain ⟨_, _, _, hkinds⟩ := hv.transfer hr
        simp only [hr, MultiframeReceiver.inProgressHeader, Option.some.injEq] at hin
        subst hin
        have hkind : hd.kind = .ok .request := by
          rw [hk]
          exact Header.new_kind _ _ _
        rcases hkinds with ⟨he, _⟩ | ⟨he, _⟩ <;> rw [he, Header.new_kind] at hkind <;> simp at hkind
    have hle := self.register_allowance header.id hv.allowance_le
    simp only [Kind.isRequest, progressed, bne_iff_ne, hne, ne_eq, not_false_eq_true, if_true,
      Bool.true_and, Bool.and_true]
    simp only [reduceCtorEq, beq_iff_eq, if_false]
    omega
  | requestPlRefused _ _ _ _ _ _ => simp [progressed, errMsg, Channel.withReceiver]
  | requestPlNew frame receiver rest ha hnew _ _ =>
    have hne := ha.wasNew_iff.mp hnew
    have hle := (self.withReceiver receiver).register_allowance header.id hv.allowance_le
    have hsame : (self.withReceiver receiver).cancellationAllowance = self.cancellationAllowance :=
      rfl
    simp only [Kind.isRequest, completedAs_progressed, bne_iff_ne, hne, ne_eq,
      not_false_eq_true, Bool.and_true, Bool.true_and, if_true]
    simp only [reduceCtorEq, beq_iff_eq, if_false]
    omega
  | requestPlMore _ _ _ _ _ => simp [Channel.withReceiver]
  | responsePl frame _ _ _ _ =>
    cases frame.intoCompletedPayload <;> simp [Channel.withReceiver]
  | response _ => simp
  | cancelReqLate hpos _ | cancelReq hpos _ =>
    rw [Channel.cancelInProgress_allowance]
    simp only [progressed, beq_self_eq_true, Bool.and_self, if_true]
    show self.cancellationAllowance - 1 + 1 ≤ _
    omega
  | cancelResp _ => simp

namespace JulietProtocol

variable {N : Nat}

/-- What a frame costs each channel, as the entry for it has it. -/
theorem FrameStep.spends {self s : JulietProtocol N} {buffer b : Bytes} {o : Option ReadOutcome}
    (h : FrameStep self buffer o s b) (hv : self.Valid) (j : Fin N) :
    (s.channels j).cancellationAllowance +
      (if (self.frameEntry buffer o).acceptsCancel j then 1 else 0) ≤
      (self.channels j).cancellationAllowance +
        (if (self.frameEntry buffer o).acceptsRequest j then 1 else 0) := by
  cases h with
  | wait _ => cases hf : frontHeader buffer <;> simp [frameEntry, hf,
    Entry.acceptsCancel, progressed]
  | refuse _ _ => cases hf : frontHeader buffer <;> simp [frameEntry, hf,
    Entry.acceptsCancel, progressed]
  | error header _ _ hf he _ _ =>
    simp [frameEntry, hf, Entry.acceptsCancel, Header.isCancelReq, Header.kind_of_isError he]
  | frame header kind i o c b hf hk hi hs =>
    have hrequest : header.isRequest = kind.isRequest := by
      rw [hk]
      exact Header.new_isRequest _ _ _
    have hcancel : header.isCancelReq = (kind == .cancelReq) := by
      rw [hk]
      exact Header.new_isCancelReq _ _ _
    rw [frameEntry_of hf hi]
    simp only [Entry.acceptsCancel, Entry.acceptsRequest, hrequest, hcancel, hi]
    by_cases hj : j = i
    · subst hj
      simpa using hs.spends (hv j) hk
    · have hne : (i : Nat) ≠ j := fun he => hj (Fin.ext he.symm)
      simp [hj, hne]

/-- The budget of a channel, and what is left of it since the last request. -/
structure Budgeted (builder : ProtocolBuilder N) (es : List Entry) (p : JulietProtocol N) :
    Prop where
  config : ∀ i, (p.channels i).config = builder.channelConfig i
  spent : ∀ i : Fin N,
    (p.channels i).cancellationAllowance + es.countP (Entry.acceptsCancel i) ≤ es.countP
      (Entry.acceptsRequest i)
  recent : ∀ (i : Fin N) (run : List Entry), run <:+ es → run.countP (Entry.acceptsRequest i) = 0 →
    (p.channels i).cancellationAllowance + run.countP (Entry.acceptsCancel i) ≤
      (builder.channelConfig i).requestLimit.toNat
  burst : ∀ (i : Fin N) (run : List Entry), run <:+: es → run.countP (Entry.acceptsRequest i) = 0 →
    run.countP (Entry.acceptsCancel i) ≤ (builder.channelConfig i).requestLimit.toNat

namespace Budgeted

variable {builder : ProtocolBuilder N} {es : List Entry} {p s : JulietProtocol N}

theorem build (builder : ProtocolBuilder N) : Budgeted builder [] builder.build where
  config := fun _ => rfl
  spent := by simp [ProtocolBuilder.build, Channel.new]
  recent := by simp [ProtocolBuilder.build, Channel.new]
  burst := by simp

/-- Steps that leave the allowances alone. -/
theorem congr (h : Budgeted builder es p)
    (hs : ∀ i, (s.channels i).cancellationAllowance = (p.channels i).cancellationAllowance ∧
      (s.channels i).config = (p.channels i).config) : Budgeted builder es s where
  config := fun i => (hs i).2.trans (h.config i)
  spent := fun i => (hs i).1 ▸ h.spent i
  recent := fun i => (hs i).1 ▸ h.recent i
  burst := h.burst

/-- An entry is paid for by the allowance, or by the request that it accepts. -/
theorem snoc {e : Entry} (h : Budgeted builder es p)
    (hc : ∀ i, (s.channels i).config = (p.channels i).config)
    (hle : ∀ i, (s.channels i).cancellationAllowance ≤ (s.channels i).config.requestLimit.toNat)
    (he : ∀ i : Fin N, (s.channels i).cancellationAllowance + (if e.acceptsCancel i then 1 else 0) ≤
      (p.channels i).cancellationAllowance + (if e.acceptsRequest i then 1 else 0)) :
    Budgeted builder (es ++ [e]) s := by
  have hconfig : ∀ i, (s.channels i).config = builder.channelConfig i :=
    fun i => (hc i).trans (h.config i)
  have hrecent : ∀ (i : Fin N) (run : List Entry), run <:+ es ++ [e] →
      run.countP (Entry.acceptsRequest i) = 0 →
      (s.channels i).cancellationAllowance + run.countP (Entry.acceptsCancel i) ≤
        (builder.channelConfig i).requestLimit.toNat := by
    intro i run hrun hnone
    rcases List.suffix_concat_iff.mp hrun with rfl | ⟨run, rfl, hsuffix⟩
    · simpa [← hconfig i] using hle i
    · have hpaid := he i
      simp only [List.countP_append, List.countP_singleton, Nat.add_eq_zero_iff] at hnone ⊢
      have hleft := h.recent i run hsuffix hnone.1
      rw [hnone.2] at hpaid
      omega
  refine ⟨hconfig, ?_, hrecent, ?_⟩
  · intro i
    have hpaid := he i
    have hspent := h.spent i
    simp only [List.countP_append, List.countP_singleton]
    omega
  · intro i run hrun hnone
    rcases List.infix_concat_iff.mp hrun with hrun | hrun
    · exact (Nat.le_add_left _ _).trans (hrecent i run hrun hnone)
    · exact h.burst i run hrun hnone

/-- Local calls neither spend nor raise the allowances. -/
theorem snoc_of_same {e : Entry} (h : Budgeted builder es p)
    (hs : ∀ i, (s.channels i).cancellationAllowance = (p.channels i).cancellationAllowance ∧
      (s.channels i).config = (p.channels i).config) (he : ∀ i, e.acceptsCancel i = false) :
    Budgeted builder (es ++ [e]) s := by
  refine h.snoc (fun i => (hs i).2) ?_ ?_
  · intro i
    rw [(hs i).1, (hs i).2, h.config i]
    exact h.recent i [] List.nil_suffix rfl
  · intro i
    simp [(hs i).1, he i]

end Budgeted

/-- Against any peer, the cancellation allowance of a channel never exceeds the requests that have
been accepted there less the `CancelReq` frames that have been, and between two requests no more of
these are accepted than the request limit. -/
theorem cancellation_budget {builder : ProtocolBuilder N} {es : List Entry} {p : JulietProtocol N}
    {calling : Option Bytes} (h : Traced builder es p calling) (i : Fin N) :
    (p.channels i).cancellationAllowance + es.countP (Entry.acceptsCancel i) ≤ es.countP
      (Entry.acceptsRequest i) ∧
      ∀ run, run <:+: es → run.countP (Entry.acceptsRequest i) = 0 →
        run.countP (Entry.acceptsCancel i) ≤ (builder.channelConfig i).requestLimit.toNat := by
  -- local calls leave the allowances alone
  have hset : ∀ {p : JulietProtocol N} {j : Fin N} {chan : Channel},
      chan.cancellationAllowance = (p.channels j).cancellationAllowance →
        chan.config = (p.channels j).config → ∀ k,
      ((p.setChannel j chan).channels k).cancellationAllowance =
        (p.channels k).cancellationAllowance ∧
        ((p.setChannel j chan).channels k).config = (p.channels k).config :=
    fun ha hc k => ⟨setChannel_field Channel.cancellationAllowance ha k,
      setChannel_field Channel.config hc k⟩
  have hinv : Budgeted builder es p := by
    refine h.invariant (.build builder) ?_ ?_ ?_ ?_
    · intro es p channel j id hP _ _ _
      exact hP.snoc_of_same (hset rfl rfl) fun _ => rfl
    · intro es p channel j id hP _ _
      exact hP.snoc_of_same (hset rfl rfl) fun _ => rfl
    · intro es p j id hP
      exact hP.congr (hset rfl rfl)
    · intro es p s buffer b o hP hv hs
      exact hP.snoc (fun i => (hs.settles.channels i).1) (fun i => (hv.frameStep hs i).allowance_le)
        (hs.spends hv)
  exact ⟨hinv.spent i, hinv.burst i⟩

/-- A request is accepted, and then the one `CancelReq` frame that it pays for. -/
theorem cancellation_budget_spent :
    ∃ es p, Traced smallBuilder es p none ∧ es.countP (Entry.acceptsCancel 0) = 1 ∧
    (p.channels 0).cancellationAllowance + es.countP (Entry.acceptsCancel 0) ≤ es.countP
      (Entry.acceptsRequest 0) := by
  have h1 := (Traced.build.call (Header.new .request ⟨0⟩ ⟨1⟩).bytes).stop
    (show smallBuilder.build.processFrame _ = .ok (some _, _, _) from rfl)
  have h2 := (h1.call (Header.new .cancelReq ⟨0⟩ ⟨1⟩).bytes).stop rfl
  exact ⟨_, _, h2, rfl, (cancellation_budget h2 0).1⟩

end JulietProtocol

end Juliet
