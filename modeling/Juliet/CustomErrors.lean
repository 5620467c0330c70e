import Juliet.FrameCount
import Juliet.IoSteps
import Juliet.ProtocolRuns

namespace Juliet

open Rust

/-- The frame that `inject_error` puts in front of everything else. -/
def errorFrame (m : MaxFrameSize) (errMsg : OutgoingMessage) : OutgoingFrame :=
  ((errMsg.truncateToSingleFrame m).frames.nextOwned m).1

theorem errorFrame_fresh (m : MaxFrameSize) (errMsg : OutgoingMessage) :
    (errorFrame m errMsg).Fresh :=
  FrameIter.nextOwned_fresh _ _

theorem truncateToSingleFrame_header (m : MaxFrameSize) (msg : OutgoingMessage) :
    (msg.truncateToSingleFrame m).header = msg.header := by
  unfold OutgoingMessage.truncateToSingleFrame
  split <;> rfl

theorem errorFrame_header (m : MaxFrameSize) (errMsg : OutgoingMessage) :
    (errorFrame m errMsg).header = errMsg.header := by
  rw [errorFrame, FrameIter.nextOwned_header, FrameIter.header, OutgoingMessage.frames,
    truncateToSingleFrame_header]

theorem truncateToSingleFrame_of_single {m : MaxFrameSize} {msg : OutgoingMessage}
    (h : msg.isMultiFrame m = false) :
    msg.truncateToSingleFrame m = msg := by
  rw [OutgoingMessage.truncateToSingleFrame, h, if_neg (by simp)]

/-- A message that fits into one frame is that frame. -/
theorem errorFrame_of_single {m : MaxFrameSize} {errMsg : OutgoingMessage}
    (h : errMsg.isMultiFrame m = false) :
    errMsg.frameList m = [errorFrame m errMsg] := by
  have hlast : (errMsg.frames.nextOwned m).2 = none := by
    by_contra hne
    rw [(OutgoingMessage.isMultiFrame_iff errMsg m).mpr hne] at h
    simp at h
  rw [errorFrame, truncateToSingleFrame_of_single h]
  exact FrameIter.upcoming_of_none hlast

namespace IoCore

variable {N : Nat}

theorem injectError_frame {self c : IoCore N} {errMsg : OutgoingMessage}
    (h : self.injectError errMsg = .ok c) :
    c = self.erroring (errorFrame self.juliet.maxFrameSize errMsg) := by
  obtain ⟨_, _, h⟩ := bind_eq_ok.mp h
  exact (Except.ok.inj h).symm

theorem injectError_of_single {self : IoCore N} {errMsg : OutgoingMessage}
    (h : errMsg.isMultiFrame self.juliet.maxFrameSize = false) :
    self.injectError errMsg = .ok (self.erroring (errorFrame self.juliet.maxFrameSize errMsg)) := by
  have hlast : ((errMsg.truncateToSingleFrame self.juliet.maxFrameSize).frames.nextOwned
      self.juliet.maxFrameSize).2 = none := by
    rw [truncateToSingleFrame_of_single h]
    by_contra hne
    rw [(OutgoingMessage.isMultiFrame_iff errMsg _).mpr hne] at h
    simp at h
  simp only [injectError, debugAssert_of hlast, bind_ok]
  rfl

/-- Handling an enqueued error sets a single frame of it to be sent next, cut off where the frame
ends. -/
def DeliversError (self : IoCore N) (channel : ChannelId) (id : Id) (payload : Bytes) : Prop :=
  ∃ c frame, self.handleIncomingItem (.error channel id payload) = .ok (.ok (), c) ∧
    c.pendingError = some frame ∧
    frame.bytes.length ≤ self.juliet.maxFrameSize.get ∧
      frame.header = Header.newError .other channel id ∧
    (payloadIsMultiFrame self.juliet.maxFrameSize payload.length = false →
      frame.segment = payload) ∧
    (payloadIsMultiFrame self.juliet.maxFrameSize payload.length = true → frame.segment ≠ [] ∧
      frame.segment <+: payload)

theorem handleIncomingItem_error (self : IoCore N) (channel : ChannelId) (id : Id)
    (payload : Bytes) :
    self.handleIncomingItem (.error channel id payload) =
      self.sendToReadyQueue (.error channel id payload) := rfl

/-- Exactly the errors that fit into one frame are delivered. -/
theorem deliversError_iff (self : IoCore N) (channel : ChannelId) (id : Id) (payload : Bytes) :
    self.DeliversError channel id payload ↔
    payloadIsMultiFrame self.juliet.maxFrameSize payload.length = false := by
  generalize hm : self.juliet.maxFrameSize = m
  have hcases := self.juliet.customError_cases channel id payload
  rw [hm] at hcases
  rcases hcases with ⟨hmulti, hrefused⟩ | ⟨hsingle, haccepted⟩
  · rw [hmulti, Bool.true_eq_false, iff_false]
    rintro ⟨c, frame, hhandle, _⟩
    simp [handleIncomingItem_error, sendToReadyQueue, hrefused] at hhandle
  · simp only [hsingle, iff_true]
    let msg := OutgoingMessage.new (Header.newError .other channel id) (some payload)
    have hmsg : msg.isMultiFrame m = false := hsingle
    have hinject := injectError_of_single (hm ▸ hmsg)
    rw [hm] at hinject
    have hframe := errorFrame_of_single hmsg
    obtain ⟨_, _, hle, _, _, hsegments, _, _⟩ := OutgoingMessage.frameList_formulas msg m
    rw [hframe] at hle hsegments
    refine ⟨self.erroring (errorFrame m msg), errorFrame m msg, ?_, rfl, ?_,
      errorFrame_header m msg, ?_, ?_⟩
    · simp only [handleIncomingItem_error, sendToReadyQueue, haccepted]
      exact congrArg (· >>= _) hinject
    · rw [hm]
      exact hle _ List.mem_cons_self
    · intro _
      simpa [msg, OutgoingMessage.new] using hsegments
    · rw [hm, hsingle]
      simp

/-- An error of six bytes does not fit into a frame of ten: it is refused, and nothing is to be
sent. -/
theorem long_error_refused :
    ∃ c, (IoCore.new JulietProtocol.smallBuilder).handleIncomingItem
      (.error ⟨0⟩ ⟨0⟩ [1, 2, 3, 4, 5, 6]) =
        .ok (.error (.errorPayloadIsMultiFrame 6 10), c) ∧ c.pendingError = none ∧
      ¬ (IoCore.new JulietProtocol.smallBuilder).DeliversError ⟨0⟩ ⟨0⟩ [1, 2, 3, 4, 5, 6] := by
  have h : (IoCore.new JulietProtocol.smallBuilder).handleIncomingItem
      (.error ⟨0⟩ ⟨0⟩ [1, 2, 3, 4, 5, 6]) =
      .ok (.error (.errorPayloadIsMultiFrame 6 10), IoCore.new JulietProtocol.smallBuilder) := rfl
  refine ⟨_, h, rfl, ?_⟩
  rintro ⟨c, frame, hhandle, _⟩
  simp [h] at hhandle

end IoCore

end Juliet
