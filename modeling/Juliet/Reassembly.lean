import Juliet.HonestFrame

namespace Juliet

open Rust OutgoingMessage

namespace MultiframeReceiver

/-- Accepts one frame after the other from a buffer. Next to each outcome stands what it has
left. -/
def acceptAll (m : MaxFrameSize) (maxPayloadSize : UInt32) (kind : ErrorKind) :
    MultiframeReceiver → List Header → Bytes →
      Checked (List (Outcome CompletedFrame OutgoingMessage × Bytes) × MultiframeReceiver)
  | self, [], _ => .ok ([], self)
  | self, header :: headers, buffer => do
    let (outcome, self, buffer) ← self.accept header buffer m maxPayloadSize.toNat kind
    let (outcomes, self) ← acceptAll m maxPayloadSize kind self headers buffer
    return ((outcome, buffer) :: outcomes, self)

end MultiframeReceiver

namespace FrameIter

/-- Whether the frame may follow while the `others` are at the frames given: as long as one of them
is unfinished, a message may begin only if it is a single frame, under another header. -/
def Fits (m : MaxFrameSize) (others : List FrameIter) (it : FrameIter) : Prop :=
  it.bytesProcessed = 0 → ∀ other ∈ others, 0 < other.bytesProcessed →
    (it.nextOwned m).2 = none ∧ other.header ≠ it.header

/-- The merges of the frames of messages, each of which is given by its next frame. The frames in
the last argument are those to come next when the merge stops; none, if it is complete. -/
inductive Merge (m : MaxFrameSize) : List FrameIter → List FrameIter → List FrameIter → Prop
  | stop (its : List FrameIter) : Merge m its [] its
  | next {left right merged its : List FrameIter} {it : FrameIter} : it.Fits m (left ++ right) →
      Merge m (left ++ (it.nextOwned m).2.toList ++ right) merged its →
      Merge m (left ++ it :: right) (it :: merged) its

def emitAll (m : MaxFrameSize) (its : List FrameIter) : Bytes :=
  (its.map fun it => it.emit m).flatten

/-- What the receiver is to report about the frames, with what is left of the buffer behind each. -/
def reports (m : MaxFrameSize) (rest : Bytes) :
    List FrameIter → List (Outcome CompletedFrame OutgoingMessage × Bytes)
  | [] => []
  | it :: its => (.success (it.completed m (it.msg.payload.getD [])),
    emitAll m its ++ rest) :: reports m rest its

def unfinished (its : List FrameIter) : Nat := its.countP fun it => 0 < it.bytesProcessed

theorem unfinished_eq_zero {its : List FrameIter} :
    unfinished its = 0 ↔ ∀ it ∈ its, it.bytesProcessed = 0 := by
  simp [unfinished, List.countP_eq_zero]

theorem unfinished_insert (left right : List FrameIter) (it : FrameIter) :
    unfinished (left ++ it :: right) = unfinished (left ++ right) + if 0 < it.bytesProcessed then 1
      else 0 := by
  simp only [unfinished, List.countP_append, List.countP_cons, decide_eq_true_eq]
  omega

/-- The receiver is where the one unfinished message has it. -/
structure Awaits (its : List FrameIter) (r : MultiframeReceiver) : Prop where
  one : unfinished its ≤ 1
  closed : (∀ it ∈ its, it.bytesProcessed = 0) → r = .ready
  opened : ∀ it ∈ its, 0 < it.bytesProcessed → r = it.transfer ∧
    it.bytesProcessed < it.msg.payloadLen

theorem transfer_inProgressHeader {it : FrameIter} (h : 0 < it.bytesProcessed) :
    it.transfer.inProgressHeader = some it.header := by
  simp [transfer, Nat.pos_iff_ne_zero.mp h, MultiframeReceiver.inProgressHeader]

variable {m : MaxFrameSize} {left right merged its : List FrameIter} {it : FrameIter}
  {r : MultiframeReceiver}

theorem Awaits.others (h : Awaits (left ++ it :: right) r) (hpos : 0 < it.bytesProcessed) :
    ∀ other ∈ left ++ right, other.bytesProcessed = 0 := by
  have hone := h.one
  rw [unfinished_insert, if_pos hpos] at hone
  exact unfinished_eq_zero.mp (by omega)

theorem awaits_of_fresh (h : ∀ it ∈ its, it.bytesProcessed = 0) : Awaits its .ready where
  one := by
    rw [unfinished_eq_zero.mpr h]
    exact Nat.zero_le 1
  closed := fun _ => rfl
  opened := fun it hmem hpos => absurd (h it hmem) (Nat.pos_iff_ne_zero.mp hpos)

theorem awaits_of_next {it' : FrameIter} (h : ∀ other ∈ left ++ right, other.bytesProcessed = 0)
    (hnext : (it.nextOwned m).2 = some it') : Awaits (left ++ [it'] ++ right) it'.transfer := by
  obtain ⟨_, _, hlt, hlen⟩ := nextOwned_some hnext
  have hpos : 0 < it'.bytesProcessed := by omega
  refine ⟨?_, ?_, ?_⟩
  · rw [List.append_assoc, List.singleton_append, unfinished_insert, unfinished_eq_zero.mpr h,
      if_pos hpos]
  · intro hall
    have := hall it' (by simp)
    omega
  · intro other hmem hpos'
    simp only [List.append_assoc, List.mem_append, List.mem_singleton] at hmem
    rcases hmem with hmem | rfl | hmem
    · have := h other (by simp [hmem])
      omega
    · exact ⟨rfl, hlen⟩
    · have := h other (by simp [hmem])
      omega

/-- The receiver expects the frame, and is left where what follows has it. -/
theorem Awaits.next (h : Awaits (left ++ it :: right) r) (hfits : it.Fits m (left ++ right)) :
    ∃ r', it.passOver m r = some r' ∧ Awaits (left ++ (it.nextOwned m).2.toList ++ right) r' := by
  unfold passOver
  by_cases h0 : it.bytesProcessed = 0
  · rw [if_pos h0]
    cases hnext : (it.nextOwned m).2 with
    | none =>
      refine ⟨r, rfl, ?_⟩
      have hone := h.one
      rw [unfinished_insert] at hone
      simp only [Option.toList_none, List.append_nil]
      refine ⟨by omega, ?_, ?_⟩
      · intro hall
        apply h.closed
        intro other hmem
        simp only [List.mem_append, List.mem_cons] at hmem
        rcases hmem with hmem | rfl | hmem
        · exact hall other (by simp [hmem])
        · exact h0
        · exact hall other (by simp [hmem])
      · intro other hmem
        rcases List.mem_append.mp hmem with hmem | hmem
        · exact h.opened other (by simp [hmem])
        · exact h.opened other (by simp [hmem])
    | some it' =>
      have hfresh : ∀ other ∈ left ++ right, other.bytesProcessed = 0 := by
        intro other hmem
        by_contra hne
        have := (hfits h0 other hmem (Nat.pos_of_ne_zero hne)).1
        simp [hnext] at this
      have hready : r = .ready := by
        apply h.closed
        intro other hmem
        simp only [List.mem_append, List.mem_cons] at hmem
        rcases hmem with hmem | rfl | hmem
        · exact hfresh other (by simp [hmem])
        · exact h0
        · exact hfresh other (by simp [hmem])
      exact ⟨it'.transfer, if_pos hready, awaits_of_next hfresh hnext⟩
  · have hpos := Nat.pos_of_ne_zero h0
    have hfresh := h.others hpos
    rw [if_neg h0, if_pos (h.opened it (by simp) hpos).1]
    cases hnext : (it.nextOwned m).2 with
    | none => exact ⟨.ready, rfl, by simpa using awaits_of_fresh hfresh⟩
    | some it' => exact ⟨it'.transfer, rfl, awaits_of_next hfresh hnext⟩

theorem Awaits.apart (h : Awaits (left ++ it :: right) r) (hfits : it.Fits m (left ++ right))
    (h0 : it.bytesProcessed = 0) : r.inProgressHeader ≠ some it.header := by
  by_cases hall : ∀ other ∈ left ++ it :: right, other.bytesProcessed = 0
  · rw [h.closed hall]
    simp [MultiframeReceiver.inProgressHeader]
  · push Not at hall
    obtain ⟨other, hmem, hne⟩ := hall
    have hpos := Nat.pos_of_ne_zero hne
    rw [(h.opened other hmem hpos).1, transfer_inProgressHeader hpos]
    have hother : other ∈ left ++ right := by
      simp only [List.mem_append, List.mem_cons] at hmem ⊢
      rcases hmem with hmem | rfl | hmem
      · exact .inl hmem
      · exact absurd h0 hne
      · exact .inr hmem
    simpa using (hfits h0 other hother hpos).2

/-- A message of several frames cannot begin within another one. -/
theorem accept_second {msg : OutgoingMessage} {pl : Bytes} {max : Nat} (hpl : msg.payload = some pl)
    (hmax : pl.length ≤ max) (hlt : max < 2 ^ 32) (hmulti : (msg.frames.nextOwned m).2 ≠ none)
    (hpos : 0 < it.bytesProcessed) (hne : msg.header ≠ it.header) (kind : ErrorKind)
    (rest : Bytes) :
    it.transfer.accept msg.header (msg.frames.emit m ++ rest) m max kind =
      .ok (errMsg msg.header .inProgress, it.transfer, msg.frames.emit m ++ rest) := by
  have hdet := detect_first (show msg.frames.msg.payload = some pl from hpl) rfl
    hmax hlt m rest kind
  obtain ⟨it', hnext⟩ := Option.ne_none_iff_exists'.mp hmulti
  obtain ⟨pl', hpl', _, _, hpart⟩ := nextOwned_some_iff.mp hnext
  cases Option.some.inj (hpl.symm.trans hpl')
  have hcomplete := InitialFrameData.isComplete_of_le
    (d := ⟨4 + (prefixDigits pl).length, msg.frames.handedOut m pl, pl.length⟩) hpart.le
  have hbeq : (msg.frames.handedOut m pl == pl.length) = false := by
    rw [beq_eq_false_iff_ne]
    omega
  have hdet' : detectStartingSegment msg.header (msg.frames.emit m ++ rest) m max kind = _ := hdet
  rw [show it.transfer = .inProgress it.header _ _ from if_neg (Nat.pos_iff_ne_zero.mp hpos)]
  simp [MultiframeReceiver.accept, hne, hdet', hcomplete, hbeq]

/-- What is reported about a merge, and where it leaves the receiver. -/
theorem acceptAll_merge {max : UInt32} {pending : List FrameIter} (kind : ErrorKind) (rest : Bytes)
    (hpl : ∀ it ∈ pending, ∃ pl, it.msg.payload = some pl ∧ pl.length ≤ max.toNat)
    (ha : Awaits pending r) (h : Merge m pending merged its) :
    ∃ r', MultiframeReceiver.acceptAll m max kind r (merged.map header) (emitAll m merged ++ rest) =
      .ok (reports m rest merged, r') ∧ Awaits its r' := by
  induction h generalizing r with
  | stop its => exact ⟨r, rfl, ha⟩
  | @next left right merged its it hfits _ ih =>
    obtain ⟨pl, hit, hlen⟩ := hpl it (by simp)
    obtain ⟨r₁, hpass, ha₁⟩ := ha.next hfits
    have hmore : 0 < it.bytesProcessed → it.bytesProcessed < pl.length := by
      intro hpos
      simpa [OutgoingMessage.payloadLen, hit] using (ha.opened it (by simp) hpos).2
    have hacc := accept_honest hit hlen max.toNat_lt hpass (ha.apart hfits) hmore
      (emitAll m merged ++ rest) kind
    have hpl₁ : ∀ it' ∈ left ++ (it.nextOwned m).2.toList ++ right,
        ∃ pl, it'.msg.payload = some pl ∧ pl.length ≤ max.toNat := by
      intro it' hmem
      simp only [List.mem_append, Option.mem_toList] at hmem
      rcases hmem with (hmem | hmem) | hmem
      · exact hpl it' (by simp [hmem])
      · rw [(nextOwned_some hmem).1]
        exact ⟨pl, hit, hlen⟩
      · exact hpl it' (by simp [hmem])
    obtain ⟨r₂, hall, ha₂⟩ := ih hpl₁ ha₁
    refine ⟨r₂, ?_, ha₂⟩
    have hbuffer : emitAll m (it :: merged) ++ rest = it.emit m ++ (emitAll m merged ++ rest) := by
      simp [emitAll]
    rw [hbuffer]
    simp only [List.map_cons, MultiframeReceiver.acceptAll, hacc, bind_ok, hall,
      pure_eq_ok, reports, hit, Option.getD_some]

/-- Fed with any merge of the frames of messages, a receiver reports each message when its last
frame is there, takes one frame at a time, and refuses a second message of several frames within
another. -/
theorem merged_frames_reassembled {max : UInt32} {msgs : List OutgoingMessage}
    (hmsgs : ∀ msg ∈ msgs, ∃ pl, msg.payload = some pl ∧ pl.length ≤ max.toNat)
    (h : Merge m (msgs.map OutgoingMessage.frames) merged its) (kind : ErrorKind) (rest : Bytes) :
    ∃ r, MultiframeReceiver.acceptAll m max kind .ready (merged.map header)
      (emitAll m merged ++ rest) =
        .ok (reports m rest merged, r) ∧
      ∀ it ∈ its, 0 < it.bytesProcessed → ∀ (msg : OutgoingMessage) (pl rest' : Bytes),
        msg.payload = some pl →
        pl.length ≤ max.toNat → (msg.frames.nextOwned m).2 ≠ none → msg.header ≠ it.header →
        r.accept msg.header (msg.frames.emit m ++ rest') m max.toNat kind =
          .ok (errMsg msg.header .inProgress, r, msg.frames.emit m ++ rest') := by
  have hpl : ∀ it ∈ msgs.map OutgoingMessage.frames, ∃ pl, it.msg.payload = some pl ∧
      pl.length ≤ max.toNat := by
    intro it hmem
    obtain ⟨msg, hmsg, rfl⟩ := List.mem_map.mp hmem
    exact hmsgs msg hmsg
  have hfresh : ∀ it ∈ msgs.map OutgoingMessage.frames, it.bytesProcessed = 0 := by
    intro it hmem
    obtain ⟨msg, _, rfl⟩ := List.mem_map.mp hmem
    rfl
  obtain ⟨r, hall, ha⟩ := acceptAll_merge kind rest hpl (awaits_of_fresh hfresh) h
  refine ⟨r, hall, ?_⟩
  intro it hmem hpos msg pl rest' hmsg hlen hmulti hne
  rw [(ha.opened it hmem hpos).1]
  exact accept_second hmsg hlen max.toNat_lt hmulti hpos hne kind rest'

def sixBytes : OutgoingMessage := ⟨Header.new .requestPl ⟨0⟩ ⟨1⟩, some [1, 2, 3, 4, 5, 6]⟩

def oneByte : OutgoingMessage := ⟨Header.new .requestPl ⟨0⟩ ⟨2⟩, some [7]⟩

def tenByteFrames : MaxFrameSize := .smallest

/-- A message of one frame between the two frames of another. -/
theorem merged_frames_reassembled_between :
    ∃ merged, Merge tenByteFrames [sixBytes.frames, oneByte.frames] merged [] ∧
    merged.map header = [sixBytes.header, oneByte.header, sixBytes.header] ∧
    ∃ r, MultiframeReceiver.acceptAll tenByteFrames 8 .requestTooLarge .ready (merged.map header)
      (emitAll tenByteFrames merged ++ []) = .ok (reports tenByteFrames [] merged, r) := by
  have hfits : oneByte.frames.Fits tenByteFrames [⟨sixBytes, 5, by decide⟩] := by
    intro _ other hmem _
    cases List.mem_singleton.mp hmem
    decide
  have hm : Merge tenByteFrames ([sixBytes, oneByte].map OutgoingMessage.frames) _ [] :=
    @Merge.next _ [] [oneByte.frames] _ _ sixBytes.frames (by simp [Fits, OutgoingMessage.frames])
      (@Merge.next _ [⟨sixBytes, 5, by decide⟩] [] _ _ oneByte.frames hfits
        (@Merge.next _ [] [] _ _ ⟨sixBytes, 5, by decide⟩ (by simp [Fits]) (.stop [])))
  have hmsgs : ∀ msg ∈ [sixBytes, oneByte], ∃ pl, msg.payload = some pl ∧
      pl.length ≤ UInt32.toNat 8 := by
    intro msg hmem
    simp only [List.mem_cons, List.not_mem_nil, or_false] at hmem
    rcases hmem with rfl | rfl
    · exact ⟨_, rfl, by decide⟩
    · exact ⟨_, rfl, by decide⟩
  obtain ⟨r, hr, _⟩ := merged_frames_reassembled hmsgs hm .requestTooLarge []
  exact ⟨_, hm, rfl, r, hr⟩

end FrameIter

end Juliet
