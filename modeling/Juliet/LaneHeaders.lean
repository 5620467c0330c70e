import Juliet.LaneRuns

namespace Juliet

open Rust

section

variable {N : Nat} {builder : ProtocolBuilder N} {a b : Side N} {ab ba : List FrameIter}
  {it : FrameIter}

/-- A transfer that is open after some frames was open before them or is begun by one of them. -/
theorem origin_of_follow {m : MaxFrameSize} {i : Nat} {its : List FrameIter}
    {r r' : MultiframeReceiver} {header : Header}
    (hr : its.foldlM (FrameIter.follow m i) r = some r') (hin : r'.inProgressHeader = some header) :
    r.inProgressHeader = some header ∨ ∃ it ∈ its, it.startsOn i = true ∧ it.header = header := by
  induction its generalizing r with
  | nil =>
    cases Option.some.inj hr
    exact .inl hin
  | cons it its ih =>
    rw [List.foldlM_cons] at hr
    obtain ⟨r₁, hf, hr⟩ := Option.bind_eq_some_iff.mp hr
    rcases ih hr with hr₁ | ⟨it', hit, hs, hhd⟩
    · by_cases hi : it.header.channel.get.toNat = i
      · rcases FrameIter.passOver_cases (FrameIter.follow_on hi hf).1 with
          ⟨_, _, rfl⟩ | ⟨h0, _, _, hnew⟩ | ⟨_, hold, ⟨_, rfl⟩ | ⟨_, hnew⟩⟩
        · exact .inl hr₁
        · refine .inr ⟨it, by simp, by simp [FrameIter.startsOn, h0, hi], ?_⟩
          exact Option.some.inj (hnew.symm.trans hr₁)
        · simp [MultiframeReceiver.inProgressHeader] at hr₁
        · left
          rw [hold, ← hnew, hr₁]
      · rw [FrameIter.follow, if_neg hi] at hf
        cases Option.some.inj hf
        exact .inl hr₁
    · exact .inr ⟨it', List.mem_cons_of_mem _ hit, hs, hhd⟩

/-- Every frame on its way belongs to a message that is begun on the way or is being received. -/
theorem Lane.origin (hl : Lane builder a b ab ba) (hit : it ∈ ab ++ a.sending) {i : Fin N}
    (hi : it.header.channel.get.toNat = i) :
    (b.chan i).currentMultiframeReceiver.inProgressHeader = some it.header ∨
      ∃ it' ∈ ab ++ a.sending, it'.startsOn i = true ∧ it'.header = it.header := by
  obtain ⟨r, hr, ho⟩ := hl.chain i
  rcases Nat.eq_zero_or_pos it.bytesProcessed with h0 | hpos
  · exact .inr ⟨it, hit, by simp [FrameIter.startsOn, h0, hi], rfl⟩
  · have hfound : ∃ its r₁, its ⊆ ab ∧
        its.foldlM (FrameIter.follow builder.maxFrameSize i) (b.chan i).currentMultiframeReceiver =
            some r₁ ∧
          r₁.inProgressHeader = some it.header := by
      rcases List.mem_append.mp hit with hin | hin
      · obtain ⟨before, after, rfl⟩ := List.append_of_mem hin
        rw [List.foldlM_append] at hr
        obtain ⟨r₁, hr₁, hr⟩ := Option.bind_eq_some_iff.mp hr
        rw [List.foldlM_cons] at hr
        obtain ⟨r₂, hf, _⟩ := Option.bind_eq_some_iff.mp hr
        refine ⟨before, r₁, fun it' h => List.mem_append_left _ h, hr₁, ?_⟩
        rcases FrameIter.passOver_cases (FrameIter.follow_on hi hf).1 with ⟨h0,
          _⟩ | ⟨h0, _⟩ | ⟨_, hold, _⟩
        · omega
        · omega
        · exact hold
      · have hmem : it.transfer ∈ openedBy i a.sending := by
          refine Multiset.mem_coe.mpr (List.mem_map_of_mem (List.mem_filter.mpr ⟨hin, ?_⟩))
          simp [FrameIter.startedOn, hpos, hi]
        rw [← ho] at hmem
        have hre : r = it.transfer := by
          cases r with
          | ready => simp [MultiframeReceiver.opened] at hmem
          | inProgress h p t => exact (Multiset.mem_singleton.mp hmem).symm
        exact ⟨ab, r, fun _ h => h, hr, by rw [hre, FrameIter.header_of_transfer hpos]⟩
    obtain ⟨its, r₁, hsub, hr₁, hin⟩ := hfound
    rcases origin_of_follow hr₁ hin with hopen | ⟨it', hit', hs, hhd⟩
    · exact .inl hopen
    · exact .inr ⟨it', List.mem_append_left _ (hsub hit'), hs, hhd⟩

theorem mem_requestIds {i : Nat} {its : List FrameIter} (hit : it ∈ its) (hs : it.startsOn i = true)
    (hr : it.header.isRequest = true) : it.header.id ∈ requestIds i its :=
  Multiset.mem_coe.mpr (List.mem_map.mpr ⟨it, List.mem_filter.mpr ⟨hit, by simp [hs, hr]⟩, rfl⟩)

theorem mem_answerIds {i : Nat} {its : List FrameIter} (hit : it ∈ its) (hs : it.startsOn i = true)
    (hr : it.header.isAnswer = true) : it.header.id ∈ answerIds i its :=
  Multiset.mem_coe.mpr (List.mem_map.mpr ⟨it, List.mem_filter.mpr ⟨hit, by simp [hs, hr]⟩, rfl⟩)

/-- The request that a frame on its way belongs to is outstanding. -/
theorem Joined.outstanding (h : Joined builder a b ab ba) (hit : it ∈ ab ++ a.sending) {i : Fin N}
    (hi : it.header.channel.get.toNat = i) (hr : it.header.isRequest = true) :
    it.header.id ∈ (a.chan i).outgoingRequests := by
  rw [← Finset.mem_val, h.toward.balanced i]
  rcases h.toward.origin hit hi with hopen | ⟨it', hit', hs, hhd⟩
  · have hin : it.header.id ∈ (b.chan i).incomingRequests.val := by
      rw [h.right.tracked i, MultiframeReceiver.request_of_header hopen, hr]
      simp
    simp only [Multiset.mem_add]
    exact .inl (.inl (.inr hin))
  · have hin := mem_requestIds hit' hs (by rw [hhd, hr])
    rw [hhd] at hin
    simp only [Multiset.mem_add]
    exact .inl (.inl (.inl hin))

/-- The request that an answer on its way is for is no longer registered. -/
theorem Joined.answering (h : Joined builder a b ab ba) (hit : it ∈ ab ++ a.sending) {i : Fin N}
    (hi : it.header.channel.get.toNat = i) (hr : it.header.isAnswer = true) :
    it.header.id ∉ (a.chan i).incomingRequests := by
  intro hmem
  have hnd := (b.chan i).outgoingRequests.nodup
  rw [h.back.balanced i, Multiset.add_assoc, Multiset.nodup_add] at hnd
  refine Multiset.disjoint_left.mp hnd.2.2 (Multiset.mem_add.mpr (.inr hmem)) ?_
  rcases h.toward.origin hit hi with hopen | ⟨it', hit', hs, hhd⟩
  · refine Multiset.mem_add.mpr (.inr ?_)
    rw [MultiframeReceiver.answer_of_header hopen, hr]
    simp
  · have hin := mem_answerIds hit' hs (by rw [hhd, hr])
    rw [hhd] at hin
    exact Multiset.mem_add.mpr (.inl hin)

end

end Juliet
