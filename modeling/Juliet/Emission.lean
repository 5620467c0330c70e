import Juliet.Flight
import Juliet.FrameCount

namespace Juliet

open Rust

/-- Pairing with the first of two lists, and what is left for the second. -/
theorem zip_append_split {α β : Type} (as : List α) {bs : List α} {cs : List β}
    (h : as.length + bs.length = cs.length) :
    ∃ rest, (as ++ bs).zip cs = as.zip cs ++ rest ∧ rest.map Prod.fst = bs := by
  induction as generalizing cs with
  | nil => exact ⟨bs.zip cs, rfl, List.map_fst_zip (by simp at h; omega)⟩
  | cons a as ih =>
    cases cs with
    | nil => simp at h
    | cons c cs =>
      have hlen : as.length + bs.length = cs.length := by
        simp at h
        omega
      obtain ⟨rest, hz, hr⟩ := ih hlen
      exact ⟨rest, by simp [hz], hr⟩

namespace IoCore

variable {N : Nat} {self c : IoCore N} {k : Nat}

/-- The frames of a message that stand in the ready queue. -/
def readyFrames (self : IoCore N) (k : Nat) : List OutgoingFrame :=
  (self.readyQueue.filter fun entry => entry.serial = k).flatMap
    fun entry => entry.frames.upcoming self.juliet.maxFrameSize

/-- The frames of a message of which nothing has been written. -/
def coming (self : IoCore N) (k : Nat) : List OutgoingFrame :=
  ((self.currentFrame.filter fun current => current.serial = k ∧ current.frame.position = 0).map
    CurrentFrame.frame).toList ++ self.readyFrames k

theorem readyFrames_eq_nil :
    self.readyFrames k = [] ↔ k ∉ self.readyQueue.map ReadyEntry.serial := by
  simp only [readyFrames, List.flatMap_eq_nil_iff, List.mem_filter, decide_eq_true_eq, List.mem_map,
    not_exists, not_and]
  constructor
  · intro h entry he hk
    have hpos := entry.frames.upcoming_pos self.juliet.maxFrameSize
    rw [h entry ⟨he, hk⟩] at hpos
    simp at hpos
  · intro h entry he
    exact absurd he.2 (h entry he.1)

/-- The frames begun and those to come are together the frames of the message. -/
def Whole (begun : List (Nat × OutgoingFrame)) (core : IoCore N) : Prop :=
  ∀ k sent, core.history[k]? = some sent →
    ((begun.filter fun pair => pair.1 = k).map Prod.snd) ++ core.coming k =
      sent.msg.frameList core.juliet.maxFrameSize

namespace Whole

variable {begun : List (Nat × OutgoingFrame)}

theorem makes (h : Whole begun self) (hl : self.Lined)
    (hb : ∀ pair ∈ begun, pair.1 < self.history.length) (hs : Makes self c) : Whole begun c := by
  intro k sent hk
  cases hs with
  | idle c hq hc _ hh hm =>
    rw [hh] at hk
    have := h k sent hk
    rwa [coming, readyFrames, ← hq, ← hc, ← hm] at this
  | create i item msg juliet requestMap hm _ _ =>
    rw [created_history] at hk
    rw [coming, readyFrames, created_readyQueue, created_currentFrame, created_juliet,
      hm, List.filter_append, List.flatMap_append]
    rcases Nat.lt_trichotomy k self.history.length with hlt | heq | hgt
    · rw [List.getElem?_append_left hlt] at hk
      have hne : self.history.length ≠ k := by omega
      simpa [hne, coming, readyFrames] using h k sent hk
    · -- nothing of a new message is begun, and all of it is in the ready queue
      subst heq
      have hsent : sent = ⟨item, msg⟩ := by simpa using hk.symm
      have hnew : ∀ pair ∈ begun, ¬ pair.1 = self.history.length := by
        intro pair hp
        have := hb pair hp
        omega
      have hready : ∀ entry ∈ self.readyQueue, ¬ entry.serial = self.history.length := by
        intro entry he
        have := hl.numbered entry.serial (mem_flight.mpr (.inr (List.mem_map_of_mem he)))
        omega
      have hcurrent : self.currentFrame.filter
          (fun current => current.serial = self.history.length ∧ current.frame.position = 0) =
            none := by
        rw [Option.filter_eq_none_iff]
        intro current hc
        have := hl.numbered current.serial (mem_flight.mpr (.inl ⟨current, hc, rfl⟩))
        simp
        omega
      have hb' : begun.filter (fun pair => pair.1 = self.history.length) = [] :=
        List.filter_eq_nil_iff.mpr fun pair hp => by simpa using hnew pair hp
      have hr' : self.readyQueue.filter (fun entry => entry.serial = self.history.length) = [] :=
        List.filter_eq_nil_iff.mpr fun entry he => by simpa using hready entry he
      rw [hcurrent, hb', hr', hsent]
      simp [OutgoingMessage.frameList]
    · rw [List.getElem?_eq_none (by simp; omega)] at hk
      simp at hk

theorem readyStep (h : Whole begun self) (hl : self.Lined) (hs : ReadyStep self c) :
    Whole begun c := by
  intro k sent hk
  have hmoved : ∀ {entry rest}, self.readyQueue = entry :: rest → entry.serial = k →
      rest.filter (fun entry => entry.serial = k) = [] := by
    rintro entry rest hq rfl
    have hone := hl.once
    rw [hq, List.map_cons, List.nodup_cons] at hone
    refine List.filter_eq_nil_iff.mpr ?_
    intro other ho he
    exact hone.1 (List.mem_map.mpr ⟨other, ho, by simpa using he⟩)
  cases hs with
  | busy _ _ => exact h k sent hk
  | empty _ _ => exact h k sent hk
  | more entry rest next hnone hq hn =>
    rw [← h k sent hk]
    simp only [coming, readyFrames, hnone, hq]
    by_cases he : entry.serial = k
    · simp [he, hmoved hq he, FrameIter.upcoming_of_some hn, FrameIter.nextOwned_position,
        Option.filter]
    · simp [he, Option.filter]
  | final entry rest hnone hq hn =>
    rw [← h k sent hk]
    simp only [coming, readyFrames, hnone, hq]
    by_cases he : entry.serial = k
    · simp [he, hmoved hq he, FrameIter.upcoming_of_none hn, FrameIter.nextOwned_position,
        Option.filter]
    · simp [he, Option.filter]

theorem made (hs : Relation.ReflTransGen Makes self c) (h : Whole begun self) (hl : self.Lined)
    (hb : ∀ pair ∈ begun, pair.1 < self.history.length) : Whole begun c := by
  have hall : Whole begun c ∧ c.Lined := by
    induction hs with
    | refl => exact ⟨h, hl⟩
    | tail hs hstep ih =>
      obtain ⟨new, hh, _⟩ := made_grows hs
      refine ⟨ih.1.makes ih.2 ?_ hstep, ih.2.makes hstep⟩
      intro pair hp
      rw [hh, List.length_append]
      exact Nat.lt_add_right _ (hb pair hp)
  exact hall.1

/-- The current frame is begun, if it was not before. -/
theorem began {current : CurrentFrame} (h : Whole begun self)
    (hc : self.currentFrame = some current)
    (hc' : ∀ current ∈ c.currentFrame, 0 < current.frame.position)
    (hq : c.readyQueue = self.readyQueue) (hh : c.history = self.history)
    (hm : c.juliet.maxFrameSize = self.juliet.maxFrameSize) :
    Whole (begun ++ if current.frame.position = 0 then [(current.serial, current.frame)] else [])
      c := by
  intro k sent hk
  rw [hh] at hk
  have hwhole := h k sent hk
  have hnone : c.currentFrame.filter
      (fun current => current.serial = k ∧ current.frame.position = 0) = none := by
    rw [Option.filter_eq_none_iff]
    intro current' hc''
    have := hc' current' hc''
    simp
    omega
  rw [coming, hnone, readyFrames, hq, hm, ← hwhole, coming, hc, readyFrames]
  by_cases hz : current.frame.position = 0
  · by_cases hs : current.serial = k
    · simp [hz, hs, Option.filter]
    · simp [hz, hs, Option.filter]
  · simp [hz, Option.filter]

end Whole

end IoCore

namespace IoTask

variable {N : Nat} {t t' : IoTask N}

/-- The frames of which bytes have been written, with the serials of their messages. -/
def begunFrames (t : IoTask N) : List (Nat × OutgoingFrame) := t.writtenSerials.zip t.begun

/-- The frames of a message of which bytes have been written, in order. -/
def writtenFrames (t : IoTask N) (k : Nat) : List OutgoingFrame :=
  (t.begunFrames.filter fun pair => pair.1 = k).map Prod.snd

/-- The frames of a message that have been written to their last byte, in order. -/
def completeFrames (t : IoTask N) (k : Nat) : List OutgoingFrame :=
  (((t.sentFrames.map Prod.fst).zip t.begun).filter fun pair => pair.1 = k).map Prod.snd

/-- The invariant of runs without an error: every message is sent frame by frame. -/
structure Emitting (t : IoTask N) : Prop where
  sound : t.core.Sound
  noError : t.core.pendingError = none
  lined : t.core.Lined
  aligned : t.writtenSerials.length = t.begun.length
  numbered : ∀ k ∈ t.writtenSerials, k < t.core.history.length
  whole : t.core.Whole t.begunFrames

theorem Progress.written_lt (hp : Progress t t') (hl : t.core.Lined)
    (hnum : ∀ k ∈ t.writtenSerials, k < t.core.history.length) :
    ∀ k ∈ t'.writtenSerials, k < t'.core.history.length := by
  obtain ⟨new, hh⟩ := hp.history
  intro k hk
  rw [hh, List.length_append]
  refine Nat.lt_add_right _ ?_
  rcases hp.written with hw | ⟨current, hc, hw⟩
  · exact hnum k (hw ▸ hk)
  · rw [hw, List.mem_append, List.mem_singleton] at hk
    rcases hk with hk | rfl
    · exact hnum k hk
    · exact hl.numbered _ (IoCore.mem_flight.mpr (.inl ⟨current, hc, rfl⟩))

namespace Emitting

theorem begun_lt (h : Emitting t) : ∀ pair ∈ t.begunFrames, pair.1 < t.core.history.length :=
  fun _ hp => h.numbered _ (List.of_mem_zip hp).1

/-- Bytes of the current frame are written: it counts as begun from the first one. -/
theorem begunFrames_eq {current : CurrentFrame} (h : Emitting t)
    (hc : t.core.currentFrame = some current)
    (hw : t'.writtenSerials = t.sentFrames.map Prod.fst ++ [current.serial])
    (hb : t'.begun = begin t.begun current.frame) :
    t'.writtenSerials.length = t'.begun.length ∧ t'.begunFrames =
      t.begunFrames ++ if current.frame.position = 0 then [(current.serial, current.frame)]
        else [] := by
  rw [← writtenSerials_begin hc] at hw
  have hal := h.aligned
  rw [begunFrames, hw, hb, begin, begunFrames]
  by_cases hz : current.frame.position = 0
  · simp only [hz, if_true]
    rw [List.zip_append hal]
    exact ⟨by simp [hal], rfl⟩
  · simp [hz, hal]

theorem effect (h : Emitting t) (he : Effect t t') :
    t'.core.Lined ∧ t'.writtenSerials.length = t'.begun.length ∧
    t'.core.Whole t'.begunFrames := by
  have hsame : t'.writtenSerials = t.writtenSerials → t'.begun = t.begun →
      t'.writtenSerials.length = t'.begun.length ∧ t'.begunFrames = t.begunFrames := by
    intro hw hb
    rw [begunFrames, begunFrames, hw, hb]
    exact ⟨h.aligned, rfl⟩
  cases he with
  | made hs hb hsent =>
    obtain ⟨_, _, _, hc, _⟩ := IoCore.made_grows hs
    obtain ⟨hal, hbegun⟩ := hsame (by rw [writtenSerials, writtenSerials, hc, hsent]) hb
    rw [hbegun]
    exact ⟨h.lined.made hs, hal, h.whole.made hs h.lined h.begun_lt⟩
  | readied c hs hready hb hsent =>
    obtain ⟨_, _, _, hc, _⟩ := IoCore.made_grows hs
    obtain ⟨hal, hbegun⟩ := hsame (writtenSerials_ready hready hc hsent) hb
    have hl := h.lined.made hs
    rw [hbegun]
    exact ⟨hl.readyStep hready, hal, (h.whole.made hs h.lined h.begun_lt).readyStep hl hready⟩
  | wrote current k hc h0 hcore hb hsent =>
    obtain ⟨hal, hbegun⟩ := h.begunFrames_eq hc (writtenSerials_wrote h0 hcore hsent) hb
    rw [hbegun, hcore]
    refine ⟨lined_currentWritten h.lined hc, hal, h.whole.began hc ?_ rfl rfl rfl⟩
    intro current' hc'
    cases Option.some.inj hc'
    exact OutgoingFrame.advance_position h0
  | sent current i hc hi hs hb hsent =>
    obtain ⟨_, _, _, hnone, _⟩ := IoCore.made_grows hs
    obtain ⟨hal, hbegun⟩ := h.begunFrames_eq hc (writtenSerials_sent hnone hsent) hb
    have hcleared : (t.core.cleared current i).Whole t'.begunFrames := by
      rw [hbegun]
      exact h.whole.began hc (by simp [IoCore.cleared]) rfl rfl rfl
    refine ⟨(h.lined.cleared current i).made hs, hal,
      hcleared.made hs (h.lined.cleared current i) ?_⟩
    intro pair hp
    rw [hbegun, List.mem_append] at hp
    rcases hp with hp | hp
    · exact h.begun_lt pair hp
    · split at hp
      next =>
        rw [List.mem_singleton.mp hp]
        exact h.lined.numbered _ (IoCore.mem_flight.mpr (.inl ⟨current, hc, rfl⟩))
      next => simp at hp

theorem step {a : IoAct} (h : Emitting t) (hs : Step t a t') (hp : t'.core.pendingError = none) :
    Emitting t' := by
  have heffect := hs.effect h.sound h.noError hp
  obtain ⟨hl, hal, hw⟩ := h.effect heffect
  exact ⟨hs.sound h.sound, hp, hl, hal, heffect.progress.written_lt h.lined h.numbered, hw⟩

theorem new (builder : ProtocolBuilder N) : Emitting (IoTask.new builder) where
  sound := IoCore.new_sound builder
  noError := rfl
  lined := .new builder
  aligned := rfl
  numbered := by simp [IoTask.new, IoCore.new, writtenSerials]
  whole := by
    intro k sent hk
    simp [IoTask.new, IoCore.new] at hk

/-- Behind the frames that have been sent there is at most the one being written. -/
theorem begunFrames_split (h : Emitting t) : ∃ rest : List (Nat × OutgoingFrame),
    t.begunFrames = (t.sentFrames.map Prod.fst).zip t.begun ++ rest ∧ rest.map Prod.fst =
      ((t.core.currentFrame.filter fun current => 0 < current.frame.position).map
        CurrentFrame.serial).toList := by
  have hal := h.aligned
  rw [writtenSerials, List.length_append] at hal
  exact zip_append_split _ hal

/-- What is missing of a message in flight has not been written to its end. -/
theorem complete_iff {k : Nat} {sent : Sent} (h : Emitting t)
    (hk : t.core.history[k]? = some sent) :
    t.completeFrames k = sent.msg.frameList t.core.juliet.maxFrameSize ↔ k ∉ t.core.flight := by
  obtain ⟨rest, hsplit, hrest⟩ := h.begunFrames_split
  have hwhole := h.whole k sent hk
  rw [hsplit, List.filter_append, List.map_append, List.append_assoc] at hwhole
  rw [completeFrames, ← hwhole, List.self_eq_append_right, List.append_eq_nil_iff, IoCore.coming,
    List.append_eq_nil_iff, IoCore.readyFrames_eq_nil, IoCore.mem_flight, not_or, ← and_assoc]
  refine and_congr_left fun _ => ?_
  -- the current frame is in the rest if it is begun, and to come otherwise
  have hfilter : (rest.filter fun pair => pair.1 = k).map Prod.snd = [] ↔
      k ∉ rest.map Prod.fst := by
    simp only [List.map_eq_nil_iff, List.filter_eq_nil_iff, decide_eq_true_eq, List.mem_map,
      not_exists, not_and]
  rw [hfilter, hrest]
  cases hc : t.core.currentFrame with
  | none => simp
  | some current =>
    by_cases hz : current.frame.position = 0
    · simp [Option.filter, hz]
    · have hpos : 0 < current.frame.position := by omega
      simp [Option.filter, hz, hpos, eq_comm]

theorem written_isPrefix {k : Nat} {sent : Sent} (h : Emitting t)
    (hk : t.core.history[k]? = some sent) :
    t.writtenFrames k <+: sent.msg.frameList t.core.juliet.maxFrameSize :=
  ⟨_, h.whole k sent hk⟩

end Emitting

end IoTask

end Juliet
