import Juliet.CouplingSteps

namespace Juliet

open Rust

theorem readsUnder_eq_nil {header : Header} {reads : List CompletedRead}
    (h : ∀ read ∈ reads, read.header ≠ header) :
    readsUnder header reads = [] := by
  rw [readsUnder, List.filter_eq_nil_iff]
  intro read hin
  simpa using h read hin

/-- Reads under different headers may change places. -/
theorem readsUnder_comm (header : Header) {header' : Header} {reads more : List CompletedRead}
    (h : ∀ read ∈ reads, read.header = header') (h' : ∀ read ∈ more, read.header ≠ header') :
    readsUnder header (reads ++ more) = readsUnder header (more ++ reads) := by
  rw [readsUnder_append, readsUnder_append]
  by_cases he : header = header'
  · have hnil : readsUnder header more = [] := readsUnder_eq_nil fun read hin => he ▸ h' read hin
    rw [hnil, List.append_nil, List.nil_append]
  · have hnil : readsUnder header reads = [] :=
      readsUnder_eq_nil fun read hin hc => he (hc.symm.trans (h read hin))
    rw [hnil, List.append_nil, List.nil_append]

namespace IoCore

variable {N : Nat} {self c : IoCore N} {i : Fin N} {builder : ProtocolBuilder N} {peer : Side N}
  {reads : List CompletedRead} {ab ba : List FrameIter} {pipe : Bytes}
  {reported : Fin N → Finset Id} {m : MaxFrameSize} {entry entry' : ReadyEntry}
  {rest : List ReadyEntry}

theorem Sound.ready_read (h : self.Sound) (he : entry ∈ self.readyQueue) :
    ∀ read ∈ entry.frames.msg.asRead, read.header = entry.frames.header := by
  obtain ⟨sent, hs, hmsg⟩ := h.ready entry he
  have hannounced := (h.made sent (List.mem_of_getElem? hs)).announced
  rw [hmsg, hannounced.1, FrameIter.header, hmsg]
  exact hannounced.2

theorem Sound.ready_headerOf (h : self.Sound) (he : entry ∈ self.readyQueue) :
    self.headerOf entry.serial = some entry.frames.header := by
  obtain ⟨sent, hs, hmsg⟩ := h.ready entry he
  rw [headerOf, hs, FrameIter.header, hmsg]
  rfl

theorem Sound.ready_multiOn (h : self.Sound) (he : entry ∈ self.readyQueue)
    (hm : entry.frames.msg.isMultiFrame self.juliet.maxFrameSize = true)
    (hi : entry.frames.header.channel.get.toNat = i) :
    self.multiOn i entry.serial = true := by
  obtain ⟨sent, hs, hmsg⟩ := h.ready entry he
  rw [FrameIter.header, hmsg] at hi
  rw [hmsg] at hm
  simp [multiOn, hs, hm, hi]

namespace Tidy

/-- A message with frames to come has several. -/
theorem several (h : self.Tidy m ab) (he : entry ∈ self.readyQueue)
    (hn : (entry.frames.nextOwned m).2 ≠ none) :
    entry.frames.msg.isMultiFrame m = true := by
  rcases Nat.eq_zero_or_pos entry.frames.bytesProcessed with h0 | hpos
  · have hfresh : entry.frames = entry.frames.msg.frames := FrameIter.ext rfl h0
    rw [hfresh] at hn
    exact (OutgoingMessage.isMultiFrame_iff _ m).mpr hn
  · exact h.begun entry he hpos

/-- The entries behind the first one are of other messages. -/
theorem apart (h : self.Tidy m ab) (hq : self.readyQueue = entry :: rest) (he : entry' ∈ rest) :
    entry'.serial ≠ entry.serial := by
  have hone := h.exclusive.lined.once
  rw [hq, List.map_cons, List.nodup_cons] at hone
  intro hc
  exact hone.1 (hc ▸ List.mem_map_of_mem he)

theorem ready_flight (he : entry ∈ self.readyQueue) : entry.serial ∈ self.flight :=
  mem_flight.mpr (.inr (List.mem_map_of_mem he))

theorem header_apart (h : self.Tidy m ab) (hq : self.readyQueue = entry :: rest)
    (he : entry' ∈ rest) :
    entry'.frames.header ≠ entry.frames.header := by
  have hin : entry ∈ self.readyQueue := hq ▸ List.mem_cons_self
  have hin' : entry' ∈ self.readyQueue := hq ▸ List.mem_cons_of_mem _ he
  intro hc
  refine h.apart hq he (h.exclusive.distinct _ (ready_flight hin') _ (ready_flight hin) ?_)
  rw [h.sound.ready_headerOf hin', h.sound.ready_headerOf hin, hc]

/-- The first message of the ready queue may send its next frame. -/
theorem maySend (h : self.Tidy m ab) (hq : self.readyQueue = entry :: rest)
    (hch : ∃ i : Fin N, entry.frames.header.channel.get.toNat = i) :
    MaySend m entry.frames (rest.map ReadyEntry.frames) := by
  have hin : entry ∈ self.readyQueue := hq ▸ List.mem_cons_self
  constructor
  · intro _ hn it hit
    obtain ⟨entry', he, rfl⟩ := List.mem_map.mp hit
    have hin' : entry' ∈ self.readyQueue := hq ▸ List.mem_cons_of_mem _ he
    obtain ⟨i, hi⟩ := hch
    by_contra hstarted
    simp only [FrameIter.startedOn, Bool.not_eq_false, Bool.and_eq_true, decide_eq_true_eq,
      beq_iff_eq] at hstarted
    have hmulti := h.sound.ready_multiOn hin (by rw [h.frameSize]; exact h.several hin hn) hi
    have hmulti' := h.sound.ready_multiOn hin'
      (by rw [h.frameSize]; exact h.begun entry' hin' hstarted.1)
      (hstarted.2.trans hi)
    exact h.apart hq he (h.exclusive.unique (ready_flight hin') (ready_flight hin) hmulti' hmulti)
  · intro hk
    refine absurd hk (h.plain entry.frames (List.mem_append_right _ ?_))
    exact List.mem_map_of_mem hin

end Tidy

/-- Handing out a frame changes nothing under any header: its message is complete with the frame, or
goes behind messages with other headers. -/
theorem Conveyed.handOut (h : self.Conveyed m reads ab) (ht : self.Tidy m ab)
    (hq : self.readyQueue = entry :: rest) (hh : c.history = self.history)
    (hsending : c.sending = rest.map ReadyEntry.frames ++ (entry.frames.nextOwned m).2.toList) :
    c.Conveyed m reads (ab ++ [entry.frames]) := by
  have hin : entry ∈ self.readyQueue := hq ▸ List.mem_cons_self
  intro header
  have hold := h header
  rw [sending, hq, List.map_cons, ← List.singleton_append, List.filterMap_append] at hold
  rw [hh, ← hold, hsending, List.filterMap_append, List.filterMap_append]
  cases hn : (entry.frames.nextOwned m).2 with
  | none =>
    have hlast : [entry.frames].filterMap (FrameIter.completes m) = [entry.frames].filterMap
        fun it => it.msg.asRead := by
      rw [List.filterMap_cons, List.filterMap_cons, FrameIter.completes, if_pos hn]
      rfl
    rw [hlast, Option.toList_none, List.filterMap_nil, List.append_nil, ← List.append_assoc,
      ← List.append_assoc]
  | some next =>
    have hfirst : ∀ read ∈ [entry.frames].filterMap (fun it => it.msg.asRead), read.header =
        entry.frames.header := by
      intro read hread
      obtain ⟨it, hit, hr⟩ := List.mem_filterMap.mp hread
      rw [List.mem_singleton.mp hit] at hr
      exact ht.sound.ready_read hin read hr
    have hrest : ∀ read ∈ (rest.map ReadyEntry.frames).filterMap (fun it => it.msg.asRead),
        read.header ≠ entry.frames.header := by
      intro read hread
      obtain ⟨it, hit, hr⟩ := List.mem_filterMap.mp hread
      obtain ⟨entry', he, rfl⟩ := List.mem_map.mp hit
      rw [ht.sound.ready_read (hq ▸ List.mem_cons_of_mem _ he) read hr]
      exact ht.header_apart hq he
    have hnext : [next].filterMap (fun it => it.msg.asRead) = [entry.frames].filterMap
        fun it => it.msg.asRead := by
      rw [List.filterMap_cons, List.filterMap_cons, (FrameIter.nextOwned_some hn).1]
    have hnone : [entry.frames].filterMap (FrameIter.completes m) = [] := by
      simp [FrameIter.completes, hn]
    rw [hnone, List.append_nil, Option.toList_some, hnext, readsUnder_append header _ (_ ++ _),
      ← readsUnder_comm header hfirst hrest, ← readsUnder_append]

namespace Coupled

theorem channel (h : Coupled builder peer reads ab ba pipe reported self)
    (he : entry ∈ self.readyQueue) :
    ∃ i : Fin N, entry.frames.header.channel.get.toNat = i := by
  obtain ⟨i, channel, id, kind, hi, hs⟩ :=
    h.joined.toward.sendable entry.frames (List.mem_append_right _ (List.mem_map_of_mem he))
  exact ⟨i, by rw [FrameIter.header, hs.header, Header.new_channel, hi]⟩

/-- The first message of the ready queue hands out its next frame. -/
theorem handOut (h : Coupled builder peer reads ab ba pipe reported self) {queue : List ReadyEntry}
    {current : CurrentFrame}
    (hs : ReadyStep self { self with readyQueue := queue, currentFrame := some current })
    (hnone : self.currentFrame = none) (hq : self.readyQueue = entry :: rest)
    (hcurrent : current.frame = (entry.frames.nextOwned builder.maxFrameSize).1)
    (hqueue : queue = rest ++
      ((entry.frames.nextOwned builder.maxFrameSize).2.map (ReadyEntry.mk entry.serial)).toList) :
    Coupled builder peer reads (ab ++ [entry.frames]) ba pipe reported
      { self with readyQueue := queue, currentFrame := some current } := by
  have ht := h.tidy
  have hin : entry ∈ self.readyQueue := hq ▸ List.mem_cons_self
  have hold : self.sending = entry.frames :: rest.map ReadyEntry.frames := by
    rw [sending, hq, List.map_cons]
  have hsending : queue.map ReadyEntry.frames =
      rest.map ReadyEntry.frames ++ (entry.frames.nextOwned builder.maxFrameSize).2.toList := by
    rw [hqueue, List.map_append]
    cases (entry.frames.nextOwned builder.maxFrameSize).2 <;> rfl
  have hplain : ∀ it ∈ queue.map ReadyEntry.frames, it.header.kind ≠ .ok .cancelReq := by
    intro it hit
    rw [hsending, List.mem_append, Option.mem_toList] at hit
    rcases hit with hit | hit
    · exact ht.plain it (List.mem_append_right _ (hold ▸ List.mem_cons_of_mem _ hit))
    · rw [(FrameIter.nextOwned_some hit).2.1]
      exact ht.plain entry.frames (List.mem_append_right _ (hold ▸ List.mem_cons_self))
  refine ⟨?_, ⟨ht.sound.readyStep hs, ht.noError, ht.exclusive.readyStep hs,
    ht.frameSize, ?_, ?_, ?_⟩, ?_⟩
  · have hsend := h.joined.send (hold ▸ List.Perm.refl _) (hsending ▸ List.perm_append_comm)
      (ht.maySend hq (h.channel hin))
    have hstream : (self.side pipe reported).stream = pipe := by simp [side, pendingBytes, hnone]
    rw [hstream, FrameIter.emit, ← hcurrent] at hsend
    exact hsend
  · intro entry' he hpos
    rw [hqueue, List.mem_append, Option.mem_toList, Option.map_eq_some_iff] at he
    rcases he with he | ⟨next, hn, rfl⟩
    · exact ht.begun entry' (hq ▸ List.mem_cons_of_mem _ he) hpos
    · rw [(FrameIter.nextOwned_some hn).1]
      exact ht.several hin (by simp [hn])
  · intro current' hc
    cases Option.some.inj hc
    rw [hcurrent]
    refine ⟨?_, entry.frames, by simp, by rw [FrameIter.nextOwned_header]⟩
    intro hnil
    have hlen := entry.frames.emit_length_pos builder.maxFrameSize
    rw [FrameIter.emit, hnil] at hlen
    simp at hlen
  · intro it hit
    rw [List.append_assoc, List.mem_append, List.singleton_append, List.mem_cons] at hit
    rcases hit with hit | rfl | hit
    · exact ht.plain it (List.mem_append_left _ hit)
    · exact ht.plain entry.frames (List.mem_append_right _ (hold ▸ List.mem_cons_self))
    · exact hplain it hit
  · exact h.conveyed.handOut ht hq rfl hsending

theorem readyStep (h : Coupled builder peer reads ab ba pipe reported self)
    (hs : ReadyStep self c) :
    ∃ ab', Coupled builder peer reads ab' ba pipe reported c := by
  have hm := h.tidy.frameSize
  cases hs with
  | busy _ _ => exact ⟨ab, h⟩
  | empty _ _ => exact ⟨ab, h⟩
  | more entry rest next hnone hq hn =>
    refine ⟨_, h.handOut (.more entry rest next hnone hq hn) hnone hq (by rw [hm]) ?_⟩
    rw [hm] at hn
    simp [hn]
  | final entry rest hnone hq hn =>
    refine ⟨_, h.handOut (.final entry rest hnone hq hn) hnone hq (by rw [hm]) ?_⟩
    rw [hm] at hn
    simp [hn]

/-- The last byte of the frame at hand is written. -/
theorem cleared {current : CurrentFrame} (h : Coupled builder peer reads ab ba pipe reported self)
    (hc : self.currentFrame = some current) (hi : current.frame.header.channel.get.toNat = i) :
    Coupled builder peer reads ab ba (pipe ++ current.frame.bytes) reported
      (self.cleared current i) := by
  have ht := h.tidy
  have hside : (self.cleared current i).side (pipe ++ current.frame.bytes) reported =
      self.side pipe reported := by
    simp only [side, pendingBytes, IoCore.cleared, hc, Option.map_none,
      Option.map_some, Option.getD_none, Option.getD_some, List.append_nil]
    rfl
  exact ⟨hside ▸ h.joined,
    { ht with
      sound := ht.sound.cleared current i
      exclusive := ht.exclusive.cleared ht.sound hc hi
      current := by simp [IoCore.cleared] },
    h.conveyed⟩

end Coupled

end IoCore

/-- The writer takes some bytes of the frame at hand, but not all. -/
theorem IoTask.coupled_currentWritten {N : Nat} {t : IoTask N} {builder : ProtocolBuilder N}
    {peer : Side N} {reads : List CompletedRead} {ab ba : List FrameIter} {pipe : Bytes}
    {reported : Fin N → Finset Id} {current : CurrentFrame} {k : Nat}
    (h : t.core.Coupled builder peer reads ab ba pipe reported)
    (hc : t.core.currentFrame = some current) (hk : k < current.frame.remaining) :
    (t.currentWritten current k).core.Coupled builder peer reads ab ba
      (pipe ++ current.frame.bytes.take k) reported := by
  have ht := h.tidy
  obtain ⟨hwell, _⟩ := ht.sound.current current hc
  have hside : (t.currentWritten current k).core.side
      (pipe ++ current.frame.bytes.take k) reported =
      t.core.side pipe reported := by
    simp only [IoCore.side, IoCore.pendingBytes, currentWritten, hc,
      Option.map_some, Option.getD_some, hwell.bytes_advance, List.append_assoc,
      List.take_append_drop]
    rfl
  have hflight : (t.currentWritten current k).core.flight = t.core.flight := by
    simp [IoCore.flight, currentWritten, hc]
  refine ⟨hside ▸ h.joined,
    { ht with
      sound := sound_currentWritten ht.sound hc k
      exclusive :=
        ht.exclusive.congr (lined_currentWritten ht.exclusive.lined hc)
        (fun k' => by rw [hflight]) rfl rfl rfl
      current := ?_ },
    h.conveyed⟩
  intro current' hc'
  cases Option.some.inj hc'
  obtain ⟨_, it, hit, hhd⟩ := ht.current current hc
  refine ⟨?_, it, hit, hhd.trans (header_advance _ _).symm⟩
  show (current.frame.advance k).bytes ≠ []
  rw [hwell.bytes_advance]
  intro hnil
  have hlen := congrArg List.length hnil
  rw [List.length_drop, hwell.bytes_length, List.length_nil] at hlen
  omega

end Juliet
