import Juliet.Flight

namespace Juliet

open Rust

namespace IoCore

variable {N : Nat} {self c : IoCore N} {i j : Fin N} {k : Nat}

/-- Whether the message with this serial is sent on the channel in several frames. -/
def multiOn (self : IoCore N) (i : Fin N) (k : Nat) : Bool :=
  self.history[k]?.any fun sent =>
    sent.msg.isMultiFrame self.juliet.maxFrameSize && sent.msg.header.channel.get.toNat = i.val

/-- The header of the message with this serial. -/
def headerOf (self : IoCore N) (k : Nat) : Option Header :=
  self.history[k]?.map fun sent => sent.msg.header

/-- The headers of the messages in the ready queue. -/
def readyHeaders (self : IoCore N) : List Header :=
  self.readyQueue.map fun entry => entry.frames.header

/-- The headers of the messages in the ready queue and of the current frame. -/
def flightHeaders (self : IoCore N) : List Header :=
  (self.currentFrame.map fun current => current.frame.header).toList ++ self.readyHeaders

theorem multiOn_append (hh : ∃ new, c.history = self.history ++ new)
    (hm : c.juliet.maxFrameSize = self.juliet.maxFrameSize) (hk : k < self.history.length) :
    c.multiOn i k = self.multiOn i k := by
  obtain ⟨new, hh⟩ := hh
  rw [multiOn, multiOn, hh, hm, List.getElem?_append_left hk]

theorem headerOf_append (hh : ∃ new, c.history = self.history ++ new)
    (hk : k < self.history.length) :
    c.headerOf k = self.headerOf k := by
  obtain ⟨new, hh⟩ := hh
  rw [headerOf, headerOf, hh, List.getElem?_append_left hk]

theorem multiOn_channel {header : Header} (h : self.multiOn i k = true)
    (hk : self.headerOf k = some header) :
    header.channel.get.toNat = i := by
  obtain ⟨sent, hs, hsent⟩ := (Option.any_eq_true _ _).mp h
  rw [headerOf, hs] at hk
  cases Option.some.inj hk
  simp only [Bool.and_eq_true, decide_eq_true_eq] at hsent
  exact hsent.2

theorem created_flightHeaders (i : Fin N) (item : QueuedItem) (msg : OutgoingMessage)
    (juliet : JulietProtocol N) (requestMap : BiMap IoId (ChannelId × Id)) :
    (self.created i item msg juliet requestMap).flightHeaders =
      self.flightHeaders ++ [msg.header] := by
  simp [flightHeaders, readyHeaders, OutgoingMessage.frames, FrameIter.header]

/-- Each frame in flight has the header of its message. -/
def Titled (core : IoCore N) : Prop := core.flight.map core.headerOf = core.flightHeaders.map some

theorem Sound.titled (h : self.Sound) : self.Titled := by
  have hready : self.readyQueue.map (fun entry => self.headerOf entry.serial) =
      self.readyQueue.map (fun entry => some entry.frames.header) := by
    refine List.map_congr_left ?_
    intro entry he
    obtain ⟨sent, hs, hmsg⟩ := h.ready entry he
    simp [headerOf, hs, FrameIter.header, hmsg]
  have hcurrent : self.currentFrame.map (fun current => self.headerOf current.serial) =
      self.currentFrame.map (fun current => some current.frame.header) := by
    cases hc : self.currentFrame with
    | none => rfl
    | some current =>
      obtain ⟨_, sent, hs, hhd⟩ := h.current current hc
      simp [headerOf, hs, hhd]
  simp only [Titled, flight, flightHeaders, readyHeaders, List.map_append, List.map_map,
    Function.comp_def, hready]
  congr 1
  cases hc : self.currentFrame with
  | none => rfl
  | some current => simpa [hc] using hcurrent

theorem Titled.makes (h : self.Titled) (hl : self.Lined) (hs : Makes self c) : c.Titled := by
  cases hs with
  | idle c hq hc _ hh _ =>
    have hheader : c.headerOf = self.headerOf := by
      funext k
      rw [headerOf, headerOf, hh]
    simpa only [Titled, flight, flightHeaders, readyHeaders, hheader, hq, hc] using h
  | create i item msg juliet requestMap _ _ _ =>
    have hold : self.flight.map (self.created i item msg juliet requestMap).headerOf =
        self.flight.map self.headerOf := by
      refine List.map_congr_left ?_
      intro k hk
      exact headerOf_append ⟨_, created_history i item msg juliet requestMap⟩ (hl.numbered k hk)
    rw [Titled, created_flight, created_flightHeaders, List.map_append, List.map_append, hold, h]
    simp [headerOf]

/-- At most one message of several frames is in flight on a channel, and it is the active one. -/
structure Exclusive (core : IoCore N) : Prop where
  lined : core.Lined
  distinct : ∀ k ∈ core.flight, ∀ k' ∈ core.flight, core.headerOf k = core.headerOf k' → k = k'
  active : ∀ i header, core.activeMultiFrame i = some header ↔
    ∃ k ∈ core.flight, core.multiOn i k = true ∧ core.headerOf k = some header

namespace Exclusive

theorem unique {k' : Nat} (h : self.Exclusive) (hk : k ∈ self.flight) (hk' : k' ∈ self.flight)
    (hm : self.multiOn i k = true) (hm' : self.multiOn i k' = true) : k = k' := by
  have hheader : ∀ {k}, self.multiOn i k = true → ∃ header, self.headerOf k = some header := by
    intro k hm
    obtain ⟨sent, hs, _⟩ := (Option.any_eq_true _ _).mp hm
    exact ⟨sent.msg.header, by simp [headerOf, hs]⟩
  obtain ⟨header, hh⟩ := hheader hm
  obtain ⟨header', hh'⟩ := hheader hm'
  have ha := (h.active i header).mpr ⟨k, hk, hm, hh⟩
  have ha' := (h.active i header').mpr ⟨k', hk', hm', hh'⟩
  rw [ha] at ha'
  refine h.distinct k hk k' hk' ?_
  rw [hh, hh', ha']

/-- Nothing but the order of the messages in flight changes. -/
theorem congr (h : self.Exclusive) (hl : c.Lined) (hf : ∀ k, k ∈ c.flight ↔ k ∈ self.flight)
    (ha : c.activeMultiFrame = self.activeMultiFrame) (hh : c.history = self.history)
    (hm : c.juliet.maxFrameSize = self.juliet.maxFrameSize) : c.Exclusive where
  lined := hl
  distinct := by
    intro k hk k' hk' he
    rw [headerOf, headerOf, hh] at he
    exact h.distinct k ((hf k).mp hk) k' ((hf k').mp hk') he
  active := by
    intro i header
    simp only [ha, h.active i header, hf, multiOn, headerOf, hh, hm]

theorem created {item : QueuedItem} {msg : OutgoingMessage} {juliet : JulietProtocol N}
    {requestMap : BiMap IoId (ChannelId × Id)} (h : self.Exclusive)
    (htitled : self.Titled) (hnew : msg.header ∉ self.flightHeaders)
    (hm : juliet.maxFrameSize = self.juliet.maxFrameSize) (hi : msg.header.channel.get.toNat = i)
    (hfree : msg.isMultiFrame self.juliet.maxFrameSize = true → self.activeMultiFrame i = none) :
    (self.created i item msg juliet requestMap).Exclusive := by
  have hold : ∀ k ∈ self.flight, (self.created i item msg juliet requestMap).headerOf k =
      self.headerOf k := by
    intro k hk
    exact headerOf_append ⟨_, created_history i item msg juliet requestMap⟩ (h.lined.numbered k hk)
  have hmulti : ∀ j, ∀ k ∈ self.flight, (self.created i item msg juliet requestMap).multiOn j k =
      self.multiOn j k := by
    intro j k hk
    refine multiOn_append ⟨_,
      created_history i item msg juliet requestMap⟩ ?_ (h.lined.numbered k hk)
    rw [created_juliet, hm]
  have hlast : (self.created i item msg juliet requestMap).headerOf self.history.length =
      some msg.header := by
    simp [headerOf]
  have hmultiLast : ∀ j, (self.created i item msg juliet requestMap).multiOn j
      self.history.length = true ↔
      msg.isMultiFrame self.juliet.maxFrameSize = true ∧ j = i := by
    intro j
    simp only [multiOn, created_history, created_juliet, List.getElem?_concat_length,
      Option.any_some, hm, hi, Bool.and_eq_true, decide_eq_true_eq]
    rw [Fin.ext_iff, eq_comm (a := i.val)]
  have hapart : ∀ k ∈ self.flight, self.headerOf k ≠ some msg.header := by
    intro k hk he
    have hmem : some msg.header ∈ self.flight.map self.headerOf := he ▸ List.mem_map_of_mem hk
    rw [htitled] at hmem
    obtain ⟨header, hh, he⟩ := List.mem_map.mp hmem
    cases Option.some.inj he
    exact hnew hh
  refine ⟨h.lined.makes (.create i item msg juliet requestMap hm hi hfree), ?_, ?_⟩
  · intro k hk k' hk' he
    rw [created_flight, List.mem_append, List.mem_singleton] at hk hk'
    rcases hk with hk | rfl
    · rw [hold k hk] at he
      rcases hk' with hk' | rfl
      · rw [hold k' hk'] at he
        exact h.distinct k hk k' hk' he
      · rw [hlast] at he
        exact absurd he (hapart k hk)
    · rcases hk' with hk' | rfl
      · rw [hold k' hk', hlast] at he
        exact absurd he.symm (hapart k' hk')
      · rfl
  · intro j header
    -- the new message counts where it has several frames, the others as before
    have hsplit : (∃ k ∈ (self.created i item msg juliet requestMap).flight,
        (self.created i item msg juliet requestMap).multiOn j k = true ∧
          (self.created i item msg juliet requestMap).headerOf k = some header) ↔
        (msg.isMultiFrame self.juliet.maxFrameSize = true ∧ j = i) ∧ msg.header = header ∨
          self.activeMultiFrame j = some header := by
      rw [h.active j header]
      constructor
      · rintro ⟨k, hk, hmk, hhk⟩
        rw [created_flight, List.mem_append, List.mem_singleton] at hk
        rcases hk with hk | rfl
        · exact .inr ⟨k, hk, hmulti j k hk ▸ hmk, hold k hk ▸ hhk⟩
        · exact .inl ⟨(hmultiLast j).mp hmk, Option.some.inj (hlast.symm.trans hhk)⟩
      · rintro (⟨hmk, rfl⟩ | ⟨k, hk, hmk, hhk⟩)
        · exact ⟨self.history.length, by simp [created_flight], (hmultiLast j).mpr hmk, hlast⟩
        · refine ⟨k, by simp [created_flight, hk], ?_, ?_⟩
          · rwa [hmulti j k hk]
          · rwa [hold k hk]
    rw [hsplit, created_active, hm]
    by_cases hmsg : msg.isMultiFrame self.juliet.maxFrameSize = true
    · rw [if_pos hmsg]
      by_cases hj : j = i
      · subst hj
        simp [hmsg, hfree hmsg]
      · simp [hj]
    · simp [hmsg]

theorem idle (h : self.Exclusive) (hq : c.readyQueue = self.readyQueue)
    (hc : c.currentFrame = self.currentFrame) (ha : c.activeMultiFrame = self.activeMultiFrame)
    (hh : c.history = self.history) (hm : c.juliet.maxFrameSize = self.juliet.maxFrameSize) :
    c.Exclusive := by
  refine h.congr (h.lined.makes (.idle c hq hc ha hh hm)) ?_ ha hh hm
  intro k
  rw [flight, flight, hq, hc]

/-- Creating messages whose headers are new among those in flight. -/
theorem made (hs : Relation.ReflTransGen Makes self c) (h : self.Exclusive) (htitled : self.Titled)
    {new : List Sent} (hh : c.history = self.history ++ new)
    (hnodup : (new.map fun sent => sent.msg.header).Nodup)
    (hnew : ∀ sent ∈ new, sent.msg.header ∉ self.flightHeaders) : c.Exclusive := by
  induction hs using Relation.ReflTransGen.head_induction_on generalizing new with
  | refl => exact h
  | @head self b hstep hrest ih =>
    have htitled' := htitled.makes h.lined hstep
    cases hstep with
    | idle b hq hc ha hh' hm =>
      refine ih (h.idle hq hc ha hh' hm) htitled' (hh'.symm ▸ hh) hnodup ?_
      rw [flightHeaders, readyHeaders, hq, hc]
      exact hnew
    | create i item msg juliet requestMap hm hi hfree =>
      obtain ⟨more, hmore, _⟩ := made_grows hrest
      have hcons : new = ⟨item, msg⟩ :: more := by
        rw [created_history, hh, List.append_assoc, List.append_cancel_left_eq] at hmore
        exact hmore
      subst hcons
      rw [List.map_cons, List.nodup_cons] at hnodup
      refine ih (h.created htitled (hnew _ List.mem_cons_self) hm hi hfree)
        htitled' hmore hnodup.2 ?_
      intro sent hsent
      rw [created_flightHeaders, List.mem_append, List.mem_singleton, not_or]
      refine ⟨hnew sent (List.mem_cons_of_mem _ hsent), ?_⟩
      intro he
      exact hnodup.1 (he ▸ List.mem_map_of_mem hsent)

theorem readyStep (h : self.Exclusive) (hs : ReadyStep self c) : c.Exclusive := by
  obtain ⟨ha, hh, hj⟩ := hs.rest
  exact h.congr (h.lined.readyStep hs) hs.mem_flight ha hh (by rw [hj])

/-- The current frame is gone: its message stays active unless that was the last of its frames. -/
theorem cleared {current : CurrentFrame} (h : self.Exclusive) (hs : self.Sound)
    (hc : self.currentFrame = some current) (hi : current.frame.header.channel.get.toNat = i) :
    (self.cleared current i).Exclusive := by
  have hflight : ∀ {k}, k ∈ (self.cleared current i).flight ↔
      k ∈ self.readyQueue.map ReadyEntry.serial := by
    intro k
    simp [flight, IoCore.cleared]
  have hback : ∀ {k}, k ∈ (self.cleared current i).flight → k ∈ self.flight :=
    fun hk => mem_flight.mpr (.inr (hflight.mp hk))
  have hheader : self.headerOf current.serial = some current.frame.header := by
    obtain ⟨_, sent, hsent, hhd⟩ := hs.current current hc
    rw [headerOf, hsent, hhd]
    rfl
  refine ⟨h.lined.cleared current i,
    fun k hk k' hk' he => h.distinct k (hback hk) k' (hback hk') he, ?_⟩
  intro j header
  have hactive : self.activeMultiFrame j = some header ↔ ∃ k ∈ self.flight,
      self.multiOn j k = true ∧
      self.headerOf k = some header := h.active j header
  -- the message of the current frame still counts unless its last frame was sent
  have hstays : (∃ k ∈ (self.cleared current i).flight, self.multiOn j k = true ∧
      self.headerOf k = some header) ↔
      self.activeMultiFrame j = some header ∧
        ¬ (current.isFinal = true ∧ self.activeMultiFrame i = some current.frame.header ∧
          j = i) := by
    rw [hactive]
    constructor
    · rintro ⟨k, hk, hmk, hhk⟩
      refine ⟨⟨k, hback hk, hmk, hhk⟩, ?_⟩
      rintro ⟨hfin, ha, rfl⟩
      have he := (h.active j header).mpr ⟨k, hback hk, hmk, hhk⟩
      rw [ha] at he
      rw [← he, ← hheader] at hhk
      have hks := h.distinct k (hback hk) _ (mem_flight.mpr (.inl ⟨current, hc, rfl⟩)) hhk
      exact (h.lined.final current hc).mp hfin (hks ▸ hflight.mp hk)
    · rintro ⟨⟨k, hk, hmk, hhk⟩, hnot⟩
      refine ⟨k, hflight.mpr ?_, hmk, hhk⟩
      rcases mem_flight.mp hk with ⟨current', hc', rfl⟩ | hk'
      · cases Option.some.inj (hc.symm.trans hc')
        by_contra hgone
        rw [hheader] at hhk
        cases Option.some.inj hhk
        have hj : j = i := Fin.ext ((multiOn_channel hmk hheader).symm.trans hi)
        subst hj
        exact hnot ⟨(h.lined.final current hc).mpr hgone, hactive.mpr ⟨_, hk, hmk, hheader⟩, rfl⟩
      · exact hk'
  have hgoal : (self.cleared current i).activeMultiFrame j = some header ↔
      self.activeMultiFrame j = some header ∧
      ¬ (current.isFinal = true ∧ self.activeMultiFrame i = some current.frame.header ∧ j = i) := by
    simp only [IoCore.cleared]
    split
    next hcond =>
      by_cases hj : j = i
      · simp [hj, hcond]
      · simp [hj]
    next hcond =>
      refine ⟨fun ha => ⟨ha, ?_⟩, fun ha => ha.1⟩
      rintro ⟨hfin, ha', _⟩
      exact hcond ⟨hfin, ha'⟩
  rw [hgoal]
  exact hstays.symm

theorem new (builder : ProtocolBuilder N) : (IoCore.new builder).Exclusive where
  lined := .new builder
  distinct := by simp [IoCore.new, flight]
  active := by simp [IoCore.new, flight]

end Exclusive

end IoCore

namespace IoTask

variable {N : Nat} {t t' : IoTask N}

/-- The headers of the messages that a step has created, in order. -/
def createdHeaders (t t' : IoTask N) : List Header :=
  (t'.core.history.drop t.core.history.length).map fun sent => sent.msg.header

/-- The headers in flight when a step creates messages: one that sends a frame does so first. -/
def headersInFlight (t t' : IoTask N) : List Header :=
  if t'.sentFrames = t.sentFrames then t.core.flightHeaders else t.core.readyHeaders

/-- No error is injected, and no message is created with the header of one still in flight. -/
def distinctHeaders (t : IoTask N) (a : IoAct) : Bool :=
  (t.step a).all fun t' => t'.core.pendingError = none ∧ (createdHeaders t t').Nodup ∧
    ∀ header ∈ createdHeaders t t', header ∉ headersInFlight t t'

/-- Between two frames of a message of several frames no other such message of the channel has a
frame written, nor before the frames of it that are still to come. -/
structure Undisturbed (t : IoTask N) : Prop where
  numbered : ∀ k ∈ t.writtenSerials, k < t.core.history.length
  between : ∀ i k k', [k, k', k].Sublist t.writtenSerials → t.core.multiOn i k = true →
    t.core.multiOn i k' = true →
    k' = k
  behind : ∀ i k k', [k, k'].Sublist t.writtenSerials → k ∈ t.core.flight →
    t.core.multiOn i k = true →
    t.core.multiOn i k' = true → k' = k

/-- Where a list ends that holds another one. -/
theorem sublist_concat {α : Type} {l l' : List α} {a b : α} (h : (l ++ [a]).Sublist (l' ++ [b])) :
    (l ++ [a]).Sublist l' ∨ a = b ∧ l.Sublist l' := by
  rcases List.sublist_append_iff.mp h with ⟨l₁, l₂, he, h₁, h₂⟩
  rcases List.sublist_singleton.mp h₂ with rfl | rfl
  · rw [List.append_nil] at he
    exact .inl (he ▸ h₁)
  · obtain ⟨rfl, hab⟩ := List.append_inj' he rfl
    exact .inr ⟨by simpa using hab, h₁⟩

theorem Undisturbed.step (h : Undisturbed t) (hx : t.core.Exclusive) (hp : Progress t t') :
    Undisturbed t' := by
  have hlen : t.core.history.length ≤ t'.core.history.length := by
    obtain ⟨new, hh⟩ := hp.history
    rw [hh, List.length_append]
    exact Nat.le_add_right _ _
  have hmulti : ∀ {i k}, k < t.core.history.length → t'.core.multiOn i k = true →
      t.core.multiOn i k = true := by
    intro i k hk hm
    rwa [IoCore.multiOn_append hp.history hp.maxFrameSize hk] at hm
  have hflight : ∀ {k}, k < t.core.history.length → k ∈ t'.core.flight → k ∈ t.core.flight := by
    intro k hk hf
    refine (hp.flight k hf).resolve_right ?_
    omega
  have hlast : ∀ {l k}, (l ++ [k]).Sublist t'.writtenSerials →
      (l ++ [k]).Sublist t.writtenSerials ∨ k ∈ t.core.flight ∧ l.Sublist t.writtenSerials := by
    intro l k hl
    rcases hp.written with hw | ⟨current, hc, hw⟩
    · exact .inl (hw ▸ hl)
    · rw [hw] at hl
      refine (sublist_concat hl).imp_right ?_
      rintro ⟨rfl, hrest⟩
      exact ⟨IoCore.mem_flight.mpr (.inl ⟨current, hc, rfl⟩), hrest⟩
  have hnum : ∀ k ∈ t'.writtenSerials, k < t.core.history.length := by
    intro k hk
    rcases hlast (l := []) (List.singleton_sublist.mpr hk) with hk | ⟨hk, _⟩
    · exact h.numbered k (List.singleton_sublist.mp hk)
    · exact hx.lined.numbered k hk
  refine ⟨fun k hk => Nat.lt_of_lt_of_le (hnum k hk) hlen, ?_, ?_⟩
  · intro i k k' hl hm hm'
    have hm := hmulti (hnum k (hl.subset (by simp))) hm
    have hm' := hmulti (hnum k' (hl.subset (by simp))) hm'
    rcases hlast (l := [k, k']) hl with hl | ⟨hk, hl⟩
    · exact h.between i k k' hl hm hm'
    · exact h.behind i k k' hl hk hm hm'
  · intro i k k' hl hk hm hm'
    have hlt := hnum k (hl.subset (by simp))
    have hk := hflight hlt hk
    have hm := hmulti hlt hm
    have hm' := hmulti (hnum k' (hl.subset (by simp))) hm'
    rcases hlast (l := [k]) hl with hl | ⟨hk', _⟩
    · exact h.behind i k k' hl hk hm hm'
    · exact hx.unique hk' hk hm' hm

/-- The invariant of runs that create no message with a header in flight. -/
structure Exclusive (t : IoTask N) : Prop where
  sound : t.core.Sound
  noError : t.core.pendingError = none
  core : t.core.Exclusive
  undisturbed : Undisturbed t

theorem Exclusive.step {a : IoAct} (h : Exclusive t) (hok : distinctHeaders t a = true)
    (hstep : t.step a = some t') :
    Exclusive t' := by
  have hs := step_steps hstep
  obtain ⟨hp', hnodup, hnew⟩ : t'.core.pendingError = none ∧ (createdHeaders t t').Nodup ∧
      ∀ header ∈ createdHeaders t t', header ∉ headersInFlight t t' := by
    simpa [distinctHeaders, hstep] using hok
  have heffect := hs.effect h.sound h.noError hp'
  refine ⟨hs.sound h.sound, hp', ?_, h.undisturbed.step h.core heffect.progress⟩
  have hmade : ∀ {self c : IoCore N}, Relation.ReflTransGen IoCore.Makes self c →
      self.Exclusive → self.Titled →
      self.history = t.core.history → c.history = t'.core.history → self.flightHeaders =
        headersInFlight t t' →
      c.Exclusive := by
    intro self c hs hx ht hh hh' hflight
    obtain ⟨new, hgrow, _⟩ := IoCore.made_grows hs
    have hcreated : createdHeaders t t' = new.map fun sent => sent.msg.header := by
      rw [createdHeaders, ← hh', hgrow, hh, List.drop_left]
    rw [hcreated, ← hflight] at hnew
    rw [hcreated] at hnodup
    exact hx.made hs ht hgrow hnodup fun sent hsent => hnew _ (List.mem_map_of_mem hsent)
  cases heffect with
  | made hs _ hsent =>
    exact hmade hs h.core h.sound.titled rfl rfl (by rw [headersInFlight, if_pos hsent])
  | readied c hs hready _ hsent =>
    have hc := hmade hs h.core h.sound.titled rfl hready.rest.2.1.symm
      (by rw [headersInFlight, if_pos hsent])
    exact hc.readyStep hready
  | wrote current k hc _ hcore _ _ =>
    have hflight : (t.currentWritten current k).core.flight = t.core.flight := by
      simp [IoCore.flight, currentWritten, hc]
    rw [hcore]
    exact h.core.congr (lined_currentWritten h.core.lined hc)
      (fun k' => by rw [hflight]) rfl rfl rfl
  | sent current i hc hi hs _ hsent =>
    refine hmade hs (h.core.cleared h.sound hc hi) (h.sound.cleared current i).titled rfl rfl ?_
    have hne : t'.sentFrames ≠ t.sentFrames := by simp [hsent]
    rw [headersInFlight, if_neg hne]
    rfl

theorem Exclusive.new (builder : ProtocolBuilder N) : Exclusive (IoTask.new builder) where
  sound := IoCore.new_sound builder
  noError := rfl
  core := .new builder
  undisturbed := by
    refine ⟨?_, ?_, ?_⟩ <;> simp [IoTask.new, IoCore.new, writtenSerials]

/-- In every run without an error in which no message is created with the header of one in flight, a
channel has at most one message of several frames in flight. The marker of the channel says which,
and the frames of such messages are not written in between each other. -/
theorem one_multi_frame_send {builder : ProtocolBuilder N} (h : Reach builder distinctHeaders t)
    (i : Fin N) :
    (∀ k ∈ t.core.flight, ∀ k' ∈ t.core.flight, t.core.multiOn i k = true →
      t.core.multiOn i k' = true → k = k') ∧
    (∀ header, t.core.activeMultiFrame i = some header ↔
      ∃ k ∈ t.core.flight, t.core.multiOn i k = true ∧ t.core.headerOf k = some header) ∧
    ∀ k k', [k, k', k].Sublist t.writtenSerials → t.core.multiOn i k = true →
      t.core.multiOn i k' = true → k' = k := by
  have hinv : Exclusive t :=
    Transition.Reach.invariant h (Exclusive.new builder) fun hx hok hs => hx.step hok hs
  refine ⟨?_, hinv.core.active i, hinv.undisturbed.between i⟩
  intro k hk k' hk' hm hm'
  exact hinv.core.unique hk hk' hm hm'

/-- One channel for two requests at a time, of up to three frames. -/
def pairBuilder : ProtocolBuilder 1 := ⟨fun _ => ⟨2, 20, 20⟩, .smallest⟩

/-- Of two requests of two frames each the second one waits for the first. -/
def twoSends : List IoAct :=
  [.enqueue (.request ⟨0⟩ ⟨1⟩ (some [1, 2, 3, 4, 5, 6, 7, 8])),
    .enqueue (.request ⟨0⟩ ⟨2⟩ (some [8, 7, 6, 5, 4, 3, 2, 1])), .turn, .recv, .tryRecv, .tryRecv,
    .turn, .write 10, .turn, .write 3, .write 4, .turn, .write 10]

theorem one_multi_frame_send_second :
    ∃ t, run pairBuilder distinctHeaders twoSends = some t ∧ t.writtenSerials = [0, 0, 1] ∧
      t.core.flight = [1] ∧
      t.core.multiOn 0 0 = true ∧ t.core.multiOn 0 1 = true ∧
      (t.core.activeMultiFrame 0).isSome = true ∧
      ∀ k k', [k, k', k].Sublist t.writtenSerials → t.core.multiOn 0 k = true →
        t.core.multiOn 0 k' = true →
        k' = k := by
  have hrun : (run pairBuilder distinctHeaders twoSends).map
      (fun t => (t.writtenSerials, t.core.flight,
      t.core.multiOn 0 0, t.core.multiOn 0 1, (t.core.activeMultiFrame 0).isSome)) =
        some ([0, 0, 1], [1], true, true, true) := rfl
  obtain ⟨t, ht, he⟩ := Option.map_eq_some_iff.mp hrun
  simp only [Prod.mk.injEq] at he
  obtain ⟨hw, hf, hm, hm', ha⟩ := he
  exact ⟨t, ht, hw, hf, hm, hm', ha, (one_multi_frame_send (Transition.Reach.exec .start ht) 0).2.2⟩

end IoTask

end Juliet
