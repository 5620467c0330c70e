import Juliet.RpcCustody

namespace Juliet

instance : Std.Total Earlier := ⟨fun a b => by unfold Earlier; omega⟩

instance : IsTrans (Nat × IoId) Earlier := ⟨fun a b c hab hbc => by unfold Earlier at *; omega⟩

/-- In a sorted list, if a test that has failed goes on failing, cutting the list there is filtering
it. -/
theorem span_eq_filter {α : Type} {R : α → α → Prop} {p : α → Bool}
    (hp : ∀ {a b}, R a b → p b = true → p a = true) {l : List α} (hs : l.Pairwise R) :
    l.takeWhile p = l.filter p ∧ l.dropWhile p = l.filter fun a => !p a := by
  induction l with
  | nil => exact ⟨rfl, rfl⟩
  | cons a l ih =>
    obtain ⟨hfirst, hrest⟩ := List.pairwise_cons.mp hs
    obtain ⟨htake, hdrop⟩ := ih hrest
    cases ha : p a with
    | true => simp [ha, htake, hdrop]
    | false =>
      have hfails : ∀ b ∈ l, p b = false := by
        intro b hb
        by_contra hpb
        have := hp (hfirst b hb) (Bool.eq_true_of_not_eq_false hpb)
        simp [ha] at this
      constructor
      · rw [List.takeWhile_cons_of_neg (by simp [ha]), eq_comm, List.filter_eq_nil_iff]
        intro b hb
        rcases List.mem_cons.mp hb with rfl | hb
        · simp [ha]
        · simp [hfails b hb]
      · rw [List.dropWhile_cons_of_neg (by simp [ha]), eq_comm, List.filter_eq_self]
        intro b hb
        rcases List.mem_cons.mp hb with rfl | hb
        · simp [ha]
        · simp [hfails b hb]

theorem span_due {timeouts : List (Nat × IoId)} (hs : timeouts.Pairwise Earlier) (now : Nat) :
    (timeouts.takeWhile fun entry => entry.1 ≤ now) = timeouts.filter (fun entry => entry.1 ≤ now) ∧
      (timeouts.dropWhile fun entry => entry.1 ≤ now) =
        timeouts.filter fun entry => !decide (entry.1 ≤ now) := by
  refine span_eq_filter ?_ hs
  intro a b hab hb
  unfold Earlier at hab
  simp only [decide_eq_true_eq] at hb ⊢
  omega

/-- The entries in front of the first one that is later than `now` are all those up to `now`. -/
theorem mem_takeWhile_due {timeouts : List (Nat × IoId)} {now : Nat}
    (hs : timeouts.Pairwise Earlier) (entry : Nat × IoId) :
    entry ∈ timeouts.takeWhile (fun entry => entry.1 ≤ now) ↔ entry ∈ timeouts ∧ entry.1 ≤ now := by
  rw [(span_due hs now).1, List.mem_filter, decide_eq_true_eq]

theorem mem_dropWhile_due {timeouts : List (Nat × IoId)} {now : Nat}
    (hs : timeouts.Pairwise Earlier) (entry : Nat × IoId) :
    entry ∈ timeouts.dropWhile (fun entry => entry.1 ≤ now) ↔ entry ∈ timeouts ∧ now < entry.1 := by
  rw [(span_due hs now).2, List.mem_filter, Bool.not_eq_true', decide_eq_false_iff_not, Nat.not_le]

/-- A guard that is among those to resolve is resolved. -/
theorem resolveAll_resolved {values : List (Nat × Except RequestError (Option Bytes))}
    {guards : List RequestGuardInner} {guard : Nat} (hg : guard < guards.length)
    (hm : guard ∈ values.map Prod.fst) :
    (outcomeOf (resolveAll guards values) guard).isSome = true := by
  induction values generalizing guards with
  | nil => simp at hm
  | cons value values ih =>
    rw [resolveAll, List.foldl_cons, ← resolveAll]
    by_cases hv : guard = value.1
    · have hset : outcomeOf (guards.modify value.1 fun g => g.setAndNotify value.2) guard =
          some ((outcomeOf guards value.1).getD value.2) := by
        rw [outcomeOf_modify, if_pos ⟨hv, hv ▸ hg⟩]
      rw [(resolveAll_outcome values _ guard).1 _ hset]
      rfl
    · refine ih (by rwa [List.length_modify]) ?_
      rcases List.mem_cons.mp hm with he | hm
      · exact absurd he hv
      · exact hm

namespace RpcTask

variable {t t' : RpcTask}

/-- The given requests and their guards are taken out of the pending ones as timed out. -/
structure Expires (t : RpcTask) (taken : List (IoId × Nat)) (t' : RpcTask) : Prop where
  apart : (taken.map Prod.fst).Nodup
  held : ∀ p ∈ taken, t.pending.lookup p.1 = some p.2
  pending : ∀ ioId, t'.pending.lookup ioId = if ioId ∈ taken.map Prod.fst then none
    else t.pending.lookup ioId
  guards : t'.guards = resolveAll t.guards (taken.map fun p => (p.2, .error .timedOut))
  enqueued : t'.enqueued = t.enqueued ++ if t.coreClosed then []
    else taken.map fun p => .requestCancellation p.1
  timeouts : t'.timeouts = t.timeouts
  newRequests : t'.newRequests = t.newRequests
  issued : t'.issued = t.issued

theorem Expires.refl (t : RpcTask) : Expires t [] t := by
  constructor <;> simp [resolveAll]

/-- The state in which a timeout that has passed leaves a request that was pending. -/
def expired (t : RpcTask) (ioId : IoId) (guard : Nat) : RpcTask :=
  { t with
    pending := t.pending.erase ioId
    guards := resolveAll t.guards [(guard, .error .timedOut)]
    enqueued := t.enqueued ++ if t.coreClosed then [] else [.requestCancellation ioId] }

theorem expire_pending {ioId : IoId} {guard : Nat} (h : t.pending.lookup ioId = some guard) :
    t.expire ioId = (1, t.expired ioId guard) := by
  unfold expire settle expired
  rw [h]
  cases t.coreClosed <;> simp

theorem expire_gone {ioId : IoId} (h : t.pending.lookup ioId = none) : t.expire ioId = (0, t) := by
  unfold expire
  rw [h]
  rfl

theorem Expires.cons {ioId : IoId} {guard : Nat} {taken : List (IoId × Nat)}
    (hl : t.pending.lookup ioId = some guard) (h : Expires (t.expired ioId guard) taken t') :
    Expires t ((ioId, guard) :: taken) t' where
  apart := by
    rw [List.map_cons, List.nodup_cons]
    refine ⟨?_, h.apart⟩
    intro hm
    obtain ⟨p, hp, he⟩ := List.mem_map.mp hm
    have hheld := h.held p hp
    rw [he] at hheld
    simp [expired, AList.lookup_erase] at hheld
  held := by
    intro p hp
    rcases List.mem_cons.mp hp with rfl | hp
    · exact hl
    · have hheld := h.held p hp
      by_cases he : p.1 = ioId
      · rw [he] at hheld
        simp [expired, AList.lookup_erase] at hheld
      · simpa [expired, AList.lookup_erase_ne he] using hheld
  pending := by
    intro other
    rw [h.pending other]
    rw [List.map_cons]
    by_cases he : other = ioId
    · subst he
      rw [if_pos List.mem_cons_self, expired, AList.lookup_erase, ite_self]
    · have hsame : other ∈ ioId :: taken.map Prod.fst ↔ other ∈ taken.map Prod.fst := by
        rw [List.mem_cons, or_iff_right he]
      rw [if_congr hsame rfl rfl, expired, AList.lookup_erase_ne he]
  guards := h.guards
  enqueued := by
    rw [h.enqueued]
    cases hc : t.coreClosed <;> simp [expired, hc]
  timeouts := h.timeouts
  newRequests := h.newRequests
  issued := h.issued

/-- The loop of `process_timeouts` takes out those of the requests that are still pending. -/
theorem expireAll_expires (t : RpcTask) (due : List (Nat × IoId)) :
    ∃ taken, Expires t taken (t.expireAll due).2 ∧ (t.expireAll due).1 = taken.length ∧
      ∀ ioId, ioId ∈ taken.map Prod.fst ↔ ioId ∈ due.map Prod.snd ∧ ioId ∈ t.pending := by
  induction due generalizing t with
  | nil => exact ⟨[], .refl t, rfl, by simp⟩
  | cons entry due ih =>
    cases hl : t.pending.lookup entry.2 with
    | none =>
      obtain ⟨taken, he, hn, hm⟩ := ih t
      have hgone : entry.2 ∉ t.pending := AList.lookup_eq_none.mp hl
      simp only [expireAll, expire_gone hl]
      refine ⟨taken, he, by omega, ?_⟩
      intro ioId
      rw [hm, List.map_cons, List.mem_cons]
      constructor
      · exact fun ⟨hd, hp⟩ => ⟨.inr hd, hp⟩
      · rintro ⟨rfl | hd, hp⟩
        · exact absurd hp hgone
        · exact ⟨hd, hp⟩
    | some guard =>
      obtain ⟨taken, he, hn, hm⟩ := ih (t.expired entry.2 guard)
      have hheld : entry.2 ∈ t.pending := AList.lookup_isSome.mp (by rw [hl]; rfl)
      simp only [expireAll, expire_pending hl]
      refine ⟨(entry.2, guard) :: taken, he.cons hl, by rw [List.length_cons]; omega, ?_⟩
      intro ioId
      rw [List.map_cons, List.mem_cons, hm, List.map_cons, List.mem_cons]
      by_cases heq : ioId = entry.2
      · simp [heq, hheld]
      · simp [heq, expired, AList.mem_erase]

theorem processTimeouts_expires {now deadline count : Nat}
    (hp : t.processTimeouts now = (deadline, count, t')) :
    ∃ taken,
      Expires { t with timeouts := t.timeouts.dropWhile fun entry => entry.1 ≤ now } taken t' ∧
      count = taken.length ∧
      (∀ ioId, ioId ∈ taken.map Prod.fst ↔
        ioId ∈ (t.timeouts.takeWhile fun entry => entry.1 ≤ now).map Prod.snd ∧ ioId ∈ t.pending) ∧
      ∀ first rest, (t.timeouts.dropWhile fun entry => entry.1 ≤ now) = first :: rest →
        deadline = first.1 := by
  simp only [processTimeouts, List.span_eq_takeWhile_dropWhile, Prod.mk.injEq] at hp
  obtain ⟨hd, hc, ht⟩ := hp
  obtain ⟨taken, he, hn, hm⟩ :=
    expireAll_expires { t with timeouts := t.timeouts.dropWhile fun entry => entry.1 ≤ now }
    (t.timeouts.takeWhile fun entry => entry.1 ≤ now)
  rw [ht] at he
  refine ⟨taken, he, hc.symm.trans hn, hm, ?_⟩
  intro first rest hleft
  rw [← hd, hleft]

/-- When the requests expire, after a call that queues one has set its expiry. -/
def recordExpiry (expiry : IoId → Option Nat) : RpcAct → IoId → Option Nat
  | .queueForSending (some ticket) _ timeout now =>
    Function.update expiry ticket.ioId (timeout.bind (checkedAdd now))
  | _ => expiry

/-- When the requests of a run expire. -/
def expiries (as : List RpcAct) : IoId → Option Nat := as.foldl recordExpiry fun _ => none

theorem expiries_snoc (as : List RpcAct) (a : RpcAct) :
    expiries (as ++ [a]) = recordExpiry (expiries as) a := by
  simp [expiries]

/-- The time of a request is over. -/
def overdue (expiry : IoId → Option Nat) (now : Nat) (ioId : IoId) : Bool :=
  (expiry ioId).any fun expires => expires ≤ now

theorem overdue_iff {expiry : IoId → Option Nat} {now : Nat} {ioId : IoId} :
    overdue expiry now ioId = true ↔ ∃ expires, expiry ioId = some expires ∧ expires ≤ now := by
  cases h : expiry ioId <;> simp [overdue, h]

/-- The heap holds an entry for every pending request that expires, and what it holds is right:
entries of requests that are no longer pending may be left in it. -/
structure Scheduled (expiry : IoId → Option Nat) (t : RpcTask) : Prop where
  sorted : t.timeouts.Pairwise Earlier
  coming : ∀ new ∈ t.newRequests, new.expires = expiry new.ticket.ioId
  pending : ∀ ioId expires, ioId ∈ t.pending → expiry ioId = some expires →
    (expires, ioId) ∈ t.timeouts
  entries : ∀ entry ∈ t.timeouts, expiry entry.2 = some entry.1
  known : ∀ entry ∈ t.timeouts, entry.2 ∈ t.issued

namespace Scheduled

variable {expiry : IoId → Option Nat}

theorem new (bubbleTimeouts : Bool) (expiry : IoId → Option Nat) :
    Scheduled expiry (RpcTask.new bubbleTimeouts) := by
  constructor <;> simp [RpcTask.new]

/-- Requests leave the channel and the pending ones. -/
theorem fewer (h : Scheduled expiry t) (ht : t'.timeouts = t.timeouts) (hi : t'.issued = t.issued)
    (hn : ∀ new ∈ t'.newRequests, new ∈ t.newRequests)
    (hp : ∀ ioId ∈ t'.pending, ioId ∈ t.pending) :
    Scheduled expiry t' where
  sorted := by
    rw [ht]
    exact h.sorted
  coming := fun new hm => h.coming new (hn new hm)
  pending := by
    intro ioId expires hm he
    rw [ht]
    exact h.pending ioId expires (hp ioId hm) he
  entries := by
    rw [ht]
    exact h.entries
  known := by
    rw [ht, hi]
    exact h.known

/-- Among the pending requests the entries that are taken from the heap name those that are
overdue. -/
theorem due_iff (h : Scheduled expiry t) {now : Nat} {ioId : IoId} (hp : ioId ∈ t.pending) :
    ioId ∈ (t.timeouts.takeWhile fun entry => entry.1 ≤ now).map Prod.snd ↔
    overdue expiry now ioId = true := by
  rw [overdue_iff]
  constructor
  · intro hm
    obtain ⟨entry, hentry, rfl⟩ := List.mem_map.mp hm
    obtain ⟨hin, hd⟩ := (mem_takeWhile_due h.sorted entry).mp hentry
    exact ⟨entry.1, h.entries entry hin, hd⟩
  · rintro ⟨expires, he, hd⟩
    have hm := (mem_takeWhile_due h.sorted (expires, ioId)).mpr ⟨h.pending ioId expires hp he, hd⟩
    exact List.mem_map.mpr ⟨_, hm, rfl⟩

theorem taken_iff (h : Scheduled expiry t) {now : Nat} {taken : List (IoId × Nat)}
    (hm : ∀ ioId, ioId ∈ taken.map Prod.fst ↔
      ioId ∈ (t.timeouts.takeWhile fun entry => entry.1 ≤ now).map Prod.snd ∧ ioId ∈ t.pending)
    (ioId : IoId) :
    ioId ∈ taken.map Prod.fst ↔ ioId ∈ t.pending ∧ overdue expiry now ioId = true := by
  rw [hm]
  constructor
  · exact fun ⟨hd, hp⟩ => ⟨hp, (h.due_iff hp).mp hd⟩
  · exact fun ⟨hp, hd⟩ => ⟨(h.due_iff hp).mpr hd, hp⟩

theorem processTimeouts (h : Scheduled expiry t) {now deadline count : Nat}
    (hp : t.processTimeouts now = (deadline, count, t')) : Scheduled expiry t' := by
  obtain ⟨taken, he, _, hm, _⟩ := processTimeouts_expires hp
  have hleft : ∀ {entry}, entry ∈ t'.timeouts → entry ∈ t.timeouts ∧ now < entry.1 := by
    intro entry hentry
    rw [he.timeouts] at hentry
    exact (mem_dropWhile_due h.sorted entry).mp hentry
  refine ⟨?_, ?_, ?_, fun entry hentry => h.entries entry (hleft hentry).1, ?_⟩
  · rw [he.timeouts]
    exact h.sorted.sublist (List.dropWhile_sublist _)
  · rw [he.newRequests]
    exact h.coming
  · intro ioId expires hpending hexpires
    have hlook := he.pending ioId
    rw [he.timeouts]
    by_cases htaken : ioId ∈ taken.map Prod.fst
    · rw [if_pos htaken] at hlook
      exact absurd hpending (AList.lookup_eq_none.mp hlook)
    · rw [if_neg htaken] at hlook
      have hold : ioId ∈ t.pending := by
        rw [← AList.lookup_isSome, ← hlook, AList.lookup_isSome]
        exact hpending
      refine (mem_dropWhile_due h.sorted _).mpr ⟨h.pending ioId expires hold hexpires, ?_⟩
      by_contra hover
      exact htaken ((h.taken_iff hm ioId).mpr ⟨hold,
        overdue_iff.mpr ⟨expires, hexpires, Nat.le_of_not_lt hover⟩⟩)
  · rw [he.issued]
    exact fun entry hentry => h.known entry (hleft hentry).1

/-- The next deadline is not after the expiry of a request that is left. -/
theorem deadline_le (h : Scheduled expiry t) {now deadline count : Nat}
    (hp : t.processTimeouts now = (deadline, count, t')) {ioId : IoId} {expires : Nat}
    (hm : ioId ∈ t'.pending) (hexpires : expiry ioId = some expires) : deadline ≤ expires := by
  have hleft := h.processTimeouts hp
  obtain ⟨taken, he, _, _, hdeadline⟩ := processTimeouts_expires hp
  -- the deadline is the first entry left, and the entry of this request is not before it
  have hin := hleft.pending ioId expires hm hexpires
  have hsorted := hleft.sorted
  rw [he.timeouts] at hin hsorted
  cases hrest : t.timeouts.dropWhile fun entry => entry.1 ≤ now with
  | nil =>
    rw [hrest] at hin
    simp at hin
  | cons first rest =>
    rw [hrest] at hin hsorted
    rw [hdeadline first rest hrest]
    rcases List.mem_cons.mp hin with rfl | hin
    · exact Nat.le_refl _
    · have hearlier := (List.pairwise_cons.mp hsorted).1 _ hin
      unfold Earlier at hearlier
      omega

theorem handleNewRequest (h : Scheduled expiry t) {new : NewOutgoingRequest}
    {rest : List NewOutgoingRequest} (hq : t.newRequests = new :: rest)
    (hid : new.ticket.ioId ∈ t.issued) :
    Scheduled expiry ({ t with newRequests := rest }.handleNewRequest new) := by
  have hnew : new.expires = expiry new.ticket.ioId :=
    h.coming new (by rw [hq]; exact List.mem_cons_self)
  have hrest : ∀ other ∈ rest, other.expires = expiry other.ticket.ioId := by
    intro other ho
    exact h.coming other (by rw [hq]; exact List.mem_cons_of_mem _ ho)
  unfold RpcTask.handleNewRequest
  split
  next => exact ⟨h.sorted, hrest, h.pending, h.entries, h.known⟩
  next =>
    split
    next expires he =>
      refine ⟨h.sorted.orderedInsert _ _, hrest, ?_, ?_, ?_⟩
      · intro ioId other hm ho
        rw [List.mem_orderedInsert]
        rcases (AList.mem_insert _).mp hm with rfl | hm
        · left
          rw [← hnew, he] at ho
          rw [Option.some.inj ho]
        · exact .inr (h.pending ioId other hm ho)
      · intro entry hm
        rcases (List.mem_orderedInsert _).mp hm with rfl | hm
        · rw [← hnew, he]
        · exact h.entries entry hm
      · intro entry hm
        rcases (List.mem_orderedInsert _).mp hm with rfl | hm
        · exact hid
        · exact h.known entry hm
    next he =>
      refine ⟨h.sorted, hrest, ?_, h.entries, h.known⟩
      intro ioId other hm ho
      rcases (AList.mem_insert _).mp hm with rfl | hm
      · rw [← hnew, he] at ho
        simp at ho
      · exact h.pending ioId other hm ho

theorem settle (h : Scheduled expiry t) (ioId : IoId) (value : Except RequestError (Option Bytes)) :
    Scheduled expiry (t.settle ioId value) := by
  unfold RpcTask.settle
  split
  next => exact h
  next => exact h.fewer rfl rfl (fun _ hn => hn) fun _ hm => (AList.mem_erase.mp hm).2

theorem handleEvent (h : Scheduled expiry t) (event : IoEvent) :
    Scheduled expiry (t.handleEvent event) := by
  cases event with
  | receivedResponse ioId payload => exact h.settle ioId _
  | receivedCancellationResponse ioId => exact h.settle ioId _
  | _ => exact h

/-- A request is queued under an id that no one has used. -/
theorem queue (h : Scheduled expiry t) {ticket : RequestTicket} {expires : Option Nat}
    (hpending : ∀ ioId ∈ t.pending, ioId ∈ t.issued)
    (hcoming : ∀ new ∈ t.newRequests, new.ticket.ioId ∈ t.issued) (hnew : ticket.ioId ∉ t.issued)
    (hp : t'.pending = t.pending) (ht : t'.timeouts = t.timeouts)
    (hi : t'.issued = insert ticket.ioId t.issued)
    (hn : ∀ new ∈ t'.newRequests, new ∈ t.newRequests ∨ new.ticket = ticket ∧
      new.expires = expires) :
    Scheduled (Function.update expiry ticket.ioId expires) t' := by
  have hold : ∀ {ioId}, ioId ∈ t.issued → Function.update expiry ticket.ioId expires ioId =
      expiry ioId := by
    intro ioId hm
    have hne : ioId ≠ ticket.ioId := fun he => hnew (he ▸ hm)
    exact Function.update_of_ne hne _ _
  refine ⟨?_, ?_, ?_, ?_, ?_⟩
  · rw [ht]
    exact h.sorted
  · intro new hm
    rcases hn new hm with hm | ⟨hticket, hexpires⟩
    · rw [hold (hcoming new hm)]
      exact h.coming new hm
    · rw [hexpires, hticket, Function.update_self]
  · intro ioId other hm ho
    rw [hp] at hm
    rw [hold (hpending ioId hm)] at ho
    rw [ht]
    exact h.pending ioId other hm ho
  · intro entry hm
    rw [ht] at hm
    rw [hold (h.known entry hm)]
    exact h.entries entry hm
  · intro entry hm
    rw [ht] at hm
    rw [hi]
    exact Finset.mem_insert_of_mem (h.known entry hm)

end Scheduled

theorem Custody.places_issued (h : Custody t) {p : Nat × IoId} (hp : p ∈ t.places) :
    p.2 ∈ t.issued :=
  h.issued p (List.mem_filter.mp (h.places.subset hp)).1

theorem Custody.coming_issued (h : Custody t) {new : NewOutgoingRequest}
    (hn : new ∈ t.newRequests) :
    new.ticket.ioId ∈ t.issued :=
  h.places_issued (p := (new.guard, new.ticket.ioId))
    (List.mem_append_left _ (List.mem_map.mpr ⟨new, hn, rfl⟩))

theorem mem_places_of_lookup {ioId : IoId} {guard : Nat} (hl : t.pending.lookup ioId = some guard) :
    (guard, ioId) ∈ t.places :=
  List.mem_append_right _ (List.mem_map.mpr ⟨_, AList.mem_lookup_iff.mp hl, rfl⟩)

theorem Custody.pending_issued (h : Custody t) {ioId : IoId} (hm : ioId ∈ t.pending) :
    ioId ∈ t.issued := by
  obtain ⟨guard, hl⟩ := Option.isSome_iff_exists.mp (AList.lookup_isSome.mpr hm)
  exact h.places_issued (mem_places_of_lookup hl)

/-- What sending a new request leaves alone, and the request that is sent. -/
theorem sendNewRequest_sends (t : RpcTask) (ticket : RequestTicket) (payload : Option Bytes)
    (expires : Option Nat) :
    (t.sendNewRequest ticket payload expires).pending = t.pending ∧
      (t.sendNewRequest ticket payload expires).timeouts = t.timeouts ∧
      (t.sendNewRequest ticket payload expires).issued = t.issued ∧
      ∀ new ∈ (t.sendNewRequest ticket payload expires).newRequests,
        new ∈ t.newRequests ∨ new.ticket = ticket ∧ new.expires = expires := by
  unfold sendNewRequest
  split
  next => exact ⟨rfl, rfl, rfl, fun new hn => .inl hn⟩
  next =>
    refine ⟨rfl, rfl, rfl, ?_⟩
    intro new hn
    rcases List.mem_append.mp hn with hn | hn
    · exact .inl hn
    · rw [List.mem_singleton.mp hn]
      exact .inr ⟨rfl, rfl⟩

theorem doEnqueueRequest_sends (t : RpcTask) (ticket : RequestTicket) (payload : Option Bytes)
    (timeout : Option Nat) (now : Nat) :
    (t.doEnqueueRequest ticket payload timeout now).pending = t.pending ∧
      (t.doEnqueueRequest ticket payload timeout now).timeouts = t.timeouts ∧
      (t.doEnqueueRequest ticket payload timeout now).issued = t.issued ∧
      ∀ new ∈ (t.doEnqueueRequest ticket payload timeout now).newRequests,
        new ∈ t.newRequests ∨ new.ticket = ticket ∧
        new.expires = timeout.bind (checkedAdd now) := by
  unfold doEnqueueRequest
  split
  next => exact sendNewRequest_sends t ticket payload none
  next timeout =>
    rw [Option.bind_some]
    split
    next expires he =>
      rw [he]
      exact sendNewRequest_sends t ticket payload (some expires)
    next => exact ⟨rfl, rfl, rfl, fun new hn => .inl hn⟩

namespace Scheduled

variable {expiry : IoId → Option Nat}

theorem queueForSending (h : Scheduled expiry t) (hc : Custody t) {ticket : Option RequestTicket}
    {payload : Option Bytes} {timeout : Option Nat} {now : Nat}
    (hs : t.queueForSending ticket payload timeout now = some t') :
    Scheduled (recordExpiry expiry (.queueForSending ticket payload timeout now)) t' := by
  unfold RpcTask.queueForSending at hs
  split at hs
  next => simp at hs
  next =>
    split at hs
    next =>
      cases Option.some.inj hs
      exact h.fewer rfl rfl (fun _ hn => hn) fun _ hm => hm
    next ticket =>
      split at hs
      next => simp at hs
      next hnew =>
        cases Option.some.inj hs
        obtain ⟨hp, ht, hi, hn⟩ :=
          doEnqueueRequest_sends { t with issued := insert ticket.ioId t.issued }
            ticket payload timeout now
        exact h.queue (fun _ hm => hc.pending_issued hm)
          (fun _ hm => hc.coming_issued hm) hnew hp ht hi hn

theorem served (h : Scheduled expiry t) (hc : Custody t) (hs : Served t t') :
    Scheduled expiry t' := by
  cases hs with
  | quiet clients coreClosed position _ => exact h.fewer rfl rfl (fun _ hn => hn) fun _ hm => hm
  | turn now position _ _ =>
    exact (h.processTimeouts rfl).fewer rfl rfl (fun _ hn => hn) fun _ hm => hm
  | recv deadline new rest _ hq =>
    have hid : new.ticket.ioId ∈ t.issued := hc.coming_issued (by rw [hq]; exact List.mem_cons_self)
    exact (h.handleNewRequest hq hid).fewer rfl rfl (fun _ hn => hn) fun _ hm => hm
  | event deadline event _ =>
    have hevent : Scheduled expiry { t with events := t.events ++ [event] } :=
      h.fewer rfl rfl (fun _ hn => hn) fun _ hm => hm
    exact (hevent.handleEvent event).fewer rfl rfl (fun _ hn => hn) fun _ hm => hm
  | drop =>
    exact h.fewer rfl rfl (by simp [dropServer]) fun ioId hm => absurd hm (AList.notMem_empty ioId)

theorem step (h : Scheduled expiry t) (hc : Custody t) {a : RpcAct} (hs : t.step a = some t') :
    Scheduled (recordExpiry expiry a) t' := by
  cases a with
  | queueForSending ticket payload timeout now => exact h.queueForSending hc hs
  | _ =>
    rcases step_served hs with ⟨_, _, _, _, hqueue⟩ | hserved
    · simp at hqueue
    · exact h.served hc hserved

end Scheduled

/-- In every run the heap is in step with the pending requests. -/
theorem run_scheduled {bubbleTimeouts : Bool} {as : List RpcAct}
    (h : run bubbleTimeouts as = some t) :
    Custody t ∧ Scheduled (expiries as) t := by
  have hstart : Custody (.new bubbleTimeouts) ∧ Scheduled (expiries []) (.new bubbleTimeouts) :=
    ⟨.new bubbleTimeouts, .new bubbleTimeouts _⟩
  refine Transition.exec_history
    (P := fun as t => Custody t ∧ Scheduled (expiries as) t) hstart ?_ h
  intro as t t' a hinv _ hs
  rw [expiries_snoc]
  exact ⟨hinv.1.step (step_steps hs), hinv.2.step hinv.1 hs⟩

/-- Every pending request has a guard of its own that has no outcome yet. -/
theorem Custody.pending_unresolved (h : Custody t) {ioId : IoId} {guard : Nat}
    (hl : t.pending.lookup ioId = some guard) :
    guard < t.guards.length ∧ outcomeOf t.guards guard = none ∧
      ∀ other, t.pending.lookup other = some guard → other = ioId := by
  obtain ⟨hsent, hu⟩ := List.mem_filter.mp (h.places.subset (mem_places_of_lookup hl))
  refine ⟨h.made _ hsent, ?_, (h.inOnePlace hsent).2.2⟩
  simpa [unresolved] using hu

/-- Only guards of requests that are taken out get an outcome. -/
theorem Expires.outcome_of_notMem {taken : List (IoId × Nat)} (h : Expires t taken t') {guard : Nat}
    (hn : ∀ ioId, (ioId, guard) ∉ taken) :
    outcomeOf t'.guards guard = outcomeOf t.guards guard := by
  rw [h.guards]
  obtain ⟨hkeep, hnew⟩ := resolveAll_outcome (taken.map fun p => (p.2, .error .timedOut))
    t.guards guard
  cases ho : outcomeOf (resolveAll t.guards (taken.map fun p => (p.2, .error .timedOut))) guard with
  | some outcome =>
    rcases hnew outcome ho with hold | hm
    · exact hold.symm
    · obtain ⟨p, hp, he⟩ := List.mem_map.mp hm
      obtain rfl : p.2 = guard := congrArg Prod.fst he
      exact absurd hp (hn p.1)
  | none =>
    cases hold : outcomeOf t.guards guard with
    | none => rfl
    | some outcome =>
      rw [hkeep outcome hold] at ho
      simp at ho

theorem Expires.outcome_of_mem {taken : List (IoId × Nat)} (h : Expires t taken t') {ioId : IoId}
    {guard : Nat} (hm : (ioId, guard) ∈ taken) (hg : guard < t.guards.length)
    (hu : outcomeOf t.guards guard = none) :
    outcomeOf t'.guards guard = some (.error .timedOut) := by
  rw [h.guards]
  have hresolve : guard ∈ (taken.map fun p =>
      (p.2, (.error .timedOut : Except RequestError (Option Bytes)))).map Prod.fst := by
    rw [List.map_map]
    exact List.mem_map.mpr ⟨_, hm, rfl⟩
  obtain ⟨outcome, ho⟩ := Option.isSome_iff_exists.mp (resolveAll_resolved hg hresolve)
  rcases (resolveAll_outcome _ t.guards guard).2 outcome ho with hold | hin
  · rw [hold] at hu
    simp at hu
  · obtain ⟨p, _, he⟩ := List.mem_map.mp hin
    obtain rfl : .error .timedOut = outcome := congrArg Prod.snd he
    exact ho

/-- In every run and at every instant `process_timeouts` times out the pending requests whose expiry
has passed, each once and with one cancellation while the core takes any, and no others. What it
leaves in the heap is later, and it asks to be called again before any of the requests left
expires. -/
theorem timeouts_exact {bubbleTimeouts : Bool} {as : List RpcAct} {now deadline count : Nat}
    (h : run bubbleTimeouts as = some t) (hp : t.processTimeouts now = (deadline, count, t')) :
    (∀ ioId, t'.pending.lookup ioId =
      if overdue (expiries as) now ioId then none else t.pending.lookup ioId) ∧
    (∀ ioId guard, t.pending.lookup ioId = some guard → outcomeOf t.guards guard = none ∧
      outcomeOf t'.guards guard = if overdue (expiries as) now ioId then some (.error .timedOut)
        else none) ∧
    (∀ guard, (∀ ioId, t.pending.lookup ioId ≠ some guard) → outcomeOf t'.guards guard =
      outcomeOf t.guards guard) ∧
    (∃ cancelled : List IoId,
      cancelled.Perm (t.pending.keys.filter fun ioId => overdue (expiries as) now ioId) ∧
      count = cancelled.length ∧
      t'.enqueued = t.enqueued ++ if t.coreClosed then []
        else cancelled.map QueuedItem.requestCancellation) ∧
    (∀ entry ∈ t'.timeouts, now < entry.1) ∧
    ∀ ioId expires, ioId ∈ t'.pending → expiries as ioId = some expires → deadline ≤ expires := by
  obtain ⟨hcustody, hscheduled⟩ := run_scheduled h
  obtain ⟨taken, he, hcount, hm, _⟩ := processTimeouts_expires hp
  have htaken := hscheduled.taken_iff hm
  have hmem : ∀ {ioId guard}, t.pending.lookup ioId = some guard →
      ((ioId, guard) ∈ taken ↔ overdue (expiries as) now ioId = true) := by
    intro ioId guard hl
    have hpending : ioId ∈ t.pending := AList.lookup_isSome.mp (by rw [hl]; rfl)
    constructor
    · intro hin
      exact ((htaken ioId).mp (List.mem_map.mpr ⟨_, hin, rfl⟩)).2
    · intro hover
      obtain ⟨p, hin, rfl⟩ := List.mem_map.mp ((htaken ioId).mpr ⟨hpending, hover⟩)
      have hguard := (he.held p hin).symm.trans hl
      rwa [← Option.some.inj hguard]
  refine ⟨?_, ?_, ?_, ⟨taken.map Prod.fst, ?_, by rw [hcount, List.length_map], ?_⟩, ?_, ?_⟩
  · intro ioId
    rw [he.pending ioId]
    cases hl : t.pending.lookup ioId with
    | none => simp
    | some guard =>
      have hpending : ioId ∈ t.pending := AList.lookup_isSome.mp (by rw [hl]; rfl)
      have hiff : ioId ∈ taken.map Prod.fst ↔ overdue (expiries as) now ioId = true := by
        rw [htaken ioId, and_iff_right hpending]
      simp only [hiff]
  · intro ioId guard hl
    obtain ⟨hg, hu, hown⟩ := hcustody.pending_unresolved hl
    refine ⟨hu, ?_⟩
    split
    next hover => exact he.outcome_of_mem ((hmem hl).mpr hover) hg hu
    next hover =>
      rw [he.outcome_of_notMem, hu]
      intro other hin
      obtain rfl := hown other (he.held _ hin)
      exact hover ((hmem hl).mp hin)
  · intro guard hno
    refine he.outcome_of_notMem ?_
    exact fun ioId hin => hno ioId (he.held _ hin)
  · rw [List.perm_ext_iff_of_nodup he.apart (t.pending.keys_nodup.filter _)]
    intro ioId
    rw [htaken, List.mem_filter, AList.mem_keys]
  · rw [he.enqueued, List.map_map]
    rfl
  · intro entry hentry
    rw [he.timeouts] at hentry
    exact ((mem_dropWhile_due hscheduled.sorted entry).mp hentry).2
  · exact fun _ _ hpending hexpires => hscheduled.deadline_le hp hpending hexpires

/-- Of four requests the first is answered before it expires at 4, the second and third expire at 5
and at 9, and the last does not expire. -/
def expiringRequests : List RpcAct :=
  [.queueForSending (some ⟨⟨0⟩, ⟨1⟩⟩) none (some 4) 0,
    .queueForSending (some ⟨⟨0⟩, ⟨2⟩⟩) none (some 5) 0, .queueForSending (some ⟨⟨0⟩, ⟨3⟩⟩) none
    (some 9) 0, .queueForSending (some ⟨⟨0⟩, ⟨4⟩⟩) none none 0, .turn 0, .recv,
    .turn 0, .recv, .turn 1, .recv, .turn 1, .recv, .turn 2, .event (.receivedResponse ⟨1⟩ none)]

theorem timeouts_exact_expiring :
    ∃ t t', run false expiringRequests = some t ∧ t.timeouts = [(4, ⟨1⟩), (5, ⟨2⟩), (9, ⟨3⟩)] ∧
      t.processTimeouts 6 = (9, 1, t') ∧ outcomeOf t'.guards 1 = some (.error .timedOut) ∧
      t'.pending.lookup ⟨3⟩ = some 2 ∧ t'.pending.lookup ⟨4⟩ = some 3 ∧
      ∀ entry ∈ t'.timeouts, 6 < entry.1 := by
  have hrun : (run false expiringRequests).map
      (fun t => (t.timeouts, (t.processTimeouts 6).1, (t.processTimeouts 6).2.1,
      t.pending.lookup ⟨2⟩, t.pending.lookup ⟨3⟩, t.pending.lookup ⟨4⟩)) =
        some ([(4, ⟨1⟩), (5, ⟨2⟩), (9, ⟨3⟩)], 9, 1, some 1, some 2, some 3) := rfl
  obtain ⟨t, ht, he⟩ := Option.map_eq_some_iff.mp hrun
  simp only [Prod.mk.injEq] at he
  obtain ⟨htimeouts, hdeadline, hcount, hl2, hl3, hl4⟩ := he
  have hp : t.processTimeouts 6 = (9, 1, (t.processTimeouts 6).2.2) := by rw [← hdeadline, ← hcount]
  obtain ⟨hpending, hguards, _, _, hleft, _⟩ := timeouts_exact ht hp
  exact ⟨t, _, ht, htimeouts, hp, (hguards ⟨2⟩ 1 hl2).2, (hpending ⟨3⟩).trans hl3,
    (hpending ⟨4⟩).trans hl4, hleft⟩

end RpcTask

end Juliet
