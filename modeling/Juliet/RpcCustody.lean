import Juliet.Rpc

namespace Juliet

/-- Taking one element out of those that pass a test. -/
theorem perm_filter_of_cons {α : Type} [DecidableEq α] {l rest : List α} {p q : α → Bool} {a : α}
    (hn : l.Nodup) (h : (a :: rest).Perm (l.filter p)) (hq : ∀ b ∈ l, q b = (p b && b ≠ a)) :
    rest.Perm (l.filter q) := by
  have hleft : rest.Perm ((l.filter p).erase a) := by
    have := h.erase a
    rwa [List.erase_cons_head] at this
  rw [(hn.filter p).erase_eq_filter, List.filter_filter] at hleft
  have hsame : l.filter q = l.filter fun b => b != a && p b := by
    refine List.filter_congr ?_
    intro b hb
    rw [hq b hb, Bool.and_comm, bne, Bool.beq_eq_decide_eq, ← decide_not]
  rwa [hsame]

/-- An entry of a map stands next to the others. -/
theorem entries_erase_perm {α β : Type} [DecidableEq α] {m : AList fun _ : α => β} {a : α} {b : β}
    (h : m.lookup a = some b) :
    ((⟨a, b⟩ : Sigma fun _ : α => β) :: (m.erase a).entries).Perm m.entries := by
  have hmem : a ∈ m.entries.keys := AList.mem_keys.mp (AList.lookup_isSome.mp (by rw [h]; rfl))
  obtain ⟨b', l₁, l₂, _, hl, he⟩ := List.exists_of_kerase hmem
  have hb : b = b' := by
    have hin : (⟨a, b'⟩ : Sigma fun _ : α => β) ∈ m.entries := by
      rw [hl]
      exact List.mem_append_right _ List.mem_cons_self
    have := AList.mem_lookup_iff.mpr hin
    rw [h] at this
    exact Option.some.inj this
  have herase : (m.erase a).entries = l₁ ++ l₂ := he
  rw [herase, hl, hb]
  exact List.perm_middle.symm

/-- What a guard tells those who wait for it. -/
def outcomeOf (guards : List RequestGuardInner) (guard : Nat) :
    Option (Except RequestError (Option Bytes)) :=
  guards[guard]?.bind RequestGuardInner.outcome

def unresolved (guards : List RequestGuardInner) (guard : Nat) : Bool :=
  (outcomeOf guards guard).isNone

section Guards

variable {guards : List RequestGuardInner} {guard : Nat}

theorem outcomeOf_append (h : guard < guards.length) (new : List RequestGuardInner) :
    outcomeOf (guards ++ new) guard = outcomeOf guards guard := by
  simp only [outcomeOf, List.getElem?_append_left h]

theorem outcomeOf_new (guards : List RequestGuardInner) (new : RequestGuardInner) :
    outcomeOf (guards ++ [new]) guards.length = new.outcome := by
  simp [outcomeOf]

theorem outcomeOf_of_le (h : guards.length ≤ guard) : outcomeOf guards guard = none := by
  simp [outcomeOf, h]

/-- New guards do not count among those made before. -/
theorem filter_unresolved_append {sent : List (Nat × IoId)} (h : ∀ p ∈ sent, p.1 < guards.length)
    (new : List RequestGuardInner) :
    sent.filter (fun p => unresolved (guards ++ new) p.1) =
      sent.filter fun p => unresolved guards p.1 := by
  refine List.filter_congr ?_
  intro p hp
  rw [unresolved, unresolved, outcomeOf_append (h p hp)]

/-- The first outcome of a guard stays. -/
theorem outcomeOf_modify (value : Except RequestError (Option Bytes)) (other : Nat) :
    outcomeOf (guards.modify guard fun g => g.setAndNotify value) other =
      if other = guard ∧ guard < guards.length then some ((outcomeOf guards guard).getD value)
      else outcomeOf guards other := by
  unfold outcomeOf
  rw [List.getElem?_modify]
  by_cases ho : guard = other
  · subst ho
    cases hg : guards[guard]? with
    | none =>
      have hlen := List.getElem?_eq_none_iff.mp hg
      simp [Nat.not_lt.mpr hlen]
    | some g =>
      have hlen : guard < guards.length := (List.getElem?_eq_some_iff.mp hg).1
      simp [hlen, RequestGuardInner.setAndNotify]
  · have hne : ¬ other = guard := fun he => ho he.symm
    simp [ho, hne]

theorem resolveAll_length (values : List (Nat × Except RequestError (Option Bytes)))
    (guards : List RequestGuardInner) :
    (resolveAll guards values).length = guards.length := by
  induction values generalizing guards with
  | nil => rfl
  | cons value values ih =>
    rw [resolveAll, List.foldl_cons, ← resolveAll, ih, List.length_modify]

/-- No outcome is changed, and a new one is among the values. -/
theorem resolveAll_outcome (values : List (Nat × Except RequestError (Option Bytes)))
    (guards : List RequestGuardInner) (guard : Nat) :
    (∀ outcome, outcomeOf guards guard = some outcome → outcomeOf (resolveAll guards values) guard =
      some outcome) ∧
      ∀ outcome, outcomeOf (resolveAll guards values) guard = some outcome →
        outcomeOf guards guard = some outcome ∨ (guard, outcome) ∈ values := by
  induction values generalizing guards with
  | nil => exact ⟨fun _ h => h, fun _ h => .inl h⟩
  | cons value values ih =>
    obtain ⟨hkeep, hnew⟩ := ih (guards.modify value.1 fun g => g.setAndNotify value.2)
    rw [resolveAll, List.foldl_cons, ← resolveAll]
    constructor
    · intro outcome ho
      apply hkeep
      rw [outcomeOf_modify]
      split
      next hg => rw [← hg.1, ho, Option.getD_some]
      next => exact ho
    · intro outcome ho
      rcases hnew outcome ho with ho | ho
      · rw [outcomeOf_modify] at ho
        split at ho
        next hg =>
          cases hold : outcomeOf guards value.1 with
          | some old =>
            rw [hold, Option.getD_some] at ho
            exact .inl (by rw [hg.1, hold, ho])
          | none =>
            rw [hold, Option.getD_none] at ho
            refine .inr (List.mem_cons.mpr (.inl ?_))
            exact Prod.ext hg.1 (Option.some.inj ho).symm
        next => exact .inl ho
      · exact .inr (List.mem_cons_of_mem _ ho)

/-- Resolving the guards at the front of those that wait leaves the others waiting. -/
theorem resolveAll_perm {sent : List (Nat × IoId)}
    {values : List (Nat × Except RequestError (Option Bytes))} {front rest : List (Nat × IoId)}
    (hn : (sent.map Prod.fst).Nodup) (hlt : ∀ p ∈ sent, p.1 < guards.length)
    (hf : values.map Prod.fst = front.map Prod.fst)
    (h : (front ++ rest).Perm (sent.filter fun p => unresolved guards p.1)) :
    rest.Perm (sent.filter fun p => unresolved (resolveAll guards values) p.1) := by
  induction values generalizing guards front with
  | nil =>
    have hnil : front = [] := by simpa using hf.symm
    subst hnil
    exact h
  | cons value values ih =>
    cases front with
    | nil => simp at hf
    | cons p front =>
      simp only [List.map_cons, List.cons.injEq] at hf
      rw [resolveAll, List.foldl_cons, ← resolveAll]
      refine ih ?_ hf.2 ?_
      · intro p' hp
        rw [List.length_modify]
        exact hlt p' hp
      · have hmem : p ∈ sent := (List.mem_filter.mp (h.subset List.mem_cons_self)).1
        refine perm_filter_of_cons hn.of_map h ?_
        intro p' hp
        have hsame : p'.1 = value.1 ↔ p' = p := by
          rw [hf.1]
          exact ⟨fun he => List.inj_on_of_nodup_map hn hp hmem he, fun he => by rw [he]⟩
        unfold unresolved
        rw [outcomeOf_modify]
        by_cases he : p' = p
        · have hlen : value.1 < guards.length := by
            rw [hf.1]
            exact hlt p hmem
          rw [if_pos ⟨hsame.mpr he, hlen⟩]
          simp [he]
        · rw [if_neg fun hv => he (hsame.mp hv.1)]
          simp [he]

end Guards

namespace RpcTask

variable {t t' : RpcTask}

/-- The guards that wait in the channel and among the pending requests, with the ids of their
requests. -/
def places (t : RpcTask) : List (Nat × IoId) :=
  t.newRequests.map (fun new => (new.guard, new.ticket.ioId)) ++ t.pending.entries.map
    fun entry => (entry.2, entry.1)

/-- The guards of the requests sent and not resolved are those that wait somewhere, each once and
with its own id. -/
structure Custody (t : RpcTask) : Prop where
  made : ∀ p ∈ t.sent, p.1 < t.guards.length
  guards : (t.sent.map Prod.fst).Nodup
  ids : (t.sent.map Prod.snd).Nodup
  issued : ∀ p ∈ t.sent, p.2 ∈ t.issued
  places : t.places.Perm (t.sent.filter fun p => unresolved t.guards p.1)

namespace Custody

/-- Changes that concern no guard. -/
theorem congr (h : Custody t) (hg : t'.guards = t.guards) (hs : t'.sent = t.sent)
    (hi : t'.issued = t.issued) (hn : t'.newRequests = t.newRequests)
    (hp : t'.pending = t.pending) : Custody t' where
  made := by
    rw [hs, hg]
    exact h.made
  guards := by
    rw [hs]
    exact h.guards
  ids := by
    rw [hs]
    exact h.ids
  issued := by
    rw [hs, hi]
    exact h.issued
  places := by
    rw [RpcTask.places, hn, hp, hs, hg]
    exact h.places

/-- Some of those that wait are resolved. -/
theorem resolve {values : List (Nat × Except RequestError (Option Bytes))} (h : Custody t)
    (front : List (Nat × IoId)) (hf : values.map Prod.fst = front.map Prod.fst)
    (hfront : (front ++ t'.places).Perm t.places) (hg : t'.guards = resolveAll t.guards values)
    (hs : t'.sent = t.sent) (hi : t'.issued = t.issued) : Custody t' where
  made := by
    rw [hs, hg, resolveAll_length]
    exact h.made
  guards := by
    rw [hs]
    exact h.guards
  ids := by
    rw [hs]
    exact h.ids
  issued := by
    rw [hs, hi]
    exact h.issued
  places := by
    rw [hs, hg]
    exact resolveAll_perm h.guards h.made hf (hfront.trans h.places)

/-- A guard that waits for nothing. -/
theorem newError (h : Custody t) (error : RequestError)
    (hg : t'.guards = t.guards ++ [.newError error]) (hs : t'.sent = t.sent)
    (hi : ∀ ioId ∈ t.issued, ioId ∈ t'.issued) (hn : t'.newRequests = t.newRequests)
    (hp : t'.pending = t.pending) : Custody t' where
  made := by
    rw [hs, hg]
    intro p hp
    rw [List.length_append]
    exact Nat.lt_add_right _ (h.made p hp)
  guards := by
    rw [hs]
    exact h.guards
  ids := by
    rw [hs]
    exact h.ids
  issued := by
    rw [hs]
    exact fun p hp => hi _ (h.issued p hp)
  places := by
    rw [RpcTask.places, hn, hp, hs, hg, filter_unresolved_append h.made]
    exact h.places

/-- A request is sent to the server, with an id of its own. -/
theorem send (h : Custody t) (new : NewOutgoingRequest) (hguard : new.guard = t.guards.length)
    (hnew : ∀ p ∈ t.sent, p.2 ≠ new.ticket.ioId) (hid : new.ticket.ioId ∈ t.issued)
    (hg : t'.guards = t.guards ++ [.new]) (hs : t'.sent = t.sent ++ [(new.guard, new.ticket.ioId)])
    (hi : t'.issued = t.issued) (hn : t'.newRequests = t.newRequests ++ [new])
    (hp : t'.pending = t.pending) :
    Custody t' where
  made := by
    rw [hs, hg]
    intro p hp
    rw [List.length_append, List.length_singleton]
    rcases List.mem_append.mp hp with hp | hp
    · exact Nat.lt_succ_of_lt (h.made p hp)
    · rw [List.mem_singleton.mp hp, hguard]
      exact Nat.lt_succ_self _
  guards := by
    rw [hs, List.map_append, List.nodup_append]
    refine ⟨h.guards, List.nodup_singleton _, ?_⟩
    intro a ha b hb hab
    obtain ⟨p, hp, rfl⟩ := List.mem_map.mp ha
    have := h.made p hp
    have hb' : b = new.guard := by simpa using hb
    omega
  ids := by
    rw [hs, List.map_append, List.nodup_append]
    refine ⟨h.ids, List.nodup_singleton _, ?_⟩
    intro a ha b hb hab
    obtain ⟨p, hp, rfl⟩ := List.mem_map.mp ha
    have hb' : b = new.ticket.ioId := by simpa using hb
    exact hnew p hp (hab.trans hb')
  issued := by
    rw [hs, hi]
    intro p hp
    rcases List.mem_append.mp hp with hp | hp
    · exact h.issued p hp
    · rw [List.mem_singleton.mp hp]
      exact hid
  places := by
    have hold : t.sent.filter (fun p => unresolved t'.guards p.1) =
        t.sent.filter fun p => unresolved t.guards p.1 := by
      rw [hg, filter_unresolved_append h.made]
    have hnone : unresolved t'.guards new.guard = true := by
      rw [hg, hguard, unresolved, outcomeOf_new]
      rfl
    rw [RpcTask.places, hn, hp, hs, List.filter_append, hold, List.map_append, List.append_assoc,
      show [(new.guard, new.ticket.ioId)].filter (fun p => unresolved t'.guards p.1) =
          [(new.guard, new.ticket.ioId)] by
        simp [hnone]]
    have hmove : (t.newRequests.map (fun new => (new.guard, new.ticket.ioId)) ++
        ([new].map (fun new => (new.guard, new.ticket.ioId)) ++
          t.pending.entries.map fun entry => (entry.2, entry.1))).Perm
        (t.places ++ [(new.guard, new.ticket.ioId)]) := by
      rw [RpcTask.places, List.append_assoc]
      exact List.Perm.append_left _ (List.perm_append_comm)
    exact hmove.trans (h.places.append_right _)

theorem sendNewRequest {ticket : RequestTicket} (h : Custody t)
    (hnew : ∀ p ∈ t.sent, p.2 ≠ ticket.ioId) (hid : ticket.ioId ∈ t.issued) (payload : Option Bytes)
    (expires : Option Nat) :
    Custody (t.sendNewRequest ticket payload expires) := by
  unfold RpcTask.sendNewRequest
  split
  next => exact h.newError _ rfl rfl (fun _ hi => hi) rfl rfl
  next => exact h.send ⟨ticket, t.guards.length, payload, expires⟩ rfl hnew hid rfl rfl rfl rfl rfl

theorem doEnqueueRequest {ticket : RequestTicket} (h : Custody t)
    (hnew : ∀ p ∈ t.sent, p.2 ≠ ticket.ioId) (hid : ticket.ioId ∈ t.issued) (payload : Option Bytes)
    (timeout : Option Nat) (now : Nat) :
    Custody (t.doEnqueueRequest ticket payload timeout now) := by
  unfold RpcTask.doEnqueueRequest
  split
  next => exact h.sendNewRequest hnew hid payload none
  next =>
    split
    next expires _ => exact h.sendNewRequest hnew hid payload (some expires)
    next => exact h.newError _ rfl rfl (fun _ hi => hi) rfl rfl

theorem queueForSending {ticket : Option RequestTicket} {payload : Option Bytes}
    {timeout : Option Nat} {now : Nat} (h : Custody t)
    (hs : t.queueForSending ticket payload timeout now = some t') : Custody t' := by
  unfold RpcTask.queueForSending at hs
  split at hs
  next => simp at hs
  next =>
    split at hs
    next =>
      cases Option.some.inj hs
      exact h.newError _ rfl rfl (fun _ hi => hi) rfl rfl
    next ticket =>
      split at hs
      next => simp at hs
      next hnew =>
        cases Option.some.inj hs
        have hissued : Custody { t with issued := insert ticket.ioId t.issued } :=
          ⟨h.made, h.guards, h.ids, fun p hp => Finset.mem_insert_of_mem (h.issued p hp), h.places⟩
        refine hissued.doEnqueueRequest ?_ (Finset.mem_insert_self _ _) payload timeout now
        intro p hp he
        exact hnew (he ▸ h.issued p hp)

theorem settle (h : Custody t) (ioId : IoId) (value : Except RequestError (Option Bytes)) :
    Custody (t.settle ioId value) := by
  unfold RpcTask.settle
  split
  next => exact h
  next guard hl =>
    have hperm := (entries_erase_perm hl).map fun entry : Sigma fun _ : IoId => Nat =>
      (entry.2, entry.1)
    refine h.resolve [(guard, ioId)] rfl ?_ rfl rfl rfl
    rw [RpcTask.places, RpcTask.places, List.singleton_append]
    exact List.perm_middle.symm.trans (List.Perm.append_left _ hperm)

theorem ids_apart (h : Custody t) : (t.places.map Prod.snd).Nodup := by
  refine ((h.places.map Prod.snd).nodup_iff).mpr ?_
  exact h.ids.sublist (List.filter_sublist.map _)

/-- A request that the server takes up becomes pending, or is resolved. -/
theorem handleNewRequest {new : NewOutgoingRequest} {rest : List NewOutgoingRequest} (h : Custody t)
    (hq : t.newRequests = new :: rest) :
    Custody ({ t with newRequests := rest }.handleNewRequest new) := by
  unfold RpcTask.handleNewRequest
  split
  next =>
    refine h.resolve [(new.guard, new.ticket.ioId)] rfl ?_ rfl rfl rfl
    rw [RpcTask.places, RpcTask.places, hq]
    exact .refl _
  next =>
    have hfresh : new.ticket.ioId ∉ t.pending := by
      intro hm
      have hapart := h.ids_apart
      rw [RpcTask.places, hq, List.map_cons, List.cons_append, List.map_cons,
        List.nodup_cons] at hapart
      refine hapart.1 ?_
      rw [List.map_append, List.mem_append, List.map_map]
      right
      simpa [AList.mem_keys, AList.keys, List.keys, Function.comp_def] using hm
    have hplaces : (RpcTask.places { t with
        newRequests := rest
        pending := t.pending.insert new.ticket.ioId new.guard }).Perm t.places := by
      rw [RpcTask.places, RpcTask.places, hq, AList.entries_insert_of_notMem hfresh]
      exact List.perm_middle
    exact ⟨h.made, h.guards, h.ids, h.issued, hplaces.trans h.places⟩

theorem handleEvent (h : Custody t) (event : IoEvent) : Custody (t.handleEvent event) := by
  cases event with
  | receivedResponse ioId payload => exact h.settle ioId _
  | receivedCancellationResponse ioId => exact h.settle ioId _
  | _ => exact h

theorem expire (h : Custody t) (ioId : IoId) : Custody (t.expire ioId).2 := by
  unfold RpcTask.expire
  split
  next =>
    have hsettled := h.settle ioId (.error .timedOut)
    dsimp only
    split
    next => exact hsettled
    next => exact hsettled.congr rfl rfl rfl rfl rfl
  next => exact h

theorem expireAll (h : Custody t) (expired : List (Nat × IoId)) :
    Custody (t.expireAll expired).2 := by
  induction expired generalizing t with
  | nil => exact h
  | cons entry expired ih => exact ih (h.expire entry.2)

theorem processTimeouts (h : Custody t) (now : Nat) : Custody (t.processTimeouts now).2.2 := by
  have hleft : ∀ timeouts, Custody { t with timeouts } :=
    fun timeouts => h.congr rfl rfl rfl rfl rfl
  exact (hleft _).expireAll _

theorem dropServer (h : Custody t) : Custody t.dropServer := by
  have hpending : Custody { t with
      pending := ∅
      guards :=
        resolveAll t.guards (t.pending.entries.map fun entry => (entry.2, .error .shutdown)) } := by
    refine h.resolve (t.pending.entries.map fun entry => (entry.2, entry.1)) ?_ ?_ rfl rfl rfl
    · simp [Function.comp_def]
    · simp only [RpcTask.places, AList.empty_entries, List.map_nil, List.append_nil]
      exact List.perm_append_comm
  refine hpending.resolve (t.newRequests.map fun new => (new.guard, new.ticket.ioId)) ?_ ?_ rfl rfl
    rfl
  · simp [Function.comp_def]
  · simp [RpcTask.places, RpcTask.dropServer]

theorem step (h : Custody t) (hs : Step t t') : Custody t' := by
  have hplace : ∀ {u : RpcTask} (position : RpcPosition), Custody u → Custody { u with position } :=
    fun position hu => hu.congr rfl rfl rfl rfl rfl
  cases hs with
  | queue ticket payload timeout now t' hq => exact h.queueForSending hq
  | quiet clients coreClosed position _ => exact h.congr rfl rfl rfl rfl rfl
  | turn now position _ _ => exact hplace _ (h.processTimeouts now)
  | recv deadline new rest _ hq => exact hplace _ (h.handleNewRequest hq)
  | event deadline event _ =>
    have hevent : Custody { t with events := t.events ++ [event] } := h.congr rfl rfl rfl rfl rfl
    exact hplace _ (hevent.handleEvent event)
  | drop => exact h.dropServer

theorem new (bubbleTimeouts : Bool) : Custody (RpcTask.new bubbleTimeouts) := by
  refine ⟨?_, ?_, ?_, ?_, ?_⟩ <;> simp [RpcTask.new, RpcTask.places]

end Custody

/-- No outcome is changed on the way from one list of guards to the other. -/
def Keeps (guards guards' : List RequestGuardInner) : Prop :=
  ∀ guard outcome, outcomeOf guards guard = some outcome → outcomeOf guards' guard = some outcome

/-- Besides, no new outcome is an answer. -/
structure Fails (guards guards' : List RequestGuardInner) : Prop where
  keeps : Keeps guards guards'
  old : ∀ guard payload, outcomeOf guards' guard = some (.ok payload) →
    outcomeOf guards guard = some (.ok payload)

theorem Fails.refl (guards : List RequestGuardInner) : Fails guards guards :=
  ⟨fun _ _ ho => ho, fun _ _ ho => ho⟩

theorem Fails.trans {guards₀ guards₁ guards₂ : List RequestGuardInner} (h₁ : Fails guards₀ guards₁)
    (h₂ : Fails guards₁ guards₂) : Fails guards₀ guards₂ :=
  ⟨fun guard outcome ho => h₂.keeps guard outcome (h₁.keeps guard outcome ho),
    fun guard payload ho => h₁.old guard payload (h₂.old guard payload ho)⟩

theorem fails_append (guards : List RequestGuardInner) {new : RequestGuardInner}
    (hnew : ∀ payload, new.outcome ≠ some (.ok payload)) : Fails guards (guards ++ [new]) := by
  constructor
  · intro guard outcome ho
    have hlt : guard < guards.length := by
      by_contra hge
      rw [outcomeOf_of_le (Nat.le_of_not_lt hge)] at ho
      simp at ho
    rwa [outcomeOf_append hlt]
  · intro guard payload ho
    rcases Nat.lt_trichotomy guard guards.length with hlt | heq | hgt
    · rwa [outcomeOf_append hlt] at ho
    · rw [heq, outcomeOf_new] at ho
      exact absurd ho (hnew payload)
    · rw [outcomeOf_of_le (by simp; omega)] at ho
      simp at ho

theorem fails_resolveAll (guards : List RequestGuardInner)
    {values : List (Nat × Except RequestError (Option Bytes))}
    (h : ∀ guard payload, (guard, .ok payload) ∉ values) :
    Fails guards (resolveAll guards values) := by
  refine ⟨fun guard => (resolveAll_outcome values guards guard).1, ?_⟩
  intro guard payload ho
  exact ((resolveAll_outcome values guards guard).2 _ ho).resolve_right (h guard payload)

theorem fails_settle (t : RpcTask) (ioId : IoId) (error : RequestError) :
    Fails t.guards (t.settle ioId (.error error)).guards := by
  unfold settle
  split
  next => exact .refl _
  next => exact fails_resolveAll _ (by simp)

theorem fails_expireAll (t : RpcTask) (expired : List (Nat × IoId)) :
    Fails t.guards (t.expireAll expired).2.guards := by
  induction expired generalizing t with
  | nil => exact .refl _
  | cons entry expired ih =>
    have hone : Fails t.guards (t.expire entry.2).2.guards := by
      unfold expire
      split
      next =>
        have hsettled := fails_settle t entry.2 .timedOut
        dsimp only
        split <;> exact hsettled
      next => exact .refl _
    exact hone.trans (ih _)

theorem fails_processTimeouts (t : RpcTask) (now : Nat) :
    Fails t.guards (t.processTimeouts now).2.2.guards :=
  fails_expireAll { t with timeouts := (t.timeouts.span fun entry => entry.1 ≤ now).2 } _

/-- What queueing a request leaves alone: outcomes, the server, and a channel that is closed. -/
structure Queued (t t' : RpcTask) : Prop where
  fails : Fails t.guards t'.guards
  position : t'.position = t.position
  pending : t'.pending = t.pending
  closed : t.closed = true → t'.closed = true ∧ t'.newRequests = t.newRequests

theorem queued_error (t : RpcTask) (error : RequestError) :
    Queued t { t with guards := t.guards ++ [.newError error] } :=
  ⟨fails_append _ (by simp [RequestGuardInner.newError]), rfl, rfl, fun hc => ⟨hc, rfl⟩⟩

theorem queued_sendNewRequest (t : RpcTask) (ticket : RequestTicket) (payload : Option Bytes)
    (expires : Option Nat) :
    Queued t (t.sendNewRequest ticket payload expires) := by
  unfold sendNewRequest
  split
  next => exact queued_error t _
  next hc => exact ⟨fails_append _ (by simp [RequestGuardInner.new]), rfl, rfl,
    fun hc' => absurd hc' hc⟩

theorem queued_doEnqueueRequest (t : RpcTask) (ticket : RequestTicket) (payload : Option Bytes)
    (timeout : Option Nat) (now : Nat) :
    Queued t (t.doEnqueueRequest ticket payload timeout now) := by
  unfold doEnqueueRequest
  split
  next => exact queued_sendNewRequest t ticket payload none
  next =>
    split
    next expires _ => exact queued_sendNewRequest t ticket payload (some expires)
    next => exact queued_error t _

theorem queued_queueForSending {ticket : Option RequestTicket} {payload : Option Bytes}
    {timeout : Option Nat} {now : Nat}
    (hs : t.queueForSending ticket payload timeout now = some t') : Queued t t' := by
  unfold queueForSending at hs
  split at hs
  next => simp at hs
  next =>
    split at hs
    next =>
      cases Option.some.inj hs
      exact queued_error t _
    next ticket =>
      split at hs
      next => simp at hs
      next =>
        cases Option.some.inj hs
        obtain ⟨hf, hpos, hp, hc⟩ :=
          queued_doEnqueueRequest { t with issued := insert ticket.ioId t.issued }
            ticket payload timeout now
        exact ⟨hf, hpos, hp, hc⟩

/-- A step sets an answer only when one is received for a pending request. -/
theorem Step.outcomes (hs : Step t t') : Fails t.guards t'.guards ∨
    ∃ ioId payload guard, t.pending.lookup ioId = some guard ∧
      t'.events = t.events ++ [.receivedResponse ioId payload] ∧
      t'.guards = resolveAll t.guards [(guard, .ok payload)] := by
  cases hs with
  | queue ticket payload timeout now t' hq => exact .inl (queued_queueForSending hq).fails
  | quiet clients coreClosed position _ => exact .inl (.refl _)
  | turn now position _ _ => exact .inl (fails_processTimeouts t now)
  | recv deadline new rest _ _ =>
    left
    unfold handleNewRequest
    split
    next => exact fails_resolveAll _ (by simp)
    next => exact .refl _
  | event deadline event _ =>
    cases event with
    | receivedResponse ioId payload =>
      cases hl : t.pending.lookup ioId with
      | none =>
        simp only [handleEvent, settle, hl]
        exact .inl (.refl _)
      | some guard =>
        simp only [handleEvent, settle, hl]
        exact .inr ⟨ioId, payload, guard, hl, rfl, rfl⟩
    | receivedCancellationResponse ioId =>
      exact .inl (fails_settle { t with events := t.events ++ [.receivedCancellationResponse ioId] }
        ioId _)
    | _ => exact .inl (.refl _)
  | drop => exact .inl ((fails_resolveAll _ (by simp)).trans (fails_resolveAll _ (by simp)))

theorem Step.keeps (hs : Step t t') : Keeps t.guards t'.guards := by
  rcases hs.outcomes with hf | ⟨_, _, guard, _, _, hg⟩
  · exact hf.keeps
  · intro other outcome ho
    rw [hg]
    exact (resolveAll_outcome _ t.guards other).1 outcome ho

/-- An outcome stays for the rest of the run. -/
theorem Leads.keeps (h : Leads t t') : Keeps t.guards t'.guards := by
  induction h with
  | start => exact fun _ _ ho => ho
  | step _ _ hs ih =>
    exact fun guard outcome ho => (step_steps hs).keeps guard outcome (ih guard outcome ho)

/-- A server that has been dropped has left nothing behind. -/
def LeftNothing (t : RpcTask) : Prop :=
  t.position = .dropped → t.closed = true ∧ t.newRequests = [] ∧ t.pending = ∅

theorem LeftNothing.step (h : LeftNothing t) (hs : Step t t') : LeftNothing t' := by
  cases hs with
  | queue ticket payload timeout now t' hq =>
    have hqueued := queued_queueForSending hq
    intro hd
    obtain ⟨hc, hn, hp⟩ := h (hqueued.position ▸ hd)
    obtain ⟨hc', hn'⟩ := hqueued.closed hc
    exact ⟨hc', hn'.trans hn, hqueued.pending.trans hp⟩
  | quiet clients coreClosed position hpos =>
    intro hd
    rcases hpos with rfl | ⟨hne, _⟩
    · exact h hd
    · exact absurd hd hne
  | turn now position _ hne => exact fun hd => absurd hd hne
  | recv deadline new rest _ _ => exact fun hd => by simp at hd
  | event deadline event _ => exact fun hd => by simp at hd
  | drop => exact fun _ => ⟨rfl, rfl, rfl⟩

/-- The request with this guard and id is in the channel, among the pending requests or resolved, in
one of these places and once, and nowhere with another id. -/
def InOnePlace (t : RpcTask) (guard : Nat) (ioId : IoId) : Prop :=
  t.newRequests.countP (fun new => new.guard = guard) + t.pending.entries.countP
    (fun entry => entry.2 = guard) +
      (if unresolved t.guards guard then 0 else 1) = 1 ∧
    (∀ new ∈ t.newRequests, new.guard = guard → new.ticket.ioId = ioId) ∧
    ∀ ioId', t.pending.lookup ioId' = some guard → ioId' = ioId

theorem Custody.inOnePlace {guard : Nat} {ioId : IoId} (h : Custody t)
    (hs : (guard, ioId) ∈ t.sent) :
    InOnePlace t guard ioId := by
  have hown : ∀ ioId', (guard, ioId') ∈ t.places → ioId' = ioId := by
    intro ioId' hp
    have hp := (List.mem_filter.mp (h.places.subset hp)).1
    exact congrArg Prod.snd (List.inj_on_of_nodup_map h.guards hp hs rfl)
  have hcount : t.newRequests.countP (fun new => new.guard = guard) +
      t.pending.entries.countP (fun entry => entry.2 = guard) =
        t.places.countP fun p => p.1 = guard := by
    rw [RpcTask.places, List.countP_append, List.countP_map, List.countP_map]
    rfl
  have hone : t.sent.countP (fun p => p.1 = guard) = 1 := by
    have hcount := List.count_eq_one_of_mem h.guards (List.mem_map_of_mem (f := Prod.fst) hs)
    rw [List.count, List.countP_map] at hcount
    rw [← hcount]
    exact List.countP_congr (by simp)
  have hall : (t.sent.filter fun p => unresolved t.guards p.1).countP (fun p => p.1 = guard) =
      if unresolved t.guards guard then 1 else 0 := by
    rw [List.countP_filter]
    split
    next hu =>
      rw [← hone]
      refine List.countP_congr ?_
      intro p _
      simp only [Bool.and_eq_true, decide_eq_true_eq]
      exact ⟨fun hp => hp.1, fun hp => ⟨hp, hp ▸ hu⟩⟩
    next hu =>
      refine List.countP_eq_zero.mpr ?_
      intro p _ hp
      simp only [Bool.and_eq_true, decide_eq_true_eq] at hp
      exact hu (hp.1 ▸ hp.2)
  refine ⟨?_, ?_, ?_⟩
  · rw [hcount, h.places.countP_eq, hall]
    split <;> rfl
  · intro new hn he
    refine hown _ (List.mem_append_left _ (List.mem_map.mpr ⟨new, hn, ?_⟩))
    rw [he]
  · intro ioId' hl
    have hentry := AList.mem_lookup_iff.mp hl
    exact hown _ (List.mem_append_right _ (List.mem_map.mpr ⟨_, hentry, rfl⟩))

/-- Nothing waits any more once the server has been dropped. -/
theorem Custody.resolved {guard : Nat} {ioId : IoId} (h : Custody t) (hl : LeftNothing t)
    (hd : t.position = .dropped) (hs : (guard, ioId) ∈ t.sent) :
    (outcomeOf t.guards guard).isSome = true := by
  obtain ⟨_, hn, hp⟩ := hl hd
  obtain ⟨hone, _⟩ := h.inOnePlace hs
  rw [hn, hp] at hone
  by_contra hnone
  have hu : unresolved t.guards guard = true := by simpa [unresolved] using hnone
  simp [hu] at hone

/-- In every run each request that has been sent to the server is in the channel, pending under its
own id or resolved, and in one of these places only; an outcome that is set stays; an answer is set
only when it is received for the id of the request; and a server that has been dropped has resolved
all requests. -/
theorem no_request_lost {bubbleTimeouts : Bool} (h : Reach bubbleTimeouts t) :
    (∀ guard ioId, (guard, ioId) ∈ t.sent → InOnePlace t guard ioId) ∧
    (∀ t', Leads t t' → Keeps t.guards t'.guards) ∧
    (∀ a t', t.step a = some t' → ∀ guard payload, outcomeOf t.guards guard = none →
      outcomeOf t'.guards guard = some (.ok payload) →
      ∃ ioId, (guard, ioId) ∈ t.sent ∧ t'.events = t.events ++ [.receivedResponse ioId payload]) ∧
    (t.position = .dropped → ∀ guard ioId, (guard, ioId) ∈ t.sent →
      (outcomeOf t.guards guard).isSome = true) := by
  have hinv : Custody t ∧ LeftNothing t := by
    refine Transition.Reach.invariant (P := fun t => Custody t ∧ LeftNothing t) h
      ⟨.new bubbleTimeouts, by simp [LeftNothing, RpcTask.new]⟩ ?_
    intro t t' a hinv _ hs
    exact ⟨hinv.1.step (step_steps hs), hinv.2.step (step_steps hs)⟩
  obtain ⟨hcustody, hleft⟩ := hinv
  refine ⟨fun guard ioId hs => hcustody.inOnePlace hs, fun t' ht => Leads.keeps ht, ?_,
    fun hd guard ioId hs => hcustody.resolved hleft hd hs⟩
  intro a t' hs guard payload hnone hok
  rcases (step_steps hs).outcomes with hf | ⟨ioId, payload', guard', hl, he, hg⟩
  · rw [hf.old guard payload hok] at hnone
    simp at hnone
  · rw [hg] at hok
    have hm := ((resolveAll_outcome _ t.guards guard).2 _ hok).resolve_left (by simp [hnone])
    obtain ⟨rfl, hp⟩ := Prod.mk.inj (List.mem_singleton.mp hm)
    cases Except.ok.inj hp
    have hplace : (guard, ioId) ∈ t.places :=
      List.mem_append_right _ (List.mem_map.mpr ⟨_, AList.mem_lookup_iff.mp hl, rfl⟩)
    exact ⟨ioId, (List.mem_filter.mp (hcustody.places.subset hplace)).1, he⟩

/-- Of four requests one is answered, one times out, and the others are pending and in the channel
when the server is dropped. -/
def droppedServer : List RpcAct :=
  [.queueForSending (some ⟨⟨0⟩, ⟨1⟩⟩) none none 0,
    .queueForSending (some ⟨⟨0⟩, ⟨2⟩⟩) none (some 5) 0, .queueForSending (some ⟨⟨0⟩, ⟨3⟩⟩) none none
    0, .turn 0, .recv, .turn 1, .recv, .turn 2, .recv, .turn 3,
    .event (.receivedResponse ⟨1⟩ (some [7])), .turn 6,
    .queueForSending (some ⟨⟨0⟩, ⟨4⟩⟩) (some [9]) none 6, .drop]

theorem no_request_lost_dropped :
    ∃ t, run false droppedServer = some t ∧ t.sent = [(0, ⟨1⟩), (1, ⟨2⟩), (2, ⟨3⟩), (3, ⟨4⟩)] ∧
      t.guards.map RequestGuardInner.outcome = [some (.ok (some [7])), some (.error .timedOut),
        some (.error .shutdown),
        some (.error (.remoteClosed (some [9])))] ∧
      t.enqueued = [.request ⟨0⟩ ⟨1⟩ none, .request ⟨0⟩ ⟨2⟩ none, .request ⟨0⟩ ⟨3⟩ none,
        .requestCancellation ⟨2⟩] ∧
      (∀ guard ioId, (guard, ioId) ∈ t.sent → InOnePlace t guard ioId) ∧
      ∀ guard ioId, (guard, ioId) ∈ t.sent → (outcomeOf t.guards guard).isSome = true := by
  have hrun : (run false droppedServer).map
      (fun t => (t.sent, t.guards.map RequestGuardInner.outcome, t.enqueued,
      t.position)) = some ([(0, ⟨1⟩), (1, ⟨2⟩), (2, ⟨3⟩), (3, ⟨4⟩)], [some (.ok (some [7])),
      some (.error .timedOut),
        some (.error .shutdown), some (.error (.remoteClosed (some [9])))],
        [.request ⟨0⟩ ⟨1⟩ none, .request ⟨0⟩ ⟨2⟩ none, .request ⟨0⟩ ⟨3⟩ none,
          .requestCancellation ⟨2⟩], .dropped) := rfl
  obtain ⟨t, ht, he⟩ := Option.map_eq_some_iff.mp hrun
  simp only [Prod.mk.injEq] at he
  obtain ⟨hsent, hguards, henqueued, hposition⟩ := he
  have hreach : Reach false t := Transition.Reach.exec .start ht
  obtain ⟨hplaces, _, _, hresolved⟩ := no_request_lost hreach
  exact ⟨t, ht, hsent, hguards, henqueued, hplaces, hresolved hposition⟩

end RpcTask

end Juliet
