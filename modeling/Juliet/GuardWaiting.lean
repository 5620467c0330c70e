import Juliet.RpcCustody

namespace Juliet

/-- Where the holder of a `RequestGuard` stands: it has the guard, waits in `wait_for_response` and
may have been woken, has got the outcome, has panicked in `take_inner`, or has let go of the
guard. -/
inductive GuardHolder
  | holds
  | waits (woken : Bool)
  | returned (outcome : Except RequestError (Option Bytes))
  | panicked
  | gone
  deriving DecidableEq

/-- A guard on the side of its holder, with the permit that is stored in `ready`, and whether the
outcome has been set and `notify_one` is still to be called. -/
structure GuardEnd where
  holder : GuardHolder
  permit : Bool
  unnotified : Bool
  deriving DecidableEq

inductive GuardAct
  | waitForResponse
  | poll
  | tryGetResponse
  | cancel
  | forget
  | drop

def RequestGuardInner.takeInner (self : RequestGuardInner) : GuardHolder :=
  match self.outcome with
  | some outcome => .returned outcome
  | none => .panicked

namespace GuardEnd

def new : GuardEnd := ⟨.holds, false, false⟩

/-- `notify_one` wakes the one that waits, or stores a permit for the next one. -/
def notifyOne (self : GuardEnd) : GuardEnd :=
  match self.holder with
  | .waits false => { self with holder := .waits true, unnotified := false }
  | _ => { self with permit := true, unnotified := false }

/-- What the holder of a guard does. A future that is dropped passes on the notification that it has
got. -/
def step (self : GuardEnd) (inner : RequestGuardInner) : GuardAct → Option GuardEnd
  | .waitForResponse =>
    if self.holder = .holds then
      match inner.ready with
      | none => some { self with holder := inner.takeInner }
      | some _ =>
        if self.permit then some { self with holder := inner.takeInner, permit := false }
        else some { self with holder := .waits false }
    else none
  | .poll =>
    match self.holder with
    | .waits true => some { self with holder := inner.takeInner }
    | .waits false => some self
    | _ => none
  | .tryGetResponse =>
    if self.holder = .holds then
      if inner.outcome.isSome then some { self with holder := inner.takeInner } else some self
    else none
  | .cancel | .forget => if self.holder = .holds then some { self with holder := .gone } else none
  | .drop =>
    match self.holder with
    | .holds => some { self with holder := .gone }
    | .waits woken => some { self with holder := .gone, permit := self.permit || woken }
    | _ => none

/-- How an end and what it shares with the server fit: while there is a holder, the permit, the
holder that is woken and the call of `notify_one` to come are together one, if the outcome is set,
and none otherwise. -/
structure Fits (inner : RequestGuardInner) (e : GuardEnd) : Prop where
  ready : inner.outcome = none → inner.ready.isSome = true
  holds : e.holder = .holds → inner.ready.isSome = true →
    e.permit.toNat + e.unnotified.toNat = inner.outcome.isSome.toNat
  waits : ∀ woken, e.holder = .waits woken → e.permit = false ∧ inner.ready.isSome = true ∧
    woken.toNat + e.unnotified.toNat = inner.outcome.isSome.toNat
  returned : ∀ outcome, e.holder = .returned outcome → inner.outcome = some outcome
  sane : e.holder ≠ .panicked

variable {inner inner' : RequestGuardInner} {e e' : GuardEnd}

theorem fits_new : Fits .new .new := by
  constructor <;> simp [RequestGuardInner.new, new]

theorem fits_newError (error : RequestError) : Fits (.newError error) .new := by
  constructor <;> simp [RequestGuardInner.newError, new]

/-- A holder that lets go. -/
theorem Fits.letGo (h : Fits inner e) (permit : Bool) :
    Fits inner { e with holder := .gone, permit } where
  ready := h.ready
  holds := by simp
  waits := by simp
  returned := by simp
  sane := by simp

theorem Fits.takeInner (h : Fits inner e) (hset : inner.outcome.isSome = true) (permit : Bool) :
    Fits inner { e with holder := inner.takeInner, permit } := by
  obtain ⟨outcome, ho⟩ := Option.isSome_iff_exists.mp hset
  have htake : inner.takeInner = .returned outcome := by simp [RequestGuardInner.takeInner, ho]
  rw [htake]
  refine ⟨h.ready, by simp, by simp, ?_, by simp⟩
  intro outcome' he
  cases he
  exact ho

theorem Fits.step {a : GuardAct} (h : Fits inner e) (hs : e.step inner a = some e') :
    Fits inner e' := by
  cases a with
  | waitForResponse =>
    simp only [GuardEnd.step] at hs
    split at hs
    next hholds =>
      split at hs
      next hnone =>
        cases Option.some.inj hs
        refine h.takeInner ?_ e.permit
        by_contra hunset
        have hready := h.ready (by simpa using hunset)
        simp [hnone] at hready
      next n hready =>
        have hcount := h.holds hholds (by simp [hready])
        split at hs
        next hpermit =>
          cases Option.some.inj hs
          refine h.takeInner ?_ false
          by_contra hunset
          rw [hpermit, Bool.eq_false_of_not_eq_true hunset] at hcount
          simp at hcount
        next hpermit =>
          cases Option.some.inj hs
          refine ⟨h.ready, by simp, ?_, by simp, by simp⟩
          intro woken he
          cases he
          simp only [Bool.not_eq_true] at hpermit
          exact ⟨hpermit, by simp [hready], by simpa [hpermit] using hcount⟩
    next => simp at hs
  | poll =>
    simp only [GuardEnd.step] at hs
    split at hs
    next hwaits =>
      cases Option.some.inj hs
      refine h.takeInner ?_ e.permit
      obtain ⟨_, _, hcount⟩ := h.waits true hwaits
      by_contra hunset
      rw [Bool.eq_false_of_not_eq_true hunset] at hcount
      simp at hcount
    next =>
      cases Option.some.inj hs
      exact h
    next => simp at hs
  | tryGetResponse =>
    simp only [GuardEnd.step] at hs
    split at hs
    next =>
      split at hs
      next hset =>
        cases Option.some.inj hs
        exact h.takeInner hset e.permit
      next =>
        cases Option.some.inj hs
        exact h
    next => simp at hs
  | cancel | forget =>
    simp only [GuardEnd.step] at hs
    split at hs
    next =>
      cases Option.some.inj hs
      exact h.letGo e.permit
    next => simp at hs
  | drop =>
    simp only [GuardEnd.step] at hs
    split at hs
    next =>
      cases Option.some.inj hs
      exact h.letGo e.permit
    next woken _ =>
      cases Option.some.inj hs
      exact h.letGo (e.permit || woken)
    next => simp at hs

theorem Fits.congr (h : Fits inner e) (ho : inner'.outcome = inner.outcome)
    (hr : inner'.ready.isSome = inner.ready.isSome) :
    Fits inner' e where
  ready := by
    rw [ho, hr]
    exact h.ready
  holds := by
    rw [ho, hr]
    exact h.holds
  waits := by
    rw [ho, hr]
    exact h.waits
  returned := by
    rw [ho]
    exact h.returned
  sane := h.sane

/-- The outcome is set, and `notify_one` is to be called. -/
theorem Fits.set (h : Fits inner e) (hunset : inner.outcome = none)
    (hset : inner'.outcome.isSome = true) (hready : inner'.ready.isSome = inner.ready.isSome) :
    Fits inner' { e with unnotified := true } where
  ready := by
    intro hnone
    simp [hnone] at hset
  holds := by
    intro hholds hr
    have hcount := h.holds hholds (hready ▸ hr)
    simp only [hunset, hset, Option.isSome_none, Bool.toNat_false, Bool.toNat_true] at hcount ⊢
    omega
  waits := by
    intro woken hwaits
    obtain ⟨hpermit, hr, hcount⟩ := h.waits woken hwaits
    refine ⟨hpermit, hready.trans hr, ?_⟩
    simp only [hunset, hset, Option.isSome_none, Bool.toNat_false, Bool.toNat_true] at hcount ⊢
    omega
  returned := by
    intro outcome hreturned
    have ho := h.returned outcome hreturned
    simp [hunset] at ho
  sane := h.sane

theorem Fits.notifyOne (h : Fits inner e) (hto : e.unnotified = true) : Fits inner e.notifyOne := by
  unfold GuardEnd.notifyOne
  split
  next hwaits =>
    obtain ⟨hpermit, hr, hcount⟩ := h.waits false hwaits
    refine ⟨h.ready, by simp, ?_, by simp, by simp⟩
    intro woken he
    cases he
    exact ⟨hpermit, hr, by simpa [hto] using hcount⟩
  next hnot =>
    refine ⟨h.ready, ?_, ?_, h.returned, h.sane⟩
    · intro hholds hr
      have hcount := h.holds hholds hr
      have hle := Bool.toNat_le inner.outcome.isSome
      rw [hto] at hcount
      simp only [Bool.toNat_true, Bool.toNat_false] at hcount ⊢
      omega
    · intro woken hwaits
      cases woken with
      | false => exact absurd hwaits hnot
      | true =>
        obtain ⟨_, _, hcount⟩ := h.waits true hwaits
        have hle := Bool.toNat_le inner.outcome.isSome
        rw [hto] at hcount
        simp only [Bool.toNat_true] at hcount
        omega

end GuardEnd

/-- A guard that is resolved keeps an outcome that it has, and may be waited for as before. -/
theorem resolveAll_getElem? (values : List (Nat × Except RequestError (Option Bytes)))
    {guards : List RequestGuardInner} {guard : Nat} {inner : RequestGuardInner}
    (h : guards[guard]? = some inner) :
    ∃ inner', (resolveAll guards values)[guard]? = some inner' ∧
      inner'.ready.isSome = inner.ready.isSome ∧
      ∀ outcome, inner.outcome = some outcome → inner'.outcome = some outcome := by
  induction values generalizing guards inner with
  | nil => exact ⟨inner, h, rfl, fun _ ho => ho⟩
  | cons value values ih =>
    obtain ⟨one, hone, hready, hkeeps⟩ : ∃ one,
        (guards.modify value.1 fun g => g.setAndNotify value.2)[guard]? = some one ∧
        one.ready.isSome = inner.ready.isSome ∧ ∀ outcome, inner.outcome = some outcome →
          one.outcome = some outcome := by
      rw [List.getElem?_modify, h]
      by_cases he : value.1 = guard
      · refine ⟨inner.setAndNotify value.2, by simp [he], ?_, ?_⟩
        · unfold RequestGuardInner.setAndNotify
          dsimp only
          split <;> simp
        · intro outcome ho
          simp [RequestGuardInner.setAndNotify, ho]
      · exact ⟨inner, by simp [he], rfl, fun _ ho => ho⟩
    obtain ⟨inner', hinner', hready', hkeeps'⟩ := ih hone
    exact ⟨inner', hinner', hready'.trans hready,
      fun outcome ho => hkeeps' outcome (hkeeps outcome ho)⟩

namespace RpcTask

variable {t t' t'' : RpcTask}

/-- Some guards are resolved, and no request is sent. -/
def Resolves (t t' : RpcTask) : Prop :=
  t'.sent = t.sent ∧ ∃ values, t'.guards = resolveAll t.guards values

theorem Resolves.refl (t : RpcTask) : Resolves t t := ⟨rfl, [], rfl⟩

theorem Resolves.trans (h : Resolves t t') (h' : Resolves t' t'') : Resolves t t'' := by
  obtain ⟨hs, values, hg⟩ := h
  obtain ⟨hs', values', hg'⟩ := h'
  refine ⟨hs'.trans hs, values ++ values', ?_⟩
  rw [hg', hg, resolveAll, resolveAll, resolveAll, List.foldl_append]

theorem resolves_settle (t : RpcTask) (ioId : IoId) (value : Except RequestError (Option Bytes)) :
    Resolves t (t.settle ioId value) := by
  unfold settle
  split
  next => exact .refl t
  next => exact ⟨rfl, _, rfl⟩

theorem resolves_expireAll (t : RpcTask) (expired : List (Nat × IoId)) :
    Resolves t (t.expireAll expired).2 := by
  induction expired generalizing t with
  | nil => exact .refl t
  | cons entry expired ih =>
    have hone : Resolves t (t.expire entry.2).2 := by
      have hsettle := resolves_settle t entry.2 (.error .timedOut)
      unfold expire
      split
      next =>
        dsimp only
        split <;> exact hsettle
      next => exact .refl t
    exact hone.trans (ih _)

/-- The steps other than queueing resolve guards. -/
theorem Served.resolves (hs : Served t t') : Resolves t t' := by
  cases hs with
  | quiet _ _ _ _ => exact ⟨rfl, [], rfl⟩
  | turn now position _ _ =>
    have hall :=
      resolves_expireAll { t with timeouts := (t.timeouts.span fun entry => entry.1 ≤ now).2 }
      (t.timeouts.span fun entry => entry.1 ≤ now).1
    exact hall
  | recv deadline new rest _ _ =>
    unfold handleNewRequest
    dsimp only
    split
    next => exact ⟨rfl, _, rfl⟩
    next => exact ⟨rfl, [], rfl⟩
  | event deadline event _ =>
    cases event with
    | newRequest _ _ _ | requestCancelled _ _ => exact ⟨rfl, [], rfl⟩
    | receivedResponse ioId payload =>
      have hsettle := resolves_settle
        { t with events := t.events ++ [.receivedResponse ioId payload] } ioId (.ok payload)
      exact hsettle
    | receivedCancellationResponse ioId =>
      have hsettle :=
        resolves_settle { t with events := t.events ++ [.receivedCancellationResponse ioId] } ioId
        (.error .remoteCancelled)
      exact hsettle
  | drop =>
    have hfirst : Resolves t { t with
        guards := resolveAll t.guards
          (t.pending.entries.map fun entry => (entry.2, .error .shutdown)) } := ⟨rfl, _, rfl⟩
    exact hfirst.trans ⟨rfl, _, rfl⟩

/-- Queueing a request makes one guard, which has an outcome or whose request is sent. -/
theorem queueForSending_guards {ticket : Option RequestTicket} {payload : Option Bytes}
    {timeout : Option Nat} {now : Nat}
    (h : t.queueForSending ticket payload timeout now = some t') :
    (∃ error, t'.guards = t.guards ++ [.newError error] ∧ t'.sent = t.sent) ∨
      ∃ ioId, t'.guards = t.guards ++ [.new] ∧ t'.sent = t.sent ++ [(t.guards.length, ioId)] := by
  have hsend : ∀ (t : RpcTask) ticket expires,
      (∃ error, (t.sendNewRequest ticket payload expires).guards = t.guards ++ [.newError error] ∧
        (t.sendNewRequest ticket payload expires).sent = t.sent) ∨
      ∃ ioId, (t.sendNewRequest ticket payload expires).guards = t.guards ++ [.new] ∧
        (t.sendNewRequest ticket payload expires).sent = t.sent ++ [(t.guards.length, ioId)] := by
    intro t ticket expires
    unfold sendNewRequest
    split
    next => exact .inl ⟨_, rfl, rfl⟩
    next => exact .inr ⟨_, rfl, rfl⟩
  unfold queueForSending at h
  split at h
  next => simp at h
  next =>
    split at h
    next =>
      cases Option.some.inj h
      exact .inl ⟨_, rfl, rfl⟩
    next ticket =>
      split at h
      next => simp at h
      next =>
        cases Option.some.inj h
        unfold doEnqueueRequest
        split
        next => exact hsend _ ticket none
        next =>
          split
          next expires _ => exact hsend _ ticket (some expires)
          next => exact .inl ⟨_, rfl, rfl⟩

end RpcTask

/-- A server with its clients, and those that hold the guards of their requests. -/
structure RpcGuards where
  server : RpcTask
  ends : Nat → GuardEnd

inductive GuardedAct
  | serve (a : RpcAct)
  | notify (guard : Nat)
  | client (guard : Nat) (a : GuardAct)

namespace RpcGuards

def new (bubbleTimeouts : Bool) : RpcGuards := ⟨.new bubbleTimeouts, fun _ => .new⟩

/-- Whether a step of the server has set the outcome of a guard that has to be notified of it. -/
def newlySet (guards guards' : List RequestGuardInner) (guard : Nat) : Bool :=
  unresolved guards guard && !unresolved guards' guard &&
    guards'[guard]?.any fun inner => inner.ready.isSome

/-- The server and its clients and the holders of the guards take steps in any order. The server
sets an outcome and calls `notify_one` in two steps. -/
def step (s : RpcGuards) : GuardedAct → Option RpcGuards
  | .serve a => (s.server.step a).map fun server =>
    { server
      ends := fun guard =>
        if newlySet s.server.guards server.guards guard then
          { s.ends guard with unnotified := true }
        else s.ends guard }
  | .notify guard =>
    if (s.ends guard).unnotified then
      some { s with ends := Function.update s.ends guard (s.ends guard).notifyOne }
    else none
  | .client guard a =>
    match s.server.guards[guard]? with
    | some inner =>
      ((s.ends guard).step inner a).map fun e => { s with ends := Function.update s.ends guard e }
    | none => none

abbrev Reach (bubbleTimeouts : Bool) : RpcGuards → Prop :=
  Transition.Reach step (fun _ _ => true) (new bubbleTimeouts)

/-- What holds of a server and the holders of its guards. -/
structure Kept (s : RpcGuards) : Prop where
  custody : s.server.Custody
  left : s.server.LeftNothing
  sent : ∀ guard inner, s.server.guards[guard]? = some inner → inner.outcome = none →
    ∃ ioId, (guard, ioId) ∈ s.server.sent
  fits : ∀ guard inner, s.server.guards[guard]? = some inner → (s.ends guard).Fits inner
  unmade : ∀ guard, s.server.guards.length ≤ guard → s.ends guard = .new

theorem kept_new (bubbleTimeouts : Bool) : Kept (new bubbleTimeouts) where
  custody := .new bubbleTimeouts
  left := by simp [RpcTask.LeftNothing, new, RpcTask.new]
  sent := by simp [new, RpcTask.new]
  fits := by simp [new, RpcTask.new]
  unmade _ _ := rfl

variable {s s' : RpcGuards}

theorem newlySet_of {guards guards' : List RequestGuardInner} {guard : Nat}
    {inner inner' : RequestGuardInner} (h : guards[guard]? = some inner)
    (h' : guards'[guard]? = some inner') :
    newlySet guards guards' guard =
      (inner.outcome.isNone && inner'.outcome.isSome && inner'.ready.isSome) := by
  simp [newlySet, unresolved, outcomeOf, h, h']

/-- The server resolves guards. -/
theorem Kept.serves {server : RpcTask} (h : Kept s) (hs : RpcTask.Step s.server server)
    (hr : s.server.Resolves server) :
    Kept { server, ends := fun guard =>
      if newlySet s.server.guards server.guards guard then { s.ends guard with unnotified := true }
      else s.ends guard } := by
  obtain ⟨hsent, values, hguards⟩ := hr
  have hlength : server.guards.length = s.server.guards.length := by rw [hguards, resolveAll_length]
  -- where each guard comes from
  have hfrom : ∀ {guard : Nat} {inner' : RequestGuardInner}, server.guards[guard]? = some inner' →
      ∃ inner, s.server.guards[guard]? = some inner ∧ inner'.ready.isSome = inner.ready.isSome ∧
        ∀ outcome, inner.outcome = some outcome → inner'.outcome = some outcome := by
    intro guard inner' hg'
    have hlt : guard < s.server.guards.length := hlength ▸ (List.getElem?_eq_some_iff.mp hg').1
    obtain ⟨inner'', hg'', hready, hkeeps⟩ :=
      resolveAll_getElem? values (List.getElem?_eq_getElem hlt)
    rw [← hguards, hg'] at hg''
    cases Option.some.inj hg''
    exact ⟨_, List.getElem?_eq_getElem hlt, hready, hkeeps⟩
  refine ⟨h.custody.step hs, h.left.step hs, ?_, ?_, ?_⟩
  · intro guard inner' hg' hnone
    obtain ⟨inner, hg, _, hkeeps⟩ := hfrom hg'
    rw [hsent]
    refine h.sent guard inner hg ?_
    rw [Option.eq_none_iff_forall_ne_some]
    intro outcome ho
    simp [hkeeps outcome ho] at hnone
  · intro guard inner' hg'
    obtain ⟨inner, hg, hready, hkeeps⟩ := hfrom hg'
    have hfits := h.fits guard inner hg
    simp only [newlySet_of hg hg']
    cases ho : inner.outcome with
    | some outcome =>
      have ho' := hkeeps outcome ho
      simp only [Option.isNone_some, Bool.false_and, Bool.false_eq_true, if_false]
      exact hfits.congr (ho'.trans ho.symm) hready
    | none =>
      have hr := hready.trans (hfits.ready ho)
      by_cases hset : inner'.outcome.isSome = true
      · simp only [Option.isNone_none, hset, hr, Bool.and_self, if_true]
        exact hfits.set ho hset hready
      · have hnone : inner'.outcome = none := by simpa using hset
        simp only [Option.isNone_none, hnone, Option.isSome_none, Bool.and_false, Bool.false_and,
          Bool.false_eq_true, if_false]
        exact hfits.congr (hnone.trans ho.symm) hready
  · intro guard hle
    have hnone : server.guards[guard]? = none := List.getElem?_eq_none_iff.mpr hle
    simp only [newlySet, unresolved, outcomeOf, hnone, Option.any_none, Bool.and_false,
      Bool.false_eq_true, if_false]
    exact h.unmade guard (hlength ▸ hle)

/-- A request is queued, and its guard is with the client. -/
theorem Kept.queues {server : RpcTask} {ticket : Option RequestTicket} {payload : Option Bytes}
    {timeout : Option Nat} {now : Nat} (h : Kept s)
    (hs : s.server.queueForSending ticket payload timeout now = some server) :
    Kept { server, ends := fun guard =>
      if newlySet s.server.guards server.guards guard then { s.ends guard with unnotified := true }
      else s.ends guard } := by
  have hstep : RpcTask.Step s.server server := .queue ticket payload timeout now server hs
  obtain ⟨new, hguards, hfits, hquiet, hsent, hmore⟩ : ∃ new,
      server.guards = s.server.guards ++ [new] ∧
      GuardEnd.Fits new .new ∧ (new.outcome.isSome && new.ready.isSome) = false ∧
      (new.outcome = none → ∃ ioId, (s.server.guards.length, ioId) ∈ server.sent) ∧
        s.server.sent ⊆ server.sent := by
    rcases RpcTask.queueForSending_guards hs with ⟨error, hg, hsent⟩ | ⟨ioId, hg, hsent⟩
    · refine ⟨_, hg, GuardEnd.fits_newError error, rfl, by simp [RequestGuardInner.newError], ?_⟩
      rw [hsent]
      exact List.Subset.refl _
    · refine ⟨_, hg, GuardEnd.fits_new, rfl, fun _ => ⟨ioId, ?_⟩, ?_⟩
      · rw [hsent]
        exact List.mem_append_right _ List.mem_cons_self
      · rw [hsent]
        exact List.subset_append_left _ _
  have hcases : ∀ {guard : Nat} {inner : RequestGuardInner}, server.guards[guard]? = some inner →
      s.server.guards[guard]? = some inner ∨ guard = s.server.guards.length ∧ inner = new := by
    intro guard inner hg
    rw [hguards, List.getElem?_append] at hg
    split at hg
    next => exact .inl hg
    next hge =>
      obtain ⟨hlt, he⟩ := List.getElem?_eq_some_iff.mp hg
      simp only [List.length_singleton] at hlt
      exact .inr ⟨by omega, by simpa using he.symm⟩
  have hnot : ∀ guard, newlySet s.server.guards server.guards guard = false := by
    intro guard
    cases hg : server.guards[guard]? with
    | none => simp [newlySet, hg]
    | some inner =>
      rcases hcases hg with hold | ⟨_, rfl⟩
      · rw [newlySet_of hold hg]
        cases inner.outcome <;> rfl
      · cases ho : inner.outcome with
        | none => simp [newlySet, unresolved, outcomeOf, hg, ho]
        | some outcome =>
          have hready : inner.ready.isSome = false := by simpa [ho] using hquiet
          simp [newlySet, hg, hready]
  refine ⟨h.custody.step hstep, h.left.step hstep, ?_, ?_, ?_⟩
  · intro guard inner hg hnone
    rcases hcases hg with hold | ⟨rfl, rfl⟩
    · obtain ⟨ioId, hin⟩ := h.sent guard inner hold hnone
      exact ⟨ioId, hmore hin⟩
    · exact hsent hnone
  · intro guard inner hg
    simp only [hnot, Bool.false_eq_true, if_false]
    rcases hcases hg with hold | ⟨rfl, rfl⟩
    · exact h.fits guard inner hold
    · rw [h.unmade _ (Nat.le_refl _)]
      exact hfits
  · intro guard hle
    simp only [hnot, Bool.false_eq_true, if_false]
    refine h.unmade guard ?_
    rw [hguards, List.length_append] at hle
    exact Nat.le_of_add_right_le hle

/-- A holder of a guard, or the call of `notify_one` for it. -/
theorem Kept.update {guard : Nat} {e : GuardEnd} (h : Kept s) (hlt : guard < s.server.guards.length)
    (he : ∀ inner, s.server.guards[guard]? = some inner → e.Fits inner) :
    Kept { s with ends := Function.update s.ends guard e } where
  custody := h.custody
  left := h.left
  sent := h.sent
  fits := by
    intro other inner hg
    by_cases ho : other = guard
    · subst ho
      simpa using he inner hg
    · simpa [ho] using h.fits other inner hg
  unmade := by
    intro other hle
    have hle : s.server.guards.length ≤ other := hle
    have ho : other ≠ guard := by omega
    simpa [ho] using h.unmade other hle

theorem Kept.step (h : Kept s) {a : GuardedAct} (hs : s.step a = some s') : Kept s' := by
  cases a with
  | serve a =>
    obtain ⟨server, hserver, rfl⟩ := Option.map_eq_some_iff.mp hs
    rcases RpcTask.step_served hserver with ⟨ticket, payload, timeout, now, rfl⟩ | hserved
    · exact h.queues hserver
    · exact h.serves (RpcTask.step_steps hserver) hserved.resolves
  | notify guard =>
    simp only [RpcGuards.step] at hs
    split at hs
    next hto =>
      cases Option.some.inj hs
      refine h.update ?_ fun inner hg => (h.fits guard inner hg).notifyOne hto
      by_contra hge
      simp [h.unmade guard (Nat.le_of_not_lt hge), GuardEnd.new] at hto
    next => simp at hs
  | client guard a =>
    simp only [RpcGuards.step] at hs
    split at hs
    next inner hg =>
      obtain ⟨e, he, rfl⟩ := Option.map_eq_some_iff.mp hs
      refine h.update (List.getElem?_eq_some_iff.mp hg).1 ?_
      intro inner' hg'
      rw [hg] at hg'
      cases Option.some.inj hg'
      exact (h.fits guard inner hg).step he
    next => simp at hs

/-- In every run of a server, its clients and those that hold the guards of their requests: no
holder panics, what a holder gets is the outcome of the request, one that has been woken gets it,
and one that waits and has not been woken waits for a request that has no outcome yet, with the
server still there, or is about to be notified. -/
theorem holders_are_woken {bubbleTimeouts : Bool} (h : Reach bubbleTimeouts s) {guard : Nat}
    {inner : RequestGuardInner} (hg : s.server.guards[guard]? = some inner) :
    (s.ends guard).holder ≠ .panicked ∧
    (∀ outcome, (s.ends guard).holder = .returned outcome → inner.outcome = some outcome) ∧
    ((s.ends guard).holder = .waits true → ∃ outcome, inner.outcome = some outcome) ∧
    ((s.ends guard).holder = .waits false → inner.outcome = none ∧ s.server.position ≠ .dropped ∨
      (s.ends guard).unnotified = true) := by
  have hkept : Kept s := Transition.Reach.invariant h (kept_new bubbleTimeouts)
    fun hP _ hs => hP.step hs
  have hfits := hkept.fits guard inner hg
  refine ⟨hfits.sane, hfits.returned, ?_, ?_⟩
  · intro hwaits
    obtain ⟨_, _, hcount⟩ := hfits.waits true hwaits
    refine Option.isSome_iff_exists.mp ?_
    by_contra hunset
    rw [Bool.eq_false_of_not_eq_true hunset] at hcount
    simp at hcount
  · intro hwaits
    obtain ⟨_, _, hcount⟩ := hfits.waits false hwaits
    cases ho : inner.outcome with
    | some outcome =>
      right
      simpa [ho] using hcount
    | none =>
      refine .inl ⟨rfl, ?_⟩
      intro hdropped
      obtain ⟨ioId, hin⟩ := hkept.sent guard inner hg ho
      have hresolved := hkept.custody.resolved hkept.left hdropped hin
      simp [outcomeOf, hg, ho] at hresolved

/-- A client waits for the response while the server is dropped, and another one looks after
that. -/
def waitingForDropped : List GuardedAct :=
  [.serve (.queueForSending (some ⟨⟨0⟩, ⟨1⟩⟩) none none 0),
    .serve (.queueForSending (some ⟨⟨0⟩, ⟨2⟩⟩) none none 0), .client 0 .waitForResponse,
    .client 1 .tryGetResponse, .serve (.turn 0), .serve .recv, .client 0 .poll, .serve .drop,
    .client 1 .tryGetResponse, .notify 0, .client 0 .poll]

theorem holders_are_woken_dropped : ∃ s : RpcGuards, s.server.position = .dropped ∧
    (s.ends 1).holder = .returned (.error (.remoteClosed none)) ∧ (s.ends 0).holder =
      .returned (.error .shutdown) ∧
    ∃ inner, s.server.guards[0]? = some inner ∧ inner.outcome = some (.error .shutdown) := by
  have hrun : (Transition.exec step (fun _ _ => true) waitingForDropped (new false)).map
      (fun s => (s.server.position,
      (s.ends 1).holder, (s.ends 0).holder, s.server.guards.length)) =
        some (.dropped, .returned (.error (.remoteClosed none)), .returned (.error .shutdown), 2) :=
          rfl
  obtain ⟨s, hs, he⟩ := Option.map_eq_some_iff.mp hrun
  simp only [Prod.mk.injEq] at he
  obtain ⟨hdropped, hother, hreturned, hlen⟩ := he
  have hg : s.server.guards[0]? = some (s.server.guards[0]) := List.getElem?_eq_getElem (by omega)
  have hwoken := holders_are_woken (Transition.Reach.exec .start hs) hg
  exact ⟨s, hdropped, hother, hreturned, _, hg, hwoken.2.1 _ hreturned⟩

end RpcGuards

end Juliet
