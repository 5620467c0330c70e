namespace Transition

variable {σ α : Type}

/-- The states that a machine comes to by steps that all meet a condition. -/
inductive Reach (step : σ → α → Option σ) (ok : σ → α → Prop) (init : σ) : σ → Prop
  | start : Reach step ok init init
  | step {s s' : σ} {a : α} : Reach step ok init s → ok s a → step s a = some s' →
    Reach step ok init s'

variable {step : σ → α → Option σ} {ok : σ → α → Prop} {init s : σ}

theorem Reach.invariant {P : σ → Prop} (h : Reach step ok init s) (hinit : P init)
    (hstep : ∀ {s s' a}, P s → ok s a → step s a = some s' → P s') : P s := by
  induction h with
  | start => exact hinit
  | step _ hok hs ih => exact hstep ih hok hs

theorem Reach.trans {s' : σ} (h : Reach step ok init s) (h' : Reach step ok s s') :
    Reach step ok init s' := by
  induction h' with
  | start => exact h
  | step _ hok hs ih => exact ih.step hok hs

/-- A machine run on a list of actions that all meet a condition. -/
def exec (step : σ → α → Option σ) (ok : σ → α → Bool) : List α → σ → Option σ
  | [], s => some s
  | a :: as, s => if ok s a then (step s a).bind (exec step ok as) else none

theorem exec_append {ok : σ → α → Bool} (as as' : List α) (s : σ) :
    exec step ok (as ++ as') s = (exec step ok as s).bind (exec step ok as') := by
  induction as generalizing s with
  | nil => rfl
  | cons a as ih =>
    simp only [List.cons_append, exec]
    split
    next => cases step s a <;> simp [ih]
    next => rfl

/-- What every step carries on holds of a run and the actions that it has taken. -/
theorem exec_history {ok : σ → α → Bool} {P : List α → σ → Prop} {before as : List α} {s' : σ}
    (hs : P before s)
    (hstep : ∀ {as s s' a}, P as s → ok s a = true → step s a = some s' → P (as ++ [a]) s')
    (he : exec step ok as s = some s') : P (before ++ as) s' := by
  induction as generalizing before s with
  | nil =>
    cases Option.some.inj he
    simpa using hs
  | cons a as ih =>
    simp only [exec] at he
    split at he
    next hok =>
      obtain ⟨s₁, hs₁, he⟩ := Option.bind_eq_some_iff.mp he
      simpa using ih (hstep hs hok hs₁) he
    next => simp at he

theorem Reach.exec {ok : σ → α → Bool} {as : List α} {s' : σ}
    (h : Reach step (fun s a => ok s a) init s) (he : Transition.exec step ok as s = some s') :
    Reach step (fun s a => ok s a) init s' := by
  induction as generalizing s with
  | nil =>
    cases Option.some.inj he
    exact h
  | cons a as ih =>
    simp only [Transition.exec] at he
    split at he
    next hok =>
      obtain ⟨s₁, hs, he⟩ := Option.bind_eq_some_iff.mp he
      exact ih (h.step hok hs) he
    next => simp at he

end Transition
