import Mathlib.Data.List.Basic

namespace Incremental

/-- What one attempt to read an item from the front of a buffer yields. -/
inductive Attempt (ν ε ω : Type)
  | incomplete (need : ν)
  | fatal (err : ε)
  | consumed (out : Option ω)

variable {σ β ν ε ω ρ : Type}

/-- Parsers that decide on a prefix of their input: an attempt that lacks data changes nothing, and
an attempt that has decided is not affected by bytes behind those it looked at. -/
structure Stable (step : σ → List β → Except ρ (Attempt ν ε ω × σ × List β)) (inv : σ → Prop) :
    Prop where
  returns : ∀ {s b}, inv s → ∃ r, step s b = .ok r
  keeps : ∀ {s b r s' b'}, inv s → step s b = .ok (r, s', b') → inv s'
  waits : ∀ {s b n s' b'}, inv s → step s b = .ok (.incomplete n, s', b') → s' = s ∧ b' = b
  extend : ∀ {s b r s' b'}, inv s → step s b = .ok (r, s', b') → (∀ n, r ≠ .incomplete n) →
    ∀ rest, step s (b ++ rest) = .ok (r, s', b' ++ rest)
  consumes : ∀ {s b out s' b'}, inv s → step s b = .ok (.consumed out, s', b') →
    b'.length < b.length

/-- Repeating the attempt until data runs out or the input is refused: the items in order, the
reason for stopping, and the state and buffer left. -/
inductive Runs (step : σ → List β → Except ρ (Attempt ν ε ω × σ × List β)) :
    σ → List β → List ω → ν ⊕ ε → σ → List β → Prop
  | incomplete {s b n s' b'} : step s b = .ok (.incomplete n, s', b') → Runs step s b []
      (.inl n) s' b'
  | fatal {s b e s' b'} : step s b = .ok (.fatal e, s', b') → Runs step s b [] (.inr e) s' b'
  | consumed {s b out s' b' outs stop s'' b''} : step s b = .ok (.consumed out, s', b') →
      Runs step s' b' outs stop s'' b'' → Runs step s b (out.toList ++ outs) stop s'' b''

variable {step : σ → List β → Except ρ (Attempt ν ε ω × σ × List β)} {inv : σ → Prop}

theorem Stable.runs_exists (h : Stable step inv) {s : σ} (hs : inv s) (b : List β) :
    ∃ outs stop s' b', Runs step s b outs stop s' b' := by
  induction hn : b.length using Nat.strongRecOn generalizing s b with
  | ind n ih =>
    obtain ⟨⟨r, s', b'⟩, hr⟩ := h.returns (b := b) hs
    cases r with
    | incomplete need => exact ⟨_, _, _, _, .incomplete hr⟩
    | fatal err => exact ⟨_, _, _, _, .fatal hr⟩
    | consumed out =>
      have hlt := h.consumes hs hr
      obtain ⟨outs, stop, s'', b'', hh⟩ := ih b'.length (by omega) (h.keeps hs hr) b' rfl
      exact ⟨_, _, _, _, .consumed hr hh⟩

theorem Stable.runs_keeps (h : Stable step inv) {s s' : σ} {b b' : List β} {outs : List ω}
    {stop : ν ⊕ ε} (hs : inv s) (hr : Runs step s b outs stop s' b') : inv s' := by
  induction hr with
  | incomplete hr | fatal hr => exact h.keeps hs hr
  | consumed hr _ ih => exact ih (h.keeps hs hr)

/-- A run that waited goes on, on more data, as if the data had been there from the start. -/
theorem Stable.runs_append (h : Stable step inv) {s s' s'' : σ} {b b' b'' rest : List β}
    {outs outs' : List ω} {n : ν} {stop : ν ⊕ ε} (hs : inv s)
    (hr : Runs step s b outs (.inl n) s' b') (hr' : Runs step s' (b' ++ rest) outs' stop s'' b'') :
    Runs step s (b ++ rest) (outs ++ outs') stop s'' b'' := by
  generalize ht : (Sum.inl n : ν ⊕ ε) = t at hr
  induction hr with
  | incomplete hw =>
    obtain ⟨rfl, rfl⟩ := h.waits hs hw
    exact hr'
  | fatal _ => simp at ht
  | consumed hc _ ih =>
    rw [List.append_assoc]
    exact .consumed (h.extend hs hc (by simp) rest) (ih (h.keeps hs hc) hr' ht)

/-- A run that was refused is refused the same way whatever follows. -/
theorem Stable.runs_append_fatal (h : Stable step inv) {s s' : σ} {b b' rest : List β}
    {outs : List ω} {e : ε} (hs : inv s) (hr : Runs step s b outs (.inr e) s' b') :
    Runs step s (b ++ rest) outs (.inr e) s' (b' ++ rest) := by
  generalize ht : (Sum.inr e : ν ⊕ ε) = t at hr ⊢
  induction hr with
  | incomplete _ => simp at ht
  | fatal hf => exact .fatal (h.extend hs hf (by simp) rest)
  | consumed hc _ ih => exact .consumed (h.extend hs hc (by simp) rest) (ih (h.keeps hs hc) ht)

/-- Where a whole item decides without leaving anything, its proper prefixes are incomplete. -/
theorem Stable.prefix_incomplete (h : Stable step inv) {s s' : σ} {b rest : List β}
    {r : Attempt ν ε ω} (hs : inv s) (hr : step s (b ++ rest) = .ok (r, s', [])) (hne : rest ≠ []) :
    ∃ n, step s b = .ok (.incomplete n, s, b) := by
  obtain ⟨⟨r₁, s₁, b₁⟩, h₁⟩ := h.returns (b := b) hs
  cases hc : r₁ with
  | incomplete n =>
    subst hc
    obtain ⟨rfl, rfl⟩ := h.waits hs h₁
    exact ⟨n, h₁⟩
  | fatal _ | consumed _ =>
    have hx := h.extend hs h₁ (by simp [hc]) rest
    have he := Except.ok.inj (hx.symm.trans hr)
    simp only [Prod.mk.injEq, List.append_eq_nil_iff] at he
    exact absurd he.2.2.2 hne

/-- An attempt on the first bytes of an item and of what follows it waits for more, or takes the
whole item. -/
theorem Stable.front (h : Stable step inv) {s s' : σ} {item buffer more tail : List β}
    {r : Attempt ν ε ω} (hs : inv s) (hr : ∀ rest, step s (item ++ rest) = .ok (r, s', rest))
    (hb : buffer ++ more = item ++ tail) :
    (∃ n, step s buffer = .ok (.incomplete n, s, buffer)) ∨
      ∃ b, buffer = item ++ b ∧ step s buffer = .ok (r, s', b) := by
  rcases List.append_eq_append_iff.mp hb with ⟨rest, hitem, _⟩ | ⟨b, hbuffer, _⟩
  · by_cases hne : rest = []
    · have hall := hr []
      rw [hitem, hne, List.append_nil, List.append_nil] at hall
      exact .inr ⟨[], by simp [hitem, hne], hall⟩
    · have hall := hr []
      rw [List.append_nil, hitem] at hall
      exact .inl (h.prefix_incomplete hs hall hne)
  · exact .inr ⟨b, hbuffer, hbuffer ▸ hr b⟩

end Incremental
