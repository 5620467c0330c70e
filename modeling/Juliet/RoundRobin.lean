import Mathlib.Data.List.Infix
import Mathlib.Data.List.Nodup
import Mathlib.Logic.Relation

namespace RoundRobin

variable {α : Type}

/-- Those that wait for a turn, in order, and the turns taken so far. -/
structure Rota (α : Type) where
  waiting : List α
  taken : List α

/-- Some that have had no turn join, or the first one takes a turn, and then waits again or
leaves. -/
inductive Moves (s : Rota α) : Rota α → Prop
  | join (new : List α) : (s.waiting ++ new).Nodup → (∀ a ∈ new, a ∉ s.taken) →
      Moves s { s with waiting := s.waiting ++ new }
  | again (a : α) (rest : List α) : s.waiting = a :: rest → Moves s ⟨rest ++ [a], s.taken ++ [a]⟩
  | leave (a : α) (rest : List α) : s.waiting = a :: rest → Moves s ⟨rest, s.taken ++ [a]⟩

/-- The next turns are those of the ones that wait, in order: until all of them have had a turn, the
rest waits on in front. -/
theorem in_order {s s' : Rota α} (h : Relation.ReflTransGen Moves s s') :
    ∃ since, s'.taken = s.taken ++ since ∧
    ((∃ rest more, s.waiting = since ++ rest ∧ s'.waiting = rest ++ more) ∨
      s.waiting <+: since) := by
  induction h with
  | refl => exact ⟨[], (List.append_nil _).symm,
    .inl ⟨s.waiting, [], rfl, (List.append_nil _).symm⟩⟩
  | @tail s' s'' _ hmove ih =>
    obtain ⟨since, htaken, hwaits⟩ := ih
    -- a turn of the first one that waits
    have hturn : ∀ {a rest} (back : List α), s'.waiting = a :: rest →
        ∃ since', s'.taken ++ [a] = s.taken ++ since' ∧
          ((∃ rest' more, s.waiting = since' ++ rest' ∧ rest ++ back = rest' ++ more) ∨
            s.waiting <+: since') := by
      intro a rest back hfirst
      refine ⟨since ++ [a], by rw [htaken, List.append_assoc], ?_⟩
      rcases hwaits with ⟨rest', more, hwas, his⟩ | hall
      · cases rest' with
        | nil =>
          right
          rw [hwas, List.append_nil]
          exact List.prefix_append _ _
        | cons b rest' =>
          rw [hfirst, List.cons_append, List.cons.injEq] at his
          obtain ⟨rfl, rfl⟩ := his
          exact .inl ⟨rest',
            more ++ back, by rw [hwas, List.append_assoc]; rfl, List.append_assoc _ _ _⟩
      · exact .inr (hall.trans (List.prefix_append _ _))
    cases hmove with
    | join new _ _ =>
      refine ⟨since, htaken, hwaits.imp_left ?_⟩
      rintro ⟨rest, more, hwas, his⟩
      exact ⟨rest, more ++ new, hwas, by rw [his, List.append_assoc]⟩
    | again a rest hfirst => exact hturn [a] hfirst
    | leave a rest hfirst => simpa using hturn [] hfirst

/-- Between two turns of the same one, and since its last turn, each other one has had at most one
turn, and those that have had one are not in front of it. -/
structure Even (s : Rota α) : Prop where
  once : s.waiting.Nodup
  between : ∀ before a since after, s.taken = before ++ a :: (since ++ a :: after) →
    a ∉ since → since.Nodup
  ahead : ∀ before a since front behind, s.taken = before ++ a :: since → a ∉ since →
    s.waiting = front ++ a :: behind →
    since.Nodup ∧ ∀ b ∈ since, b ∉ front

theorem Even.new : Even (⟨[], []⟩ : Rota α) where
  once := List.nodup_nil
  between := by simp
  ahead := by simp

namespace Even

variable {s s' : Rota α}

/-- The first one takes its turn. -/
theorem turn {a : α} {rest back : List α} (h : Even s) (hfirst : s.waiting = a :: rest)
    (hback : back = [a] ∨ back = []) :
    Even ⟨rest ++ back, s.taken ++ [a]⟩ := by
  have honce := h.once
  rw [hfirst, List.nodup_cons] at honce
  obtain ⟨hnot, hrest⟩ := honce
  refine ⟨?_, ?_, ?_⟩
  · rcases hback with rfl | rfl
    · exact List.nodup_append_comm.mpr (List.nodup_cons.mpr ⟨hnot, hrest⟩)
    · simpa using hrest
  · intro before b since after htaken hb
    rcases List.eq_nil_or_concat after with rfl | ⟨after', c, rfl⟩
    · have hlast : s.taken ++ [a] = (before ++ b :: since) ++ [b] := by simpa using htaken
      obtain ⟨htaken', he⟩ := List.append_inj' hlast rfl
      cases List.singleton_inj.mp he
      exact (h.ahead before a since [] rest htaken' hb hfirst).1
    · have hlast : s.taken ++ [a] = (before ++ b :: (since ++ b :: after')) ++ [c] := by
        simpa using htaken
      exact h.between before b since after' (List.append_inj' hlast rfl).1 hb
  · intro before b since front behind htaken hb hwaiting
    rcases List.eq_nil_or_concat since with rfl | ⟨since', c, rfl⟩
    · simp
    · have hlast : s.taken ++ [a] = (before ++ b :: since') ++ [c] := by simpa using htaken
      obtain ⟨htaken', he⟩ := List.append_inj' hlast rfl
      cases List.singleton_inj.mp he
      rw [List.concat_eq_append, List.mem_append, List.mem_singleton, not_or] at hb
      obtain ⟨hb, hne⟩ := hb
      -- `b` has been waiting behind `a`
      obtain ⟨behind', hwas⟩ : ∃ behind', rest = front ++ b :: behind' := by
        rcases hback with rfl | rfl
        · rcases List.eq_nil_or_concat behind with rfl | ⟨behind', d, rfl⟩
          · have hlast : rest ++ [a] = front ++ [b] := hwaiting
            exact absurd (List.singleton_inj.mp (List.append_inj' hlast rfl).2).symm hne
          · have hlast : rest ++ [a] = (front ++ b :: behind') ++ [d] := by simpa using hwaiting
            exact ⟨behind', (List.append_inj' hlast rfl).1⟩
        · exact ⟨behind, by simpa using hwaiting⟩
      obtain ⟨hnodup, hfront⟩ :=
        h.ahead before b since' (a :: front) behind' htaken' hb (by rw [hfirst, hwas]; rfl)
      rw [List.concat_eq_append]
      refine ⟨?_, ?_⟩
      · rw [List.nodup_append]
        refine ⟨hnodup, List.nodup_singleton a, ?_⟩
        rintro c hc d hd rfl
        rw [List.mem_singleton.mp hd] at hc
        exact hfront a hc List.mem_cons_self
      · intro c hc hin
        rcases List.mem_append.mp hc with hc | hc
        · exact hfront c hc (List.mem_cons_of_mem a hin)
        · rw [List.mem_singleton.mp hc] at hin
          exact hnot (hwas ▸ List.mem_append_left _ hin)

theorem moves (h : Even s) (hm : Moves s s') : Even s' := by
  cases hm with
  | again a rest hfirst => exact h.turn hfirst (.inl rfl)
  | leave a rest hfirst => simpa using h.turn hfirst (.inr rfl)
  | join new hnodup hnew =>
    refine ⟨hnodup, h.between, ?_⟩
    intro before a since front behind htaken ha hwaiting
    rcases List.append_eq_append_iff.mp hwaiting with ⟨more, hfront, hmore⟩ | ⟨more, hwas, hmore⟩
    · -- one that has joined has had no turn
      have hin : a ∈ new := by
        rw [hmore]
        exact List.mem_append_right _ List.mem_cons_self
      exact absurd (by rw [htaken]; exact List.mem_append_right _ List.mem_cons_self) (hnew a hin)
    · cases more with
      | nil =>
        have hin : a ∈ new := by
          rw [List.nil_append] at hmore
          rw [← hmore]
          exact List.mem_cons_self
        exact absurd (by rw [htaken]; exact List.mem_append_right _ List.mem_cons_self) (hnew a hin)
      | cons b more =>
        rw [List.cons_append, List.cons.injEq] at hmore
        obtain ⟨rfl, _⟩ := hmore
        exact h.ahead before a since front more htaken ha hwas

theorem run (h : Even s) (hm : Relation.ReflTransGen Moves s s') : Even s' := by
  induction hm with
  | refl => exact h
  | tail _ hm ih => exact ih.moves hm

end Even

end RoundRobin
