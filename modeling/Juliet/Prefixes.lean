import Mathlib.Data.List.Infix
import Mathlib.Data.Multiset.Count

namespace List

variable {α β : Type}

/-- A list goes on with `a` if it is at most one longer than its beginning and goes on with `a`
among what is of the same class. -/
theorem prefix_snoc_of_class [DecidableEq β] {f : α → β} {xs ys : List α} {a : α} (h : xs <+: ys)
    (hlen : ys.length ≤ xs.length + 1)
    (hclass : (xs ++ [a]).filter (fun b => f b = f a) <+: ys.filter (fun b => f b = f a)) :
    xs ++ [a] <+: ys := by
  obtain ⟨rest, rfl⟩ := h
  rw [filter_append, filter_append, prefix_append_right_inj] at hclass
  match rest with
  | [] => simp at hclass
  | [b] =>
    simp only [filter_cons, decide_true, if_true, filter_nil] at hclass
    split at hclass
    next =>
      rw [(cons_prefix_cons.mp hclass).1]
    next => simp at hclass
  | b :: c :: rest =>
    simp only [length_append, length_cons] at hlen
    omega

theorem getElem?_of_prefix {xs ys : List α} {j : Nat} {a : α} (h : xs <+: ys)
    (hj : xs[j]? = some a) : ys[j]? = some a := by
  obtain ⟨rest, rfl⟩ := h
  obtain ⟨hlt, _⟩ := getElem?_eq_some_iff.mp hj
  rw [getElem?_append_left hlt, hj]

theorem subperm_filterMap (f : α → Option β) {xs ys : List α} (h : xs.Subperm ys) :
    (xs.filterMap f).Subperm (ys.filterMap f) := by
  obtain ⟨zs, hperm, hsub⟩ := h
  exact ⟨zs.filterMap f, hperm.filterMap f, hsub.filterMap f⟩

/-- A list goes on with `zs` if it is at most one longer than its beginning and has as much of
everything. -/
theorem prefix_append_of_subperm {xs ys zs : List α} (h : xs <+: ys)
    (hlen : ys.length ≤ xs.length + 1) (hsub : (xs ++ zs).Subperm ys) : xs ++ zs <+: ys := by
  obtain ⟨rest, rfl⟩ := h
  rw [subperm_append_left] at hsub
  rw [prefix_append_right_inj]
  have hle := hsub.length_le
  match rest with
  | [] =>
    rw [eq_nil_of_length_eq_zero (Nat.le_zero.mp hle)]
  | [b] =>
    match zs with
    | [] => exact nil_prefix
    | [a] =>
      rw [mem_singleton.mp (hsub.subset mem_cons_self)]
    | a :: c :: zs => simp at hle
  | b :: c :: rest =>
    simp only [length_append, length_cons] at hlen
    omega

/-- A list around one of its elements. -/
theorem eraseIdx_split {xs : List α} {k : Nat} {a : α} (h : xs[k]? = some a) :
    ∃ before after, xs = before ++ a :: after ∧ xs.eraseIdx k = before ++ after := by
  obtain ⟨hlt, rfl⟩ := getElem?_eq_some_iff.mp h
  refine ⟨xs.take k, xs.drop (k + 1), ?_, eraseIdx_eq_take_drop_succ xs k⟩
  rw [getElem_cons_drop, take_append_drop]

end List
