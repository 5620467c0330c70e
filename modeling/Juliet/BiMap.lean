import Mathlib.Data.List.Nodup

/-- A finite one-to-one correspondence. -/
structure BiMap (α β : Type) where
  pairs : List (α × β)
  left_nodup : (pairs.map Prod.fst).Nodup
  right_nodup : (pairs.map Prod.snd).Nodup

namespace BiMap

variable {α β : Type}

def empty : BiMap α β := ⟨[], List.nodup_nil, List.nodup_nil⟩

theorem right_unique (m : BiMap α β) {a : α} {b b' : β} (h : (a, b) ∈ m.pairs)
    (h' : (a, b') ∈ m.pairs) : b = b' := by
  have he := List.inj_on_of_nodup_map m.left_nodup h h' rfl
  exact congrArg Prod.snd he

theorem left_unique (m : BiMap α β) {a a' : α} {b : β} (h : (a, b) ∈ m.pairs)
    (h' : (a', b) ∈ m.pairs) : a = a' := by
  have he := List.inj_on_of_nodup_map m.right_nodup h h' rfl
  exact congrArg Prod.fst he

/-- Keeping some of the pairs. -/
def filter (m : BiMap α β) (p : α × β → Bool) : BiMap α β :=
  ⟨m.pairs.filter p, m.left_nodup.sublist (List.filter_sublist.map _),
    m.right_nodup.sublist (List.filter_sublist.map _)⟩

/-- `insert`: the new pair replaces those that share a side with it. -/
def insert [DecidableEq α] [DecidableEq β] (m : BiMap α β) (a : α) (b : β) : BiMap α β where
  pairs := (a, b) :: (m.filter fun p => p.1 ≠ a ∧ p.2 ≠ b).pairs
  left_nodup := by
    refine List.nodup_cons.mpr ⟨?_, (m.filter _).left_nodup⟩
    simp [filter]
  right_nodup := by
    refine List.nodup_cons.mpr ⟨?_, (m.filter _).right_nodup⟩
    simp [filter]

def getByLeft [DecidableEq α] (m : BiMap α β) (a : α) : Option β :=
  (m.pairs.find? fun p => p.1 = a).map Prod.snd

/-- `remove_by_right`: the pair taken out, if there was one, and what is left. -/
def removeByRight [DecidableEq β] (m : BiMap α β) (b : β) : Option (α × β) × BiMap α β :=
  (m.pairs.find? fun p => p.2 = b, m.filter fun p => p.2 ≠ b)

theorem mem_insert [DecidableEq α] [DecidableEq β] {m : BiMap α β} {a : α} {b : β} {p : α × β} :
    p ∈ (m.insert a b).pairs ↔ p = (a, b) ∨ p ∈ m.pairs ∧ p.1 ≠ a ∧ p.2 ≠ b := by
  simp [insert, filter]

theorem getByLeft_eq_some [DecidableEq α] {m : BiMap α β} {a : α} {b : β} :
    m.getByLeft a = some b ↔ (a, b) ∈ m.pairs := by
  unfold getByLeft
  constructor
  · intro h
    obtain ⟨p, hp, rfl⟩ := Option.map_eq_some_iff.mp h
    have hm := List.mem_of_find?_eq_some hp
    have ha := List.find?_some hp
    simp only [decide_eq_true_eq] at ha
    rwa [← ha]
  · intro h
    cases hf : m.pairs.find? fun p => p.1 = a with
    | none =>
      have := List.find?_eq_none.mp hf (a, b) h
      simp at this
    | some p =>
      have hm := List.mem_of_find?_eq_some hf
      have ha := List.find?_some hf
      simp only [decide_eq_true_eq] at ha
      subst ha
      exact congrArg some (m.right_unique hm h)

theorem removeByRight_mem [DecidableEq β] {m : BiMap α β} {b : β} {p : α × β} :
    p ∈ (m.removeByRight b).2.pairs ↔ p ∈ m.pairs ∧ p.2 ≠ b := by
  simp [removeByRight, filter]

theorem removeByRight_some [DecidableEq β] {m : BiMap α β} {a : α} {b b' : β} :
    (m.removeByRight b).1 = some (a, b') ↔ b' = b ∧ (a, b) ∈ m.pairs := by
  unfold removeByRight
  constructor
  · intro h
    have hm := List.mem_of_find?_eq_some h
    have hb := List.find?_some h
    simp only [decide_eq_true_eq] at hb
    subst hb
    exact ⟨rfl, hm⟩
  · rintro ⟨rfl, h⟩
    cases hf : m.pairs.find? fun p => p.2 = b' with
    | none =>
      have := List.find?_eq_none.mp hf (a, b') h
      simp at this
    | some p =>
      have hm := List.mem_of_find?_eq_some hf
      have hb := List.find?_some hf
      simp only [decide_eq_true_eq] at hb
      subst hb
      have ha := m.left_unique hm h
      subst ha
      rfl

theorem removeByRight_insert [DecidableEq α] [DecidableEq β] {m : BiMap α β} {a : α} {b : β}
    (ha : ∀ b', (a, b') ∉ m.pairs) (hb : ∀ a', (a', b) ∉ m.pairs) :
    ((m.insert a b).removeByRight b).2 = m := by
  obtain ⟨pairs, hl, hr⟩ := m
  have hother : ∀ p ∈ pairs, p.1 ≠ a ∧ p.2 ≠ b := by
    intro p hp
    exact ⟨fun h => ha p.2 (h ▸ hp), fun h => hb p.1 (h ▸ hp)⟩
  have hpairs : ((insert ⟨pairs, hl, hr⟩ a b).removeByRight b).2.pairs = pairs := by
    simp only [removeByRight, insert, filter]
    rw [List.filter_cons_of_neg (by simp), List.filter_filter, List.filter_eq_self]
    intro p hp
    obtain ⟨hl, hr⟩ := hother p hp
    simp [hl, hr]
  cases h : ((insert ⟨pairs, hl, hr⟩ a b).removeByRight b).2
  simpa [h] using hpairs

end BiMap
