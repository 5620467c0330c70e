import Mathlib.Data.List.Basic

namespace Rust

/-- The ways in which a modelled Rust computation can stop without returning. -/
inductive Panic
  | outOfRange
  | underflow
  | overflow
  | unreachable
  | expect
  | debugAssert
  | diverges
  deriving DecidableEq, Repr

/-- A computation that either returns or panics. -/
abbrev Checked (α : Type) := Except Panic α

/-- Unsigned subtraction. -/
def checkedSub (a b : Nat) : Checked Nat :=
  if b ≤ a then .ok (a - b) else .error .underflow

/-- `Buf::advance`. -/
def advance (buffer : List UInt8) (cnt : Nat) : Checked (List UInt8) :=
  if cnt ≤ buffer.length then .ok (buffer.drop cnt) else .error .outOfRange

/-- `BytesMut::split_to`: the removed front and the remaining buffer. -/
def splitTo (buffer : List UInt8) (cnt : Nat) : Checked (List UInt8 × List UInt8) :=
  if cnt ≤ buffer.length then .ok (buffer.take cnt, buffer.drop cnt) else .error .outOfRange

/-- The slice `buffer[start..stop]`. -/
def slice (buffer : List UInt8) (start stop : Nat) : Checked (List UInt8) :=
  if start ≤ stop ∧ stop ≤ buffer.length then .ok ((buffer.take stop).drop start)
  else .error .outOfRange

/-- `debug_assert!`. -/
def debugAssert (p : Prop) [Decidable p] : Checked Unit :=
  if p then .ok () else .error .debugAssert

@[simp]
theorem bind_ok {α β : Type} (a : α) (f : α → Checked β) : (Except.ok a >>= f : Checked β) = f a :=
  rfl

@[simp]
theorem bind_error {α β : Type} (p : Panic) (f : α → Checked β) :
    (Except.error p >>= f : Checked β) = .error p := rfl

@[simp]
theorem pure_eq_ok {α : Type} (a : α) : (pure a : Checked α) = .ok a := rfl

/-- A sequence returns exactly when its first part does and the rest returns on that result. -/
theorem bind_eq_ok {α β : Type} {x : Checked α} {f : α → Checked β} {b : β} :
    (x >>= f) = .ok b ↔ ∃ a, x = .ok a ∧ f a = .ok b := by
  cases x with
  | error p => simp
  | ok a => simp

theorem ok_pair {α β : Type} {a c : α} {b d : β}
    (h : (Except.ok (a, b) : Checked (α × β)) = .ok (c, d)) :
    a = c ∧ b = d := by
  simpa using h

theorem ok_triple {α β γ : Type} {a a' : α} {b b' : β} {c c' : γ}
    (h : (Except.ok (a, b, c) : Checked (α × β × γ)) = .ok (a', b', c')) :
    a = a' ∧ b = b' ∧ c = c' := by
  simpa using h

theorem checkedSub_of_le {a b : Nat} (h : b ≤ a) : checkedSub a b = .ok (a - b) := by
  simp [checkedSub, h]

theorem advance_of_le {buffer : List UInt8} {cnt : Nat} (h : cnt ≤ buffer.length) :
    advance buffer cnt = .ok (buffer.drop cnt) := by
  simp [advance, h]

theorem splitTo_of_le {buffer : List UInt8} {cnt : Nat} (h : cnt ≤ buffer.length) :
    splitTo buffer cnt = .ok (buffer.take cnt, buffer.drop cnt) := by
  simp [splitTo, h]

theorem slice_of_le {buffer : List UInt8} {start stop : Nat} (h : start ≤ stop)
    (hs : stop ≤ buffer.length) :
    slice buffer start stop = .ok ((buffer.take stop).drop start) := by
  simp [slice, h, hs]

theorem debugAssert_of {p : Prop} [Decidable p] (h : p) : debugAssert p = .ok () := by
  simp [debugAssert, h]

end Rust
