import Mathlib.Algebra.Group.Nat.Defs
import Juliet.Checked

namespace Juliet

open Rust

/-- A channel identifier; it need not name a channel that exists. -/
structure ChannelId where
  get : UInt8
  deriving DecidableEq, Repr

theorem ChannelId.ext_toNat {a b : ChannelId} (h : a.get.toNat = b.get.toNat) : a = b := by
  cases a
  cases b
  simpa [UInt8.toNat_inj] using h

/-- An identifier of a request on its channel. -/
structure Id where
  get : UInt16
  deriving DecidableEq, Repr

abbrev Bytes := List UInt8

structure NonZeroU32 where
  get : Nat
  pos : 0 < get
  lt : get < 2 ^ 32
  deriving DecidableEq, Repr

/-- The outcome of a parsing operation on a potentially incomplete buffer. -/
inductive Outcome (τ ε : Type)
  | incomplete (n : NonZeroU32)
  | fatal (err : ε)
  | success (value : τ)
  deriving DecidableEq, Repr

def Outcome.mapErr {τ ε ε' : Type} (f : ε → ε') : Outcome τ ε → Outcome τ ε'
  | .incomplete n => .incomplete n
  | .fatal err => .fatal (f err)
  | .success value => .success value

/-- `Outcome::incomplete`; both `expect`s of the source are the `else` branch. -/
def Outcome.needs {τ ε : Type} (remaining : Nat) : Checked (Outcome τ ε) :=
  if h : 0 < remaining ∧ remaining < 2 ^ 32 then .ok (.incomplete ⟨remaining, h.1, h.2⟩)
  else .error .expect

theorem Outcome.needs_of {τ ε : Type} {remaining : Nat} (h : 0 < remaining)
    (hl : remaining < 2 ^ 32) :
    (Outcome.needs remaining : Checked (Outcome τ ε)) = .ok (.incomplete ⟨remaining, h, hl⟩) := by
  rw [Outcome.needs, dif_pos ⟨h, hl⟩]

/-- Values both peers of a channel have agreed upon. -/
structure ChannelConfiguration where
  requestLimit : UInt16
  maxRequestPayloadSize : UInt32
  maxResponsePayloadSize : UInt32
  deriving DecidableEq, Repr

def ChannelConfiguration.new : ChannelConfiguration := ⟨1, 0, 0⟩

end Juliet
