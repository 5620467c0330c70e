import Mathlib.Tactic.IntervalCases
import Mathlib.Tactic.Ring
import Mathlib.Tactic.SplitIfs
import Juliet.Header

namespace Juliet

open Rust

/-- The mask separating the data-follows bit from the value bits. -/
def varintMask : UInt8 := 0b01111111

/-- The only error of a varint32 parse. -/
inductive Overflow
  | mk
  deriving DecidableEq, Repr

structure ParsedU32 where
  offset : Nat
  value : Nat
  deriving DecidableEq, Repr

/-- The `while` loop of `decode_varint32` at index `idx` with the bytes from there on. -/
def decodeLoop (value idx : Nat) : Bytes → Checked (Outcome ParsedU32 Overflow)
  | [] => Outcome.needs 1
  | c :: input =>
    if idx ≥ 4 ∧ c &&& 0b11110000 ≠ 0 then .ok (.fatal .mk)
    else if 32 ≤ idx * 7 then .error .overflow
    else
      let value := value ||| ((c &&& varintMask).toNat <<< (idx * 7)) % 2 ^ 32
      if c &&& ~~~varintMask = 0 then .ok (.success ⟨(idx + 1) % 2 ^ 8, value⟩)
      else decodeLoop value (idx + 1) input

def decodeVarint32 (input : Bytes) : Checked (Outcome ParsedU32 Overflow) := decodeLoop 0 0 input

/-- A varint32 in the source's six byte form: up to five data bytes, the last byte their number. -/
structure Varint32 where
  raw : Bytes
  deriving DecidableEq, Repr

namespace Varint32

def sentinel : Varint32 := ⟨List.replicate 6 0⟩

def maxLen : Nat := 5

/-- The `while` loop of `encode`. -/
def encodeLoop : Nat → Nat → Bytes → Nat → Bytes × Nat
  | 0, _, output, count => (output, count)
  | fuel + 1, value, output, count =>
    if value = 0 then (output, count)
    else
      let output := output.set count (UInt8.ofNat (value % 2 ^ 8) &&& varintMask)
      let value := value >>> 7
      if 0 < value then
        encodeLoop fuel value (output.set count ((output.getD count 0) ||| ~~~varintMask))
          (count + 1)
      else encodeLoop fuel value output count

def encode (value : UInt32) : Varint32 :=
  let (output, count) := encodeLoop 6 value.toNat (List.replicate 6 0) 0
  ⟨output.set 5 (UInt8.ofNat (count + 1))⟩

def len (v : Varint32) : Nat := (v.raw.getD 5 0).toNat

def isSentinel (v : Varint32) : Bool := v.len == 0

def asRef (v : Varint32) : Bytes := v.raw.take v.len

/-- `Varint32::decode`; the sentinel is decoded as zero. -/
def decode (v : Varint32) : Checked Nat := do
  if v.isSentinel then return 0
  match ← decodeVarint32 v.raw with
  | .incomplete _ => return 0
  | .fatal _ => return 0
  | .success p => return p.value

def lengthOf (value : UInt32) : Nat :=
  if value.toNat < 1 <<< 7 then 1
  else if value.toNat < 1 <<< 14 then 2
  else if value.toNat < 1 <<< 21 then 3
  else if value.toNat < 1 <<< 28 then 4
  else 5

end Varint32

theorem byte_high_nibble (c : UInt8) : c &&& 0b11110000 = 0 ↔ c.toNat < 16 := by
  cases c with
  | ofBitVec c =>
    cases c with
    | ofFin c =>
      revert c
      decide +kernel

theorem byte_data (c : UInt8) : (c &&& varintMask).toNat = c.toNat % 128 := by
  cases c with
  | ofBitVec c =>
    cases c with
    | ofFin c =>
      revert c
      decide +kernel

theorem byte_stop (c : UInt8) : c &&& ~~~varintMask = 0 ↔ c.toNat < 128 := by
  cases c with
  | ofBitVec c =>
    cases c with
    | ofFin c =>
      revert c
      decide +kernel

theorem byte_continue (c : UInt8) :
    (c &&& varintMask) ||| ~~~varintMask = UInt8.ofNat (c.toNat % 128 + 128) := by
  cases c with
  | ofBitVec c =>
    cases c with
    | ofFin c =>
      revert c
      decide +kernel

/-- Adding the next seven bits does not disturb the bits already read. -/
theorem or_shift_eq_add {value x k : Nat} (hv : value < 2 ^ k) (hx : x * 2 ^ k < 2 ^ 32) :
    value ||| (x <<< k) % 2 ^ 32 = value + x * 2 ^ k := by
  rw [Nat.mod_eq_of_lt (by simpa [Nat.shiftLeft_eq] using hx), Nat.or_comm,
    ← Nat.shiftLeft_add_eq_or_of_lt hv, Nat.shiftLeft_eq, Nat.add_comm]

/-- One byte of the loop, with the bit operations read as arithmetic. -/
theorem decodeLoop_cons {value idx : Nat} {c : UInt8} {input : Bytes} (hi : idx ≤ 4)
    (hv : value < 2 ^ (idx * 7)) :
    decodeLoop value idx (c :: input) =
      if idx = 4 ∧ 16 ≤ c.toNat then .ok (.fatal .mk)
      else if c.toNat < 128 then .ok (.success ⟨idx + 1, value + c.toNat % 128 * 2 ^ (idx * 7)⟩)
      else decodeLoop (value + c.toNat % 128 * 2 ^ (idx * 7)) (idx + 1) input := by
  rw [decodeLoop]
  by_cases hf : idx = 4 ∧ 16 ≤ c.toNat
  · have hn : ¬ c &&& 0b11110000 = 0 := by
      rw [byte_high_nibble]
      omega
    simp [hf.1, hf.2, hn]
  · have hn : ¬ (idx ≥ 4 ∧ c &&& 0b11110000 ≠ 0) := by
      rw [Ne, byte_high_nibble]
      omega
    have hb : c.toNat % 128 * 2 ^ (idx * 7) < 2 ^ 32 := by
      have hc := c.toNat_lt
      interval_cases idx <;> omega
    have ho : (idx + 1) % 2 ^ 8 = idx + 1 := by omega
    simp only [if_neg hn, if_neg hf, byte_data, byte_stop, or_shift_eq_add hv hb, ho,
      if_neg (show ¬ 32 ≤ idx * 7 by omega)]

theorem decodeLoop_grows {value idx : Nat} {c : UInt8} (hv : value < 2 ^ (idx * 7)) :
    value + c.toNat % 128 * 2 ^ (idx * 7) < 2 ^ ((idx + 1) * 7) := by
  have hc : c.toNat % 128 < 128 := Nat.mod_lt _ (by omega)
  have he : 2 ^ ((idx + 1) * 7) = 128 * 2 ^ (idx * 7) := by
    rw [Nat.add_mul, Nat.pow_add]
    omega
  have hm : c.toNat % 128 * 2 ^ (idx * 7) ≤ 127 * 2 ^ (idx * 7) := Nat.mul_le_mul_right _ (by omega)
  omega

/-- What a varint parse can return, with the facts its callers rely on. -/
inductive DecodeSpec (input : Bytes) : Outcome ParsedU32 Overflow → Prop
  | incomplete (n : NonZeroU32) : n.get = 1 → input.length < 5 → DecodeSpec input (.incomplete n)
  | fatal : 5 ≤ input.length → DecodeSpec input (.fatal .mk)
  | success (p : ParsedU32) : 1 ≤ p.offset → p.offset ≤ 5 → p.offset ≤ input.length →
      p.value < 2 ^ 32 → DecodeSpec input (.success p)

theorem decodeLoop_spec {value idx : Nat} (input : Bytes) (hi : idx ≤ 4)
    (hv : value < 2 ^ (idx * 7)) (front : Bytes) (hf : front.length = idx) :
    ∃ r, decodeLoop value idx input = .ok r ∧ DecodeSpec (front ++ input) r ∧
      ((∃ n, r = .incomplete n) ∨ ∀ rest, decodeLoop value idx (input ++ rest) = .ok r) := by
  induction input generalizing value idx front with
  | nil =>
    refine ⟨.incomplete ⟨1, by omega, by omega⟩, by simp [decodeLoop,
      Outcome.needs], ?_, .inl ⟨_, rfl⟩⟩
    exact .incomplete _ rfl (by simp; omega)
  | cons c input ih =>
    simp only [List.cons_append, decodeLoop_cons hi hv]
    split
    next h => exact ⟨_, rfl, .fatal (by simp; omega), .inr fun _ => rfl⟩
    next h =>
      split
      next hc =>
        refine ⟨_, rfl, .success _ (by simp) (by simp; omega) (by simp; omega) ?_,
          .inr fun _ => rfl⟩
        have hg := decodeLoop_grows (c := c) hv
        show value + c.toNat % 128 * 2 ^ (idx * 7) < 2 ^ 32
        interval_cases idx <;> omega
      next hc =>
        have hlt : idx + 1 ≤ 4 := by omega
        obtain ⟨r, hr, hs, hx⟩ := ih hlt (decodeLoop_grows hv) (front ++ [c]) (by simp [hf])
        exact ⟨r, hr, by simpa using hs, hx⟩

/-- The varint parser returns for every input, within the five bytes of the format. -/
theorem decodeVarint32_spec (input : Bytes) :
    ∃ r, decodeVarint32 input = .ok r ∧ DecodeSpec input r := by
  obtain ⟨r, hr, hs, _⟩ := decodeLoop_spec input (by omega : 0 ≤ 4)
    (by omega : 0 < 2 ^ (0 * 7)) [] rfl
  exact ⟨r, hr, hs⟩

/-- Bytes behind a decided varint do not change the decision. -/
theorem decodeVarint32_append {input : Bytes} {r : Outcome ParsedU32 Overflow}
    (h : decodeVarint32 input = .ok r) (hn : ∀ n, r ≠ .incomplete n) (rest : Bytes) :
    decodeVarint32 (input ++ rest) = .ok r := by
  obtain ⟨r', hr, _, hx⟩ :=
    decodeLoop_spec input (by omega : 0 ≤ 4) (by omega : 0 < 2 ^ (0 * 7)) [] rfl
  have he : r' = r := Except.ok.inj (hr.symm.trans h)
  subst r'
  rcases hx with ⟨n, hx⟩ | hx
  · exact absurd hx (hn n)
  · exact hx rest

/-- The base 128 digits of `n`, lowest first, in at most `k` bytes. -/
def varintDigits : Nat → Nat → Bytes
  | 0, _ => []
  | k + 1, n =>
    if n < 128 then [UInt8.ofNat n] else UInt8.ofNat (n % 128 + 128) :: varintDigits k (n / 128)

theorem varintDigits_length_le (k n : Nat) : (varintDigits k n).length ≤ k := by
  induction k generalizing n with
  | zero => simp [varintDigits]
  | succ k ih =>
    have := ih (n / 128)
    simp only [varintDigits]
    split
    next => simp
    next => simp; omega

theorem varintDigits_length_succ (k n : Nat) :
    (varintDigits (k + 1) n).length = if n < 128 then 1
      else (varintDigits k (n / 128)).length + 1 := by
  simp only [varintDigits]
  split
  next => rfl
  next => rfl

/-- Without its lowest digit a number has one digit less. -/
theorem div_lt_pow {n k : Nat} (h : n < 128 ^ (k + 1)) : n / 128 < 128 ^ k := by
  apply Nat.div_lt_of_lt_mul
  rwa [Nat.pow_succ, Nat.mul_comm] at h

theorem pos_of_digits {n k : Nat} (h : n < 128 ^ (k + 1)) (hn : ¬ n < 128) : 0 < k := by
  rcases Nat.eq_zero_or_pos k with rfl | hk
  · omega
  · exact hk

theorem decodeLoop_digits {k n value idx : Nat} (hk : 0 < k) (hn : n < 128 ^ k) (hik : idx + k ≤ 5)
    (h5 : idx + k = 5 → n < 2 ^ (32 - idx * 7)) (hv : value < 2 ^ (idx * 7)) (rest : Bytes) :
    decodeLoop value idx (varintDigits k n ++ rest) =
      .ok (.success ⟨idx + (varintDigits k n).length, value + n * 2 ^ (idx * 7)⟩) := by
  induction k generalizing n value idx with
  | zero => omega
  | succ k ih =>
    simp only [varintDigits]
    split
    next hlt =>
      have hb : (UInt8.ofNat n).toNat = n := by simp; omega
      have hf : ¬ (idx = 4 ∧ 16 ≤ n) := by
        rintro ⟨rfl, h16⟩
        have := h5 (by omega)
        omega
      simp only [List.cons_append, List.nil_append, decodeLoop_cons (by omega : idx ≤ 4) hv,
        hb, if_neg hf, if_pos hlt, List.length_singleton, Nat.mod_eq_of_lt hlt]
    next hlt =>
      have hb : (UInt8.ofNat (n % 128 + 128)).toNat = n % 128 + 128 := by simp; omega
      have hk' := pos_of_digits hn hlt
      have hlow : (n % 128 + 128) % 128 = n % 128 := by omega
      have hsum : value + n % 128 * 2 ^ (idx * 7) + n / 128 * 2 ^ ((idx + 1) * 7) =
          value + n * 2 ^ (idx * 7) := by
        have he : 2 ^ ((idx + 1) * 7) = 128 * 2 ^ (idx * 7) := by
          rw [Nat.add_mul, Nat.pow_add]
          omega
        calc value + n % 128 * 2 ^ (idx * 7) + n / 128 * 2 ^ ((idx + 1) * 7)
            = value + (n % 128 + 128 * (n / 128)) * 2 ^ (idx * 7) := by rw [he]; ring
          _ = value + n * 2 ^ (idx * 7) := by rw [Nat.mod_add_div]
      have hg := decodeLoop_grows (c := UInt8.ofNat (n % 128 + 128)) hv
      rw [hb, hlow] at hg
      have h5' : idx + 1 + k = 5 → n / 128 < 2 ^ (32 - (idx + 1) * 7) := by
        intro he
        have hd := h5 (by omega)
        have hi : idx ≤ 3 := by omega
        apply Nat.div_lt_of_lt_mul
        interval_cases idx <;> omega
      rw [List.cons_append, decodeLoop_cons (by omega : idx ≤ 4) hv, hb, if_neg (by omega),
        if_neg (by omega), hlow, ih hk' (div_lt_pow hn) (by omega) h5' hg, hsum]
      simp only [List.length_cons]
      congr 3
      omega

namespace Varint32

/-- The bytes of a 32 bit value on the wire. -/
def digits (value : UInt32) : Bytes := varintDigits 5 value.toNat

theorem encodeLoop_zero (fuel : Nat) (output : Bytes) (count : Nat) :
    encodeLoop fuel 0 output count = (output, count) := by
  cases fuel <;> simp [encodeLoop]

theorem take_set_self {output : Bytes} {count : Nat} (h : count < output.length) (b : UInt8) :
    (output.set count b).take (count + 1) = output.take count ++ [b] := by
  rw [List.take_set, List.set_eq_take_append_cons_drop, List.take_take]
  simp [h]

/-- One pass of the loop writes one digit behind those already written. -/
theorem encodeLoop_step {fuel n count : Nat} {output : Bytes} (hn : 0 < n)
    (hc : count < output.length) :
    encodeLoop (fuel + 1) n output count =
      if n < 128 then (output.set count (UInt8.ofNat n), count)
      else encodeLoop fuel (n / 128) (output.set count (UInt8.ofNat (n % 128 + 128)))
        (count + 1) := by
  have hbyte : (UInt8.ofNat (n % 2 ^ 8)).toNat % 128 = n % 128 := by simp
  have hlow : UInt8.ofNat (n % 2 ^ 8) &&& varintMask = UInt8.ofNat (n % 128) := by
    apply UInt8.toNat_inj.mp
    rw [byte_data, hbyte]
    simp
    omega
  have hhigh := byte_continue (UInt8.ofNat (n % 2 ^ 8))
  rw [hlow, hbyte] at hhigh
  have hget : ∀ b : UInt8, (output.set count b).getD count 0 = b := by
    intro b
    simp [List.getD_eq_getElem?_getD, hc]
  have hdiv : n >>> 7 = n / 128 := by simp [Nat.shiftRight_eq_div_pow]
  simp only [encodeLoop, if_neg (Nat.ne_of_gt hn), hlow, hget, hhigh, List.set_set, hdiv]
  by_cases hlt : n < 128
  · have hz : n / 128 = 0 := by omega
    simp [hlt, hz, encodeLoop_zero, Nat.mod_eq_of_lt hlt]
  · have hz : 0 < n / 128 := by omega
    simp [hlt, hz]

theorem encodeLoop_digits {fuel k n count : Nat} {output : Bytes} (hn : 0 < n) (hb : n < 128 ^ k)
    (hf : k < fuel) (hc : count + k ≤ 5) (hl : output.length = 6) :
    let r := encodeLoop fuel n output count
    r.1.length = 6 ∧ r.2 + 1 = count + (varintDigits k n).length ∧
      r.1.take (r.2 + 1) = output.take count ++ varintDigits k n := by
  induction fuel generalizing k n count output with
  | zero => omega
  | succ fuel ih =>
    obtain _ | k := k
    · simp at hb
      omega
    have hcount : count < output.length := by omega
    simp only [encodeLoop_step hn hcount, varintDigits]
    by_cases hlt : n < 128
    · simp [hlt, hl, take_set_self hcount]
    · simp only [if_neg hlt]
      obtain ⟨h6, hlen, htake⟩ :=
        ih (by omega) (div_lt_pow hb) (by omega) (by omega : count + 1 + k ≤ 5)
        (show (output.set count (UInt8.ofNat (n % 128 + 128))).length = 6 by simpa using hl)
      refine ⟨h6, ?_, ?_⟩
      · rw [hlen, List.length_cons]
        omega
      · rw [htake, take_set_self hcount]
        simp

theorem digits_length_pos (value : UInt32) : 0 < (digits value).length := by
  simp only [digits, varintDigits]
  split <;> simp

theorem digits_length_le (value : UInt32) : (digits value).length ≤ 5 := varintDigits_length_le 5 _

theorem set_last_take {output : Bytes} {k : Nat} (hk : k ≤ 5) (b : UInt8) :
    (output.set 5 b).take k = output.take k := by
  rw [List.take_set_of_le (by omega)]

/-- The encoder writes the digits and records their number. -/
theorem encode_spec (value : UInt32) :
    (encode value).len = (digits value).length ∧ (encode value).asRef = digits value := by
  have hb : value.toNat < 128 ^ 5 := by
    have := value.toNat_lt
    omega
  rcases Nat.eq_zero_or_pos value.toNat with hz | hz
  · have hd : digits value = [0] := by simp [digits, hz, varintDigits]
    have he : encode value = ⟨[0, 0, 0, 0, 0, 1]⟩ := by simp [encode, hz,
      encodeLoop, List.replicate]
    rw [hd, he]
    decide
  · obtain ⟨h6, hlen, htake⟩ := encodeLoop_digits hz hb (by omega : 5 < 6) (by omega : 0 + 5 ≤ 5)
      (by simp : (List.replicate 6 (0 : UInt8)).length = 6)
    have hle := digits_length_le value
    have hcount : (encodeLoop 6 value.toNat (List.replicate 6 0) 0).2 + 1 =
        (digits value).length := by
      simpa [digits] using hlen
    have hl : (encode value).len = (digits value).length := by
      simp only [encode, len, hcount, List.getD_eq_getElem?_getD]
      rw [List.getElem?_set_self (by omega)]
      simp
      omega
    refine ⟨hl, ?_⟩
    rw [asRef, hl]
    simp only [encode, hcount, set_last_take hle]
    rw [← hcount]
    simpa [digits] using htake

@[simp]
theorem encode_len (value : UInt32) : (encode value).len = (digits value).length :=
  (encode_spec value).1

@[simp]
theorem encode_asRef (value : UInt32) : (encode value).asRef = digits value := (encode_spec value).2

/-- The threshold table agrees with the number of digits. -/
theorem lengthOf_eq (value : UInt32) : lengthOf value = (digits value).length := by
  have hv := value.toNat_lt
  have h0 : ∀ n, (varintDigits 0 n).length = 0 := fun _ => rfl
  simp only [lengthOf, digits, varintDigits_length_succ, Nat.shiftLeft_eq, h0]
  split_ifs <;> omega

/-- Reading back an encoded value, whatever follows it. -/
theorem decode_digits (value : UInt32) (rest : Bytes) :
    decodeVarint32 (digits value ++ rest) =
      .ok (.success ⟨(digits value).length, value.toNat⟩) := by
  have hv := value.toNat_lt
  have h := decodeLoop_digits (by omega : 0 < 5) (by omega : value.toNat < 128 ^ 5)
    (by omega : 0 + 5 ≤ 5) (by omega)
    (by omega : 0 < 2 ^ (0 * 7)) rest
  simpa [decodeVarint32, digits] using h

end Varint32

end Juliet
