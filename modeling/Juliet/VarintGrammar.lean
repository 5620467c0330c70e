import Mathlib.Algebra.BigOperators.Intervals
import Mathlib.Algebra.BigOperators.Ring.Finset
import Juliet.Varint

namespace Juliet

open Rust

/-- The one byte that a varint asks for when it is cut off. -/
def NonZeroU32.one : NonZeroU32 := ⟨1, Nat.one_pos, Nat.one_lt_two_pow (by omega)⟩

/-- The continuation bit of a byte. -/
def dataFollows (c : UInt8) : Prop := c.toNat.testBit 7 = true

theorem dataFollows_iff (c : UInt8) : dataFollows c ↔ 128 ≤ c.toNat := by
  cases c with
  | ofBitVec c =>
    cases c with
    | ofFin c =>
      revert c
      unfold dataFollows
      decide +kernel

/-- From position `idx` of a varint on, byte `j` of `input` is the last one: those before it
announce more, it does not, and as fifth byte it keeps to the four bits that are left of a `u32`. -/
structure EndsAt (idx : Nat) (input : Bytes) (j : Nat) : Prop where
  inside : j < input.length
  short : idx + j ≤ 4
  continues : ∀ i < j, dataFollows (input.getD i 0)
  stops : ¬ dataFollows (input.getD j 0)
  fits : idx + j = 4 → (input.getD j 0).toNat < 16

/-- From position `idx` of a varint on, every byte before the fifth announces more and the fifth
does not fit. -/
structure Overflows (idx : Nat) (input : Bytes) : Prop where
  inside : 4 < idx + input.length
  continues : ∀ i, idx + i < 4 → dataFollows (input.getD i 0)
  exceeds : 16 ≤ (input.getD (4 - idx) 0).toNat

/-- The bytes end before the varint does. -/
structure Unfinished (idx : Nat) (input : Bytes) : Prop where
  short : idx + input.length ≤ 4
  continues : ∀ i < input.length, dataFollows (input.getD i 0)

theorem EndsAt.zero {idx : Nat} {c : UInt8} {input : Bytes} (hi : idx ≤ 4) (hc : ¬ dataFollows c)
    (hf : idx = 4 → c.toNat < 16) : EndsAt idx (c :: input) 0 := by
  refine ⟨by simp, by omega, ?_, by simpa using hc, ?_⟩
  · intro i hi'
    omega
  · intro he
    simpa using hf (by omega)

theorem EndsAt.succ {idx j : Nat} {c : UInt8} {input : Bytes} (hc : dataFollows c)
    (h : EndsAt (idx + 1) input j) : EndsAt idx (c :: input) (j + 1) := by
  have hs := h.short
  refine ⟨by simpa using h.inside, by omega, ?_, by simpa using h.stops, ?_⟩
  · intro i hi
    cases i with
    | zero => simpa using hc
    | succ i => simpa using h.continues i (by omega)
  · intro he
    simpa using h.fits (by omega)

theorem Overflows.cons {idx : Nat} {c : UInt8} {input : Bytes} (hi : idx < 4) (hc : dataFollows c)
    (h : Overflows (idx + 1) input) : Overflows idx (c :: input) := by
  have hl := h.inside
  refine ⟨by simp; omega, ?_, ?_⟩
  · intro i hi
    cases i with
    | zero => simpa using hc
    | succ i => simpa using h.continues i (by omega)
  · have he : 4 - idx = 4 - (idx + 1) + 1 := by omega
    rw [he]
    simpa using h.exceeds

theorem Unfinished.cons {idx : Nat} {c : UInt8} {input : Bytes} (hc : dataFollows c)
    (h : Unfinished (idx + 1) input) : Unfinished idx (c :: input) := by
  have hs := h.short
  refine ⟨by simp; omega, ?_⟩
  intro i hi
  cases i with
  | zero => simpa using hc
  | succ i => simpa using h.continues i (by simpa using hi)

/-- The last byte of a varint has only one place. -/
theorem EndsAt.unique {idx j k : Nat} {input : Bytes} (h : EndsAt idx input j)
    (hk : EndsAt idx input k) : j = k := by
  rcases Nat.lt_trichotomy j k with hlt | he | hlt
  · exact absurd (hk.continues j hlt) h.stops
  · exact he
  · exact absurd (h.continues k hlt) hk.stops

theorem EndsAt.not_overflows {idx j : Nat} {input : Bytes} (h : EndsAt idx input j) :
    ¬ Overflows idx input := by
  intro ho
  have hs := h.short
  rcases Nat.lt_or_eq_of_le hs with hlt | he
  · exact h.stops (ho.continues j hlt)
  · have hj : 4 - idx = j := by omega
    have hx := ho.exceeds
    rw [hj] at hx
    have hf := h.fits he
    omega

theorem EndsAt.not_unfinished {idx j : Nat} {input : Bytes} (h : EndsAt idx input j) :
    ¬ Unfinished idx input :=
  fun hu => h.stops (hu.continues j h.inside)

theorem Overflows.not_unfinished {idx : Nat} {input : Bytes} (h : Overflows idx input) :
    ¬ Unfinished idx input := by
  intro hu
  have hs := hu.short
  have hl := h.inside
  omega

/-- The value of the first `k` bytes of a varint, the lowest seven bits first. -/
def digitSum (input : Bytes) (k : Nat) : Nat :=
  ∑ i ∈ Finset.range k, (input.getD i 0).toNat % 128 * 128 ^ i

theorem digitSum_cons (c : UInt8) (input : Bytes) (k : Nat) :
    digitSum (c :: input) (k + 1) = c.toNat % 128 + 128 * digitSum input k := by
  simp only [digitSum, Finset.sum_range_succ', Finset.mul_sum, List.getD_cons_succ,
    List.getD_cons_zero, Nat.pow_zero, Nat.mul_one]
  rw [Nat.add_comm]
  congr 1
  apply Finset.sum_congr rfl
  intro i _
  ring

/-- Where a varint read from position `idx` on stands: ended, overflown or cut off. -/
theorem decodeLoop_cases {value idx : Nat} (input : Bytes) (hi : idx ≤ 4)
    (hv : value < 2 ^ (idx * 7)) :
    (∃ j, EndsAt idx input j ∧ decodeLoop value idx input =
        .ok (.success ⟨idx + j + 1, value + digitSum input (j + 1) * 2 ^ (idx * 7)⟩)) ∨
      (Overflows idx input ∧ decodeLoop value idx input = .ok (.fatal .mk)) ∨
      (Unfinished idx input ∧ decodeLoop value idx input = .ok (.incomplete .one)) := by
  induction input generalizing value idx with
  | nil =>
    exact .inr (.inr ⟨⟨by simpa using hi, by simp⟩, by simp [decodeLoop,
      Outcome.needs, NonZeroU32.one]⟩)
  | cons c input ih =>
    rw [decodeLoop_cons hi hv]
    split
    next hf =>
      refine .inr (.inl ⟨⟨by simp; omega, ?_, ?_⟩, rfl⟩)
      · intro i hlt
        omega
      · simpa [hf.1] using hf.2
    next hf =>
      split
      next hc =>
        have hstop : ¬ dataFollows c := by
          rw [dataFollows_iff]
          omega
        refine .inl ⟨0, .zero hi hstop (by omega), ?_⟩
        simp [digitSum]
      next hc =>
        have hmore : dataFollows c := by
          rw [dataFollows_iff]
          omega
        have hlt : idx < 4 := by omega
        rcases ih (by omega) (decodeLoop_grows (c := c) hv) with ⟨j, he, hd⟩ | ⟨ho, hd⟩ | ⟨hu, hd⟩
        · refine .inl ⟨j + 1, he.succ hmore, ?_⟩
          have hp : 2 ^ ((idx + 1) * 7) = 128 * 2 ^ (idx * 7) := by
            rw [Nat.add_mul, Nat.pow_add]
            omega
          have hsum : value + c.toNat % 128 * 2 ^ (idx * 7) + digitSum input
              (j + 1) * 2 ^ ((idx + 1) * 7) =
              value + digitSum (c :: input) (j + 1 + 1) * 2 ^ (idx * 7) := by
            rw [digitSum_cons, hp]
            ring
          have hoff : idx + 1 + j + 1 = idx + (j + 1) + 1 := by omega
          rw [hd, hsum, hoff]
        · exact .inr (.inl ⟨ho.cons hlt hmore, hd⟩)
        · exact .inr (.inr ⟨hu.cons hmore, hd⟩)

theorem decodeVarint32_cases (input : Bytes) :
    (∃ j, EndsAt 0 input j ∧ decodeVarint32 input =
      .ok (.success ⟨j + 1, digitSum input (j + 1)⟩)) ∨
      (Overflows 0 input ∧ decodeVarint32 input = .ok (.fatal .mk)) ∨
      (Unfinished 0 input ∧ decodeVarint32 input = .ok (.incomplete .one)) := by
  have h := decodeLoop_cases input (by omega : 0 ≤ 4) (by omega : 0 < 2 ^ (0 * 7))
  simpa [decodeVarint32] using h

theorem decodeVarint32_success_iff {input : Bytes} {p : ParsedU32} :
    decodeVarint32 input = .ok (.success p) ↔
      ∃ j, EndsAt 0 input j ∧ p = ⟨j + 1, digitSum input (j + 1)⟩ := by
  rcases decodeVarint32_cases input with ⟨j, he, hd⟩ | ⟨ho, hd⟩ | ⟨hu, hd⟩
  · rw [hd]
    constructor
    · intro h
      exact ⟨j, he, (Outcome.success.inj (Except.ok.inj h)).symm⟩
    · rintro ⟨k, hk, rfl⟩
      rw [he.unique hk]
  · simp only [hd, Except.ok.injEq, reduceCtorEq, false_iff]
    rintro ⟨k, hk, _⟩
    exact hk.not_overflows ho
  · simp only [hd, Except.ok.injEq, reduceCtorEq, false_iff]
    rintro ⟨k, hk, _⟩
    exact hk.not_unfinished hu

theorem decodeVarint32_fatal_iff {input : Bytes} :
    decodeVarint32 input = .ok (.fatal .mk) ↔ Overflows 0 input := by
  rcases decodeVarint32_cases input with ⟨j, he, hd⟩ | ⟨ho, hd⟩ | ⟨hu, hd⟩
  · simpa only [hd, Except.ok.injEq, reduceCtorEq, false_iff] using he.not_overflows
  · simpa only [hd, true_iff] using ho
  · simp only [hd, Except.ok.injEq, reduceCtorEq, false_iff]
    exact fun ho => ho.not_unfinished hu

theorem getD_take_append {input rest : Bytes} {i k : Nat} (hi : i < k) (hk : k ≤ input.length) :
    (input.take k ++ rest).getD i 0 = input.getD i 0 := by
  have hl : i < (input.take k).length := by
    simp
    omega
  simp only [List.getD_eq_getElem?_getD, List.getElem?_append_left hl, List.getElem?_take_of_lt hi]

/-- Only the bytes up to the last one of the varint count. -/
theorem EndsAt.take_append {input : Bytes} {j : Nat} (h : EndsAt 0 input j) (rest : Bytes) :
    EndsAt 0 (input.take (j + 1) ++ rest) j := by
  have hl : j + 1 ≤ input.length := h.inside
  refine ⟨by simp; omega, h.short, ?_, ?_, ?_⟩
  · intro i hi
    rw [getD_take_append (by omega) hl]
    exact h.continues i hi
  · rw [getD_take_append (by omega) hl]
    exact h.stops
  · rw [getD_take_append (by omega) hl]
    exact h.fits

theorem Overflows.take_append {input : Bytes} (h : Overflows 0 input) (rest : Bytes) :
    Overflows 0 (input.take 5 ++ rest) := by
  have hl : 5 ≤ input.length := by
    have := h.inside
    omega
  refine ⟨by simp; omega, ?_, ?_⟩
  · intro i hi
    rw [getD_take_append (by omega) hl]
    exact h.continues i hi
  · rw [getD_take_append (by omega) hl]
    exact h.exceeds

theorem digitSum_take_append {input : Bytes} {k : Nat} (hk : k ≤ input.length) (rest : Bytes) :
    digitSum (input.take k ++ rest) k = digitSum input k := by
  apply Finset.sum_congr rfl
  intro i hi
  rw [getD_take_append (Finset.mem_range.mp hi) hk]

/-- The varint parser accepts its grammar and nothing else, at the exact value and length, and looks
at no byte behind the varint; it returns on every input, so neither its shift nor its cast
overflows. -/
theorem decodeVarint32_accepts_grammar (input : Bytes) :
    (∀ k, (∃ value, decodeVarint32 input = .ok (.success ⟨k, value⟩)) ↔
      1 ≤ k ∧ k ≤ 5 ∧ k ≤ input.length ∧ (∀ i < k - 1, dataFollows (input.getD i 0)) ∧
        ¬ dataFollows (input.getD (k - 1) 0) ∧ (k = 5 → (input.getD 4 0).toNat < 16)) ∧
    (∀ k value, decodeVarint32 input = .ok (.success ⟨k, value⟩) →
      value = ∑ i ∈ Finset.range k, (input.getD i 0).toNat % 128 * 128 ^ i ∧ value < 2 ^ 32 ∧
        ∀ rest, decodeVarint32 (input.take k ++ rest) = .ok (.success ⟨k, value⟩)) ∧
    (decodeVarint32 input = .ok (.fatal .mk) ↔
      5 ≤ input.length ∧ (∀ i < 4, dataFollows (input.getD i 0)) ∧ 16 ≤ (input.getD 4 0).toNat) ∧
    (decodeVarint32 input = .ok (.fatal .mk) →
      ∀ rest, decodeVarint32 (input.take 5 ++ rest) = .ok (.fatal .mk)) ∧
    ((∀ k value, decodeVarint32 input ≠ .ok (.success ⟨k, value⟩)) →
      decodeVarint32 input ≠ .ok (.fatal .mk) →
      decodeVarint32 input = .ok (.incomplete .one)) ∧
    ∀ p, decodeVarint32 input ≠ .error p := by
  refine ⟨?_, ?_, ?_, ?_, ?_, ?_⟩
  · intro k
    simp only [decodeVarint32_success_iff, ParsedU32.mk.injEq]
    constructor
    · rintro ⟨value, j, h, rfl, -⟩
      have hs := h.short
      have hi := h.inside
      refine ⟨by omega, by omega, by omega, h.continues, h.stops, ?_⟩
      intro he
      obtain rfl : j = 4 := by omega
      exact h.fits rfl
    · rintro ⟨hpos, hle, hlen, hc, hs, hf⟩
      obtain _ | j := k
      · omega
      refine ⟨_, j, ⟨by omega, by omega, hc, hs, ?_⟩, rfl, rfl⟩
      intro he
      obtain rfl : j = 4 := by omega
      exact hf rfl
  · intro k value h
    obtain ⟨j, he, hp⟩ := decodeVarint32_success_iff.mp h
    obtain ⟨rfl, rfl⟩ := ParsedU32.mk.inj hp
    refine ⟨rfl, ?_, ?_⟩
    · obtain ⟨r, hr, hs⟩ := decodeVarint32_spec input
      obtain rfl := Except.ok.inj (h.symm.trans hr)
      cases hs with
      | success _ _ _ _ hlt => exact hlt
    · intro rest
      have hl : j + 1 ≤ input.length := he.inside
      rw [decodeVarint32_success_iff]
      exact ⟨j, he.take_append rest, by rw [digitSum_take_append hl]⟩
  · rw [decodeVarint32_fatal_iff]
    constructor
    · intro h
      have hl := h.inside
      exact ⟨by omega, fun i hi => h.continues i (by omega), h.exceeds⟩
    · rintro ⟨hl, hc, hx⟩
      exact ⟨by omega, fun i hi => hc i (by omega), hx⟩
  · intro h rest
    rw [decodeVarint32_fatal_iff] at h ⊢
    exact h.take_append rest
  · intro hs hf
    rcases decodeVarint32_cases input with ⟨j, _, hd⟩ | ⟨_, hd⟩ | ⟨_, hd⟩
    · exact absurd hd (hs _ _)
    · exact absurd hd hf
    · exact hd
  · intro p h
    obtain ⟨r, hr, _⟩ := decodeVarint32_spec input
    rw [hr] at h
    cases h

theorem EndsAt.tail {idx j : Nat} {c : UInt8} {input : Bytes}
    (h : EndsAt idx (c :: input) (j + 1)) :
    dataFollows c ∧ EndsAt (idx + 1) input j := by
  have hs := h.short
  refine ⟨by simpa using h.continues 0 (by omega), by simpa using h.inside, by omega, ?_,
    by simpa using h.stops, ?_⟩
  · intro i hi
    simpa using h.continues (i + 1) (by omega)
  · intro he
    simpa using h.fits (by omega)

theorem ofNat_eq_of_toNat {c : UInt8} {n : Nat} (h : n = c.toNat) : UInt8.ofNat n = c := by
  rw [h, UInt8.ofNat_toNat]

/-- A varint that is no longer than the digits of its value has just these digits. -/
theorem EndsAt.eq_digits {idx j k n : Nat} {b : Bytes} (h : EndsAt idx b j) (hj : b.length = j + 1)
    (hs : digitSum b (j + 1) = n) (hl : b.length ≤ (varintDigits k n).length) :
    b = varintDigits k n := by
  induction j generalizing idx k n b with
  | zero =>
    obtain ⟨c, rfl⟩ := List.length_eq_one_iff.mp hj
    have hc : c.toNat < 128 := by
      have := h.stops
      rw [dataFollows_iff] at this
      simpa using this
    have hn : n = c.toNat := by
      rw [digitSum_cons] at hs
      simp only [digitSum, Finset.range_zero, Finset.sum_empty] at hs
      omega
    obtain _ | k := k
    · simp [varintDigits] at hl
    · rw [varintDigits, if_pos (by omega), ofNat_eq_of_toNat hn]
  | succ j ih =>
    obtain _ | ⟨c, b⟩ := b
    · simp at hj
    obtain ⟨hc, htail⟩ := h.tail
    rw [dataFollows_iff] at hc
    rw [digitSum_cons] at hs
    have hlt := c.toNat_lt
    obtain _ | k := k
    · simp [varintDigits] at hl
    -- a single digit would be shorter than the two bytes at hand
    have hlarge : ¬ n < 128 := by
      intro hsmall
      rw [varintDigits, if_pos hsmall] at hl
      simp only [List.length_cons, List.length_nil] at hj hl
      omega
    have hrest : digitSum b (j + 1) = n / 128 := by omega
    have hbyte : n % 128 + 128 = c.toNat := by omega
    rw [varintDigits, if_neg hlarge] at hl ⊢
    rw [ofNat_eq_of_toNat hbyte, ← ih htail (by simpa using hj) hrest (by simpa using hl)]

namespace Varint32

theorem encodeLoop_length (fuel n : Nat) (output : Bytes) (count : Nat) :
    (encodeLoop fuel n output count).1.length = output.length := by
  induction fuel generalizing n output count with
  | zero => rfl
  | succ fuel ih =>
    simp only [encodeLoop]
    split
    next => rfl
    next =>
      split
      next => simp [ih]
      next => simp [ih]

/-- After any number of passes the loop stands at a byte that its value still needs. -/
theorem encodeLoop_count_lt {fuel n k count bound : Nat} {output : Bytes} (hk : 0 < k)
    (hn : n < 128 ^ k) (hb : count + k ≤ bound) : (encodeLoop fuel n output count).2 < bound := by
  induction fuel generalizing n k count output with
  | zero =>
    simp only [encodeLoop]
    omega
  | succ fuel ih =>
    simp only [encodeLoop, Nat.shiftRight_eq_div_pow]
    split
    next => simpa using (by omega : count < bound)
    next hz =>
      split
      next hmore =>
        obtain _ | k := k
        · omega
        exact ih (pos_of_digits hn (by omega)) (div_lt_pow hn) (by omega)
      next hlast =>
        have hz' : n / 2 ^ 7 = 0 := by omega
        rw [hz', encodeLoop_zero]
        simpa using (by omega : count < bound)

/-- Passes beyond the digits of the value change nothing. -/
theorem encodeLoop_fuel {fuel k n count : Nat} {output : Bytes} (hn : n < 128 ^ k) (hk : k ≤ fuel) :
    encodeLoop fuel n output count = encodeLoop k n output count := by
  induction k generalizing fuel n count output with
  | zero =>
    have hz : n = 0 := by simpa using hn
    rw [hz, encodeLoop_zero, encodeLoop_zero]
  | succ k ih =>
    obtain _ | fuel := fuel
    · omega
    simp only [encodeLoop, Nat.shiftRight_eq_div_pow]
    split
    next => rfl
    next =>
      split
      next => exact ih (div_lt_pow hn) (by omega)
      next => exact ih (div_lt_pow hn) (by omega)

theorem encode_raw_length (value : UInt32) : (encode value).raw.length = 6 := by
  simp [encode, encodeLoop_length]

/-- What is left of an encoded value when it is cut short asks for one more byte. -/
theorem decode_short_prefix {value : UInt32} {p : Bytes} (hp : p <+: digits value)
    (hne : p ≠ digits value) :
    decodeVarint32 p = .ok (.incomplete .one) := by
  obtain ⟨rest, hrest⟩ := hp
  have hfull := decode_digits value []
  rw [List.append_nil] at hfull
  have hshort : p.length < (digits value).length := by
    rcases Nat.lt_or_ge p.length (digits value).length with h | h
    · exact h
    · exact absurd (List.IsPrefix.eq_of_length_le ⟨rest, hrest⟩ h) hne
  -- a decision on the part would be the decision on the whole, which needs every byte
  rcases decodeVarint32_cases p with ⟨j, he, hd⟩ | ⟨_, hd⟩ | ⟨_, hd⟩
  · have hwhole := decodeVarint32_append hd (by simp) rest
    rw [hrest, hfull] at hwhole
    have hoff := congrArg ParsedU32.offset (Outcome.success.inj (Except.ok.inj hwhole))
    have hin := he.inside
    simp only at hoff
    omega
  · have hwhole := decodeVarint32_append hd (by simp) rest
    rw [hrest, hfull] at hwhole
    cases hwhole
  · exact hd

theorem decode_encode (value : UInt32) : (encode value).decode = .ok value.toNat := by
  have hpos := digits_length_pos value
  have hraw : (encode value).raw = digits value ++ (encode value).raw.drop
      (digits value).length := by
    have h := List.take_append_drop (encode value).len (encode value).raw
    have hr : (encode value).raw.take (encode value).len = digits value := encode_asRef value
    rw [hr, encode_len] at h
    exact h.symm
  have hs : (encode value).isSentinel = false := by
    simp only [isSentinel, encode_len]
    simpa using Nat.ne_of_gt hpos
  have hd := decode_digits value ((encode value).raw.drop (digits value).length)
  rw [← hraw] at hd
  simp [decode, hs, hd]

/-- The encoder, the decoder and the threshold table agree on one format, and the encoding is the
shortest. -/
theorem encode_is_canonical (v : UInt32) (s : Bytes) :
    (∀ passes, (encodeLoop passes v.toNat (List.replicate 6 0) 0).2 < maxLen) ∧
    (∀ passes, 5 ≤ passes →
      encodeLoop passes v.toNat (List.replicate 6 0) 0 =
        encodeLoop 6 v.toNat (List.replicate 6 0) 0) ∧
    (encode v).raw.length = 6 ∧ (encode v).len = lengthOf v ∧ (encode v).isSentinel = false ∧
    encode v ≠ sentinel ∧
    decodeVarint32 ((encode v).asRef ++ s) = .ok (.success ⟨lengthOf v, v.toNat⟩) ∧
    (∀ p, p <+: (encode v).asRef → p ≠ (encode v).asRef → decodeVarint32 p =
      .ok (.incomplete .one)) ∧
    (encode v).decode = .ok v.toNat ∧
    (∀ b : Bytes, b.length ≤ (encode v).asRef.length →
      decodeVarint32 b = .ok (.success ⟨b.length, v.toNat⟩) → b = (encode v).asRef) := by
  have hv : v.toNat < 128 ^ 5 := by
    have := v.toNat_lt
    omega
  have hpos := digits_length_pos v
  refine ⟨?_, ?_, encode_raw_length v, ?_, ?_, ?_, ?_, ?_, decode_encode v, ?_⟩
  · intro passes
    exact encodeLoop_count_lt (by omega : 0 < 5) hv (by simp [maxLen])
  · intro passes hp
    rw [encodeLoop_fuel hv hp, encodeLoop_fuel hv (by omega : 5 ≤ 6)]
  · rw [encode_len, lengthOf_eq]
  · simp only [isSentinel, encode_len]
    simpa using Nat.ne_of_gt hpos
  · intro h
    have hl := encode_len v
    rw [h] at hl
    have hz : sentinel.len = 0 := rfl
    omega
  · rw [encode_asRef, lengthOf_eq, decode_digits]
  · intro p hp hne
    rw [encode_asRef] at hp hne
    exact decode_short_prefix hp hne
  · intro b hb hd
    obtain ⟨j, he, hp⟩ := decodeVarint32_success_iff.mp hd
    obtain ⟨hj, hsum⟩ := ParsedU32.mk.inj hp
    rw [encode_asRef] at hb ⊢
    exact he.eq_digits hj hsum.symm hb

end Varint32

end Juliet
