import Juliet.Basics

namespace Juliet

open Rust

/-- Error kind, from the kind byte. -/
inductive ErrorKind
  | other
  | maxFrameSizeExceeded
  | invalidHeader
  | segmentViolation
  | badVarInt
  | invalidChannel
  | inProgress
  | responseTooLarge
  | requestTooLarge
  | duplicateRequest
  | fictitiousRequest
  | requestLimitExceeded
  | fictitiousCancel
  | cancellationLimitExceeded
  deriving DecidableEq, Repr

def ErrorKind.repr : ErrorKind → UInt8
  | .other => 0
  | .maxFrameSizeExceeded => 1
  | .invalidHeader => 2
  | .segmentViolation => 3
  | .badVarInt => 4
  | .invalidChannel => 5
  | .inProgress => 6
  | .responseTooLarge => 7
  | .requestTooLarge => 8
  | .duplicateRequest => 9
  | .fictitiousRequest => 10
  | .requestLimitExceeded => 11
  | .fictitiousCancel => 12
  | .cancellationLimitExceeded => 13

def ErrorKind.count : UInt8 := 14

def ErrorKind.all : List ErrorKind :=
  [.other, .maxFrameSizeExceeded, .invalidHeader, .segmentViolation, .badVarInt, .invalidChannel,
    .inProgress, .responseTooLarge, .requestTooLarge, .duplicateRequest, .fictitiousRequest,
    .requestLimitExceeded, .fictitiousCancel, .cancellationLimitExceeded]

def ErrorKind.fromRepr (b : UInt8) : Option ErrorKind := ErrorKind.all.find? (·.repr == b)

/-- Frame kind, from the kind byte. -/
inductive Kind
  | request
  | response
  | requestPl
  | responsePl
  | cancelReq
  | cancelResp
  deriving DecidableEq, Repr

def Kind.repr : Kind → UInt8
  | .request => 0
  | .response => 1
  | .requestPl => 2
  | .responsePl => 3
  | .cancelReq => 4
  | .cancelResp => 5

def Kind.count : UInt8 := 6

def Kind.all : List Kind := [.request, .response, .requestPl, .responsePl, .cancelReq, .cancelResp]

def Kind.fromRepr (b : UInt8) : Option Kind := Kind.all.find? (·.repr == b)

/-- The four header bytes as they stand on the wire. -/
structure Header where
  kindByte : UInt8
  channelByte : UInt8
  idLow : UInt8
  idHigh : UInt8
  deriving DecidableEq, Repr

def Id.low (id : Id) : UInt8 := UInt8.ofNat (id.get.toNat % 256)

def Id.high (id : Id) : UInt8 := UInt8.ofNat (id.get.toNat / 256)

namespace Header

abbrev size : Nat := 4

def kindErrBit : UInt8 := 0b10000000

def kindErrMask : UInt8 := 0b00001111

def kindMask : UInt8 := 0b00000111

def new (kind : Kind) (channel : ChannelId) (id : Id) : Header :=
  ⟨kind.repr, channel.get, id.low, id.high⟩

def newError (kind : ErrorKind) (channel : ChannelId) (id : Id) : Header :=
  ⟨kind.repr ||| kindErrBit, channel.get, id.low, id.high⟩

def isError (h : Header) : Bool := h.kindByte &&& kindErrBit == kindErrBit

def parse (raw : UInt8 × UInt8 × UInt8 × UInt8) : Option Header :=
  let h : Header := ⟨raw.1 &&& (kindErrMask ||| kindMask ||| kindErrBit), raw.2.1,
    raw.2.2.1, raw.2.2.2⟩
  if h.isError then
    if h.kindByte &&& kindErrMask ≥ ErrorKind.count then none else some h
  else if h.kindByte &&& kindMask ≥ Kind.count then none
  else if h.kindByte &&& kindMask != h.kindByte then none
  else some h

def channel (h : Header) : ChannelId := ⟨h.channelByte⟩

def id (h : Header) : Id := ⟨UInt16.ofNat (h.idLow.toNat + 256 * h.idHigh.toNat)⟩

def errorKind (h : Header) : Checked ErrorKind := do
  debugAssert (h.isError = true)
  match ErrorKind.fromRepr (h.kindByte &&& kindErrMask) with
  | some value => return value
  | none => throw .unreachable

def kind (h : Header) : Checked Kind := do
  debugAssert (h.isError = false)
  match Kind.fromRepr (h.kindByte &&& kindMask) with
  | some kind => return kind
  | none => throw .unreachable

/-- The same channel and id under an error kind. -/
def withErr (h : Header) (kind : ErrorKind) : Header := newError kind h.channel h.id

def bytes (h : Header) : Bytes := [h.kindByte, h.channelByte, h.idLow, h.idHigh]

@[simp]
theorem bytes_length (h : Header) : h.bytes.length = 4 := rfl

@[simp]
theorem new_channel (kind : Kind) (channel : ChannelId) (id : Id) :
    (new kind channel id).channel = channel :=
  rfl

@[simp]
theorem newError_channel (kind : ErrorKind) (channel : ChannelId) (id : Id) :
    (newError kind channel id).channel = channel := rfl

theorem id_of_bytes {i : Id} {h : Header} (hl : h.idLow = i.low) (hh : h.idHigh = i.high) :
    h.id = i := by
  have hb := i.get.toNat_lt
  have he : h.idLow.toNat + 256 * h.idHigh.toNat = i.get.toNat := by
    rw [hl, hh]
    simp only [Id.low, Id.high, UInt8.toNat_ofNat']
    omega
  cases i
  simp only [Header.id, he, UInt16.ofNat_toNat]

@[simp]
theorem new_id (kind : Kind) (channel : ChannelId) (id : Id) : (new kind channel id).id = id :=
  id_of_bytes rfl rfl

@[simp]
theorem newError_id (kind : ErrorKind) (channel : ChannelId) (id : Id) :
    (newError kind channel id).id = id :=
  id_of_bytes rfl rfl

theorem kind_repr_isError (k : Kind) : (k.repr &&& kindErrBit == kindErrBit) = false := by
  cases k <;> decide

theorem kind_fromRepr_masked (k : Kind) : Kind.fromRepr (k.repr &&& kindMask) = some k := by
  cases k <;> decide

theorem errorKind_repr_isError (k : ErrorKind) :
    ((k.repr ||| kindErrBit) &&& kindErrBit == kindErrBit) = true := by
  cases k <;> decide

theorem errorKind_fromRepr_masked (k : ErrorKind) :
    ErrorKind.fromRepr ((k.repr ||| kindErrBit) &&& kindErrMask) = some k := by
  cases k <;> decide

@[simp]
theorem new_isError (kind : Kind) (channel : ChannelId) (id : Id) :
    (new kind channel id).isError = false :=
  kind_repr_isError kind

@[simp]
theorem new_kind (k : Kind) (channel : ChannelId) (id : Id) : (new k channel id).kind = .ok k := by
  have hk : Kind.fromRepr ((new k channel id).kindByte &&& kindMask) = some k :=
    kind_fromRepr_masked k
  simp [kind, debugAssert, hk]

@[simp]
theorem newError_isError (kind : ErrorKind) (channel : ChannelId) (id : Id) :
    (newError kind channel id).isError = true :=
  errorKind_repr_isError kind

@[simp]
theorem newError_errorKind (k : ErrorKind) (channel : ChannelId) (id : Id) :
    (newError k channel id).errorKind = .ok k := by
  have hk : ErrorKind.fromRepr ((newError k channel id).kindByte &&& kindErrMask) = some k :=
    errorKind_fromRepr_masked k
  simp [errorKind, debugAssert, hk]

/-- Headers built by `new` agree exactly when kind, channel and id do. -/
@[simp]
theorem new_inj {k k' : Kind} {c c' : ChannelId} {i i' : Id} :
    new k c i = new k' c' i' ↔ k = k' ∧ c = c' ∧ i = i' := by
  constructor
  · intro h
    refine ⟨?_, ?_, ?_⟩
    · have hk : (new k c i).kind = (new k' c' i').kind := by rw [h]
      simpa using hk
    · have hc : (new k c i).channel = (new k' c' i').channel := by rw [h]
      simpa using hc
    · have hi : (new k c i).id = (new k' c' i').id := by rw [h]
      simpa using hi
  · rintro ⟨rfl, rfl, rfl⟩
    rfl

theorem kind_repr_reserved (k : Kind) :
    k.repr &&& (kindErrMask ||| kindMask ||| kindErrBit) = k.repr := by
  cases k <;> decide

theorem kind_repr_valid (k : Kind) : k.repr < Kind.count ∧ k.repr &&& kindMask = k.repr := by
  cases k <;> decide

@[simp]
theorem parse_new (k : Kind) (channel : ChannelId) (id : Id) :
    parse (k.repr, channel.get, id.low, id.high) = some (new k channel id) := by
  have hv := kind_repr_valid k
  have he : (new k channel id).isError = false := new_isError k channel id
  simp only [new] at he
  simp [parse, kind_repr_reserved, he, hv.1, hv.2, new]

theorem errorKind_repr_reserved (k : ErrorKind) :
    (k.repr ||| kindErrBit) &&& (kindErrMask ||| kindMask ||| kindErrBit) =
      k.repr ||| kindErrBit := by
  cases k <;> decide

theorem errorKind_repr_valid (k : ErrorKind) :
    (k.repr ||| kindErrBit) &&& kindErrMask < ErrorKind.count := by
  cases k <;> decide

@[simp]
theorem parse_newError (k : ErrorKind) (channel : ChannelId) (id : Id) :
    parse (k.repr ||| kindErrBit, channel.get, id.low, id.high) = some (newError k channel id) := by
  have he : (newError k channel id).isError = true := newError_isError k channel id
  simp only [newError] at he
  simp [parse, errorKind_repr_reserved, he, errorKind_repr_valid, newError]

theorem kindByte_valid (b : UInt8) : b &&& kindMask < Kind.count → b &&& kindMask = b →
    ∃ k ∈ Kind.all, b = k.repr := by
  cases b with
  | ofBitVec b =>
    cases b with
    | ofFin b =>
      revert b
      decide +kernel

/-- Masking the reserved bits leaves the error bit and the error kind only. -/
theorem errorByte_valid (b : UInt8) :
    (b &&& (kindErrMask ||| kindMask ||| kindErrBit)) &&& kindErrBit = kindErrBit →
    (b &&& (kindErrMask ||| kindMask ||| kindErrBit)) &&& kindErrMask < ErrorKind.count →
    ∃ k ∈ ErrorKind.all, b &&& (kindErrMask ||| kindMask ||| kindErrBit) =
      k.repr ||| kindErrBit := by
  cases b with
  | ofBitVec b =>
    cases b with
    | ofFin b =>
      revert b
      decide +kernel

theorem id_low_high (h : Header) : h.id.low = h.idLow ∧ h.id.high = h.idHigh := by
  have hl := h.idLow.toNat_lt
  have hh := h.idHigh.toNat_lt
  have he : h.id.get.toNat = h.idLow.toNat + 256 * h.idHigh.toNat := by
    simp only [Header.id, UInt16.toNat_ofNat']
    omega
  constructor
  · apply UInt8.toNat_inj.mp
    simp only [Id.low, he, UInt8.toNat_ofNat']
    omega
  · apply UInt8.toNat_inj.mp
    simp only [Id.high, he, UInt8.toNat_ofNat']
    omega

/-- A parsed non-error header is the header of its kind, channel and id. -/
theorem parse_kind {raw : UInt8 × UInt8 × UInt8 × UInt8} {h : Header} (hp : parse raw = some h)
    (he : h.isError = false) : ∃ k, h = new k h.channel h.id := by
  simp only [parse] at hp
  split at hp
  next hr =>
    split at hp
    next => simp at hp
    next =>
      cases Option.some.inj hp
      simp [hr] at he
  next =>
    split at hp
    next => simp at hp
    next hlt =>
      split at hp
      next => simp at hp
      next hmask =>
        have hh := Option.some.inj hp
        obtain ⟨k, _, hk⟩ := kindByte_valid h.kindByte (by simpa [← hh] using hlt)
          (by simpa [← hh] using hmask)
        obtain ⟨hlow, hhigh⟩ := id_low_high h
        refine ⟨k, ?_⟩
        simp only [new, hlow, hhigh, ← hk]
        rfl

/-- A parsed error header is the error header of its kind, channel and id. -/
theorem parse_errorKind {raw : UInt8 × UInt8 × UInt8 × UInt8} {h : Header} (hp : parse raw = some h)
    (he : h.isError = true) : ∃ k, h = newError k h.channel h.id := by
  simp only [parse] at hp
  split at hp
  next hr =>
    split at hp
    next => simp at hp
    next hlt =>
      have hh := Option.some.inj hp
      obtain ⟨k, _, hk⟩ := errorByte_valid raw.1 (by simpa [isError] using hr) (by simpa using hlt)
      obtain ⟨hlow, hhigh⟩ := id_low_high h
      refine ⟨k, ?_⟩
      simp only [newError, hlow, hhigh, ← hk]
      rw [← hh]
      rfl
  next hr =>
    split at hp
    next => simp at hp
    next =>
      split at hp
      next => simp at hp
      next =>
        cases Option.some.inj hp
        simp [he] at hr

end Header

end Juliet
