import Juliet.Varint

namespace Juliet

/-- The maximum frame size; a value below `MaxFrameSize::MIN` cannot be built. -/
structure MaxFrameSize where
  get : Nat
  min_le : Header.size + Varint32.maxLen + 1 ≤ get
  lt : get < 2 ^ 32
  deriving Repr

def MaxFrameSize.default : MaxFrameSize := ⟨4096, by decide, by decide⟩

/-- `MaxFrameSize::MIN` as a frame size. -/
def MaxFrameSize.smallest : MaxFrameSize := ⟨10, by decide, by decide⟩

def MaxFrameSize.withoutHeader (m : MaxFrameSize) : Nat := m.get - Header.size

def MaxFrameSize.withoutPreamble (m : MaxFrameSize) (payloadLen : UInt32) : Nat :=
  m.withoutHeader - Varint32.lengthOf payloadLen

/-- Whether a payload of this length needs more than one frame. The casts to `u32` are the
source's. -/
def payloadIsMultiFrame (m : MaxFrameSize) (payloadLen : Nat) : Bool :=
  m.withoutPreamble (UInt32.ofNat payloadLen) < payloadLen

structure OutgoingMessage where
  header : Header
  payload : Option Bytes
  deriving DecidableEq, Repr

/-- Header and, in the first frame of a message with a payload, the length of that payload. -/
structure Preamble where
  header : Header
  payloadLength : Varint32
  deriving DecidableEq, Repr

def Preamble.len (p : Preamble) : Nat := Header.size + p.payloadLength.len

def Preamble.asRef (p : Preamble) : Bytes := (p.header.bytes ++ p.payloadLength.raw).take p.len

/-- `Chain<Cursor<Preamble>, Bytes>`: what is left of a frame behind the bytes already taken. -/
structure OutgoingFrame where
  preamble : Preamble
  position : Nat
  payload : Bytes
  deriving DecidableEq, Repr

namespace OutgoingFrame

def newWithPayload (preamble : Preamble) (payload : Bytes) : OutgoingFrame := ⟨preamble, 0, payload⟩

def new (preamble : Preamble) : OutgoingFrame := newWithPayload preamble []

def header (f : OutgoingFrame) : Header := f.preamble.header

def segment (f : OutgoingFrame) : Bytes := f.payload

def remaining (f : OutgoingFrame) : Nat := f.preamble.len - f.position + f.payload.length

def advance (f : OutgoingFrame) (cnt : Nat) : OutgoingFrame :=
  if cnt ≤ f.preamble.len - f.position then { f with position := f.position + cnt }
  else { f with position := f.preamble.len, payload := f.payload.drop (cnt -
    (f.preamble.len - f.position)) }

/-- The bytes of the frame that have not been taken yet. -/
def bytes (f : OutgoingFrame) : Bytes := f.preamble.asRef.drop f.position ++ f.payload

end OutgoingFrame

namespace OutgoingMessage

def new (header : Header) (payload : Option Bytes) : OutgoingMessage := ⟨header, payload⟩

def isMultiFrame (msg : OutgoingMessage) (m : MaxFrameSize) : Bool :=
  match msg.payload with
  | some payload => payloadIsMultiFrame m payload.length
  | none => false

def payloadLen (msg : OutgoingMessage) : Nat := (msg.payload.getD []).length

def nonHeaderLen (msg : OutgoingMessage) : Nat :=
  match msg.payload with
  | some pl => Varint32.lengthOf (UInt32.ofNat pl.length) + pl.length
  | none => 0

def numFrames (msg : OutgoingMessage) (m : MaxFrameSize) : Nat :=
  let usableSize := m.withoutHeader
  let numFrames := (msg.nonHeaderLen + usableSize - 1) / usableSize
  if numFrames = 0 then 1 else numFrames

def totalLen (msg : OutgoingMessage) (m : MaxFrameSize) : Nat :=
  msg.numFrames m * Header.size + msg.nonHeaderLen

def truncateToSingleFrame (msg : OutgoingMessage) (m : MaxFrameSize) : OutgoingMessage :=
  if msg.isMultiFrame m then
    { msg with
      payload := msg.payload.map fun pl => pl.take (m.withoutPreamble (UInt32.ofNat pl.length)) }
  else msg

end OutgoingMessage

/-- An iterator over the frames of a message that has handed out `bytesProcessed` payload bytes. -/
@[ext]
structure FrameIter where
  msg : OutgoingMessage
  bytesProcessed : Nat
  le : bytesProcessed ≤ msg.payloadLen
  deriving DecidableEq, Repr

def OutgoingMessage.frames (msg : OutgoingMessage) : FrameIter := ⟨msg, 0, Nat.zero_le _⟩

namespace FrameIter

def header (it : FrameIter) : Header := it.msg.header

def lengthPrefix (it : FrameIter) (payload : Bytes) : Varint32 :=
  if it.bytesProcessed = 0 then Varint32.encode (UInt32.ofNat (payload.length - it.bytesProcessed))
  else Varint32.sentinel

/-- How many payload bytes the next frame takes. -/
def framePayloadLen (it : FrameIter) (m : MaxFrameSize) (payload : Bytes) : Nat :=
  min (m.get - (Preamble.mk it.header (it.lengthPrefix payload)).len)
    (payload.length - it.bytesProcessed)

theorem advance_le (it : FrameIter) (m : MaxFrameSize) {payload : Bytes}
    (h : it.msg.payload = some payload) :
    it.bytesProcessed + it.framePayloadLen m payload ≤ it.msg.payloadLen := by
  have hle := it.le
  simp only [OutgoingMessage.payloadLen, h, Option.getD_some] at hle ⊢
  simp only [framePayloadLen]
  omega

def nextOwned (it : FrameIter) (m : MaxFrameSize) : OutgoingFrame × Option FrameIter :=
  match h : it.msg.payload with
  | some payload =>
    let taken := it.framePayloadLen m payload
    let framePayload := (payload.drop it.bytesProcessed).take taken
    let frame := OutgoingFrame.newWithPayload ⟨it.header, it.lengthPrefix payload⟩ framePayload
    if 0 < payload.length - (it.bytesProcessed + taken) then
      (frame, some ⟨it.msg, it.bytesProcessed + taken, it.advance_le m h⟩)
    else (frame, none)
  | none => (OutgoingFrame.new ⟨it.header, Varint32.sentinel⟩, none)

end FrameIter

/-- Byte-wise message iterator. -/
structure ByteIter where
  msg : OutgoingMessage
  lengthPrefix : Varint32
  consumed : Nat
  maxFrameSize : MaxFrameSize

def OutgoingMessage.iterBytes (msg : OutgoingMessage) (m : MaxFrameSize) : ByteIter :=
  let lengthPrefix := match msg.payload with
    | some pl => Varint32.encode (UInt32.ofNat pl.length)
    | none => Varint32.sentinel
  ⟨msg, lengthPrefix, 0, m⟩

namespace ByteIter

def total (b : ByteIter) : Nat := b.msg.totalLen b.maxFrameSize

def remaining (b : ByteIter) : Nat := b.total - b.consumed

def chunk (b : ByteIter) : Bytes :=
  if b.remaining = 0 then []
  else
    let framesCompleted := b.consumed / b.maxFrameSize.get
    let frameProgress := b.consumed % b.maxFrameSize.get
    if frameProgress < Header.size then b.msg.header.bytes.drop frameProgress
    else if framesCompleted = 0 ∧ frameProgress < Header.size + b.lengthPrefix.len then
      b.lengthPrefix.asRef.drop (frameProgress - Header.size)
    else
      let spaceInFrame := b.maxFrameSize.withoutHeader
      let firstPreamble := Header.size + b.lengthPrefix.len
      let (start, progress, stop) :=
        if framesCompleted = 0 then
          (0, frameProgress - firstPreamble, b.maxFrameSize.get - firstPreamble)
        else
          let start := framesCompleted * spaceInFrame - b.lengthPrefix.len
          (start, frameProgress - Header.size, start + spaceInFrame)
      let pl := b.msg.payload.getD []
      ((pl.take (min stop pl.length)).drop start).drop progress

def advance (b : ByteIter) (cnt : Nat) : ByteIter :=
  { b with consumed := min (b.consumed + cnt) b.total }

/-- `copy_to_bytes`: take whole chunks until nothing remains. -/
def copyToBytes : Nat → ByteIter → Bytes
  | 0, _ => []
  | fuel + 1, b =>
    if b.remaining = 0 then [] else b.chunk ++ copyToBytes fuel (b.advance b.chunk.length)

end ByteIter

def OutgoingMessage.toBytes (msg : OutgoingMessage) (m : MaxFrameSize) : Bytes :=
  let everything := msg.iterBytes m
  everything.copyToBytes everything.remaining

end Juliet
