import Juliet.ProtocolRuns

namespace Juliet

open Rust

/-- The arithmetic on `usize` of a target. -/
structure UsizeArith where
  add : Nat → Nat → Checked Nat
  sub : Nat → Nat → Checked Nat

/-- A target of 32 bits in release mode. -/
def wrapping32 : UsizeArith where
  add a b := .ok ((a + b) % 2 ^ 32)
  sub a b := .ok ((a + (2 ^ 32 - b % 2 ^ 32)) % 2 ^ 32)

/-- A target of 32 bits with overflow checks: it returns only if all results are exact. -/
def checked32 : UsizeArith where
  add a b := if a + b < 2 ^ 32 then .ok (a + b) else .error .overflow
  sub a b := checkedSub a b

/-- `detect_starting_segment` with the arithmetic of a target. -/
def detectStartingSegmentIn (A : UsizeArith) (header : Header) (buffer : Bytes)
    (maxFrameSize : MaxFrameSize) (maxPayloadSize : Nat) (payloadExceededErrorKind : ErrorKind) :
    Checked (Outcome InitialFrameData OutgoingMessage) := do
  let segmentBuf ← slice buffer Header.size buffer.length
  match ← decodeVarint32 segmentBuf with
  | .incomplete n => return .incomplete n
  | .fatal _ => return errMsg header .badVarInt
  | .success payloadSize =>
    if payloadSize.value > maxPayloadSize then
      return errMsg header payloadExceededErrorKind
    let preambleLen ← A.add Header.size payloadSize.offset
    let maxDataInFrame ← A.sub maxFrameSize.get preambleLen
    let segmentLen := min maxDataInFrame payloadSize.value
    let frameEnd ← A.add preambleLen segmentLen
    if buffer.length < frameEnd then
      return ← Outcome.needs (← A.sub frameEnd buffer.length)
    return .success ⟨preambleLen, segmentLen, payloadSize.value⟩

/-- `extract_segment` with the arithmetic of a target. -/
def extractSegmentIn (A : UsizeArith) (incoming storedPayload : Bytes) (totalPayloadSize : Nat)
    (maxFrameSize : MaxFrameSize) : Checked (Outcome Bool OutgoingMessage × Bytes × Bytes) := do
  let bytesRemaining ← A.sub totalPayloadSize storedPayload.length
  let withoutHeader ← A.sub maxFrameSize.get Header.size
  let segmentSize := min bytesRemaining withoutHeader
  let frameEnd ← A.add segmentSize Header.size
  if incoming.length < frameEnd then
    return (← Outcome.needs (← A.sub frameEnd incoming.length), storedPayload, incoming)
  let incoming ← advance incoming Header.size
  let segment ← slice incoming 0 segmentSize
  let storedPayload := storedPayload ++ segment
  let incoming ← advance incoming segmentSize
  return (.success (storedPayload.length == totalPayloadSize), storedPayload, incoming)

/-- `MultiframeReceiver::accept` over these. -/
def MultiframeReceiver.acceptIn (A : UsizeArith) (self : MultiframeReceiver) (header : Header)
    (buffer : Bytes) (maxFrameSize : MaxFrameSize) (maxPayloadSize : Nat)
    (payloadExceededErrorKind : ErrorKind) :
    Checked (Outcome CompletedFrame OutgoingMessage × MultiframeReceiver × Bytes) :=
  match self with
  | .ready => do
    match ← detectStartingSegmentIn A header buffer maxFrameSize maxPayloadSize
      payloadExceededErrorKind with
    | .incomplete n => return (.incomplete n, self, buffer)
    | .fatal err => return (.fatal err, self, buffer)
    | .success frameData =>
      let buffer ← advance buffer frameData.preambleLen
      let (segment, buffer) ← splitTo buffer frameData.segmentLen
      if ← frameData.isComplete then
        return (.success (.singleFrame segment), self, buffer)
      else
        return (.success .newMultiFrame, .inProgress header segment frameData.payloadSize, buffer)
  | .inProgress activeHeader payload totalPayloadSize => do
    if header ≠ activeHeader then
      match ← detectStartingSegmentIn A header buffer maxFrameSize maxPayloadSize
        payloadExceededErrorKind with
      | .incomplete n => return (.incomplete n, self, buffer)
      | .fatal err => return (.fatal err, self, buffer)
      | .success frameData =>
        if ← frameData.isComplete then
          let buffer ← advance buffer frameData.preambleLen
          let (segment, buffer) ← splitTo buffer frameData.segmentLen
          return (.success (.singleFrame segment), self, buffer)
        else
          return (errMsg header .inProgress, self, buffer)
    else
      match ← extractSegmentIn A buffer payload totalPayloadSize maxFrameSize with
      | (.incomplete n, payload, buffer) =>
        return (.incomplete n, .inProgress activeHeader payload totalPayloadSize, buffer)
      | (.fatal err, payload, buffer) =>
        return (.fatal err, .inProgress activeHeader payload totalPayloadSize, buffer)
      | (.success true, payload, buffer) =>
        return (.success (.completedMultiFrame payload), .ready, buffer)
      | (.success false, payload, buffer) =>
        return (.success .intermediateMultiFrame, .inProgress activeHeader payload totalPayloadSize,
          buffer)

namespace Channel

/-- The arms of the frame kind `match` over these. -/
def processKindIn (A : UsizeArith) (self : Channel) (maxFrameSize : MaxFrameSize) (kind : Kind)
    (header : Header) (buffer : Bytes) : Checked (Option ReadOutcome × Channel × Bytes) :=
  match kind with
  | .requestPl => do
    let (outcome, receiver, buffer) ← self.currentMultiframeReceiver.acceptIn A
        header buffer maxFrameSize
      self.config.maxRequestPayloadSize.toNat .requestTooLarge
    let self := { self with currentMultiframeReceiver := receiver }
    match outcome with
    | .incomplete n => return (some (.incomplete n), self, buffer)
    | .fatal err => return (some (.fatal err), self, buffer)
    | .success completedFrame =>
      let (outcome, self) := self.recordRequestPl header completedFrame
      return (outcome, self, buffer)
  | .responsePl =>
    if header.id ∉ self.outgoingRequests then
      .ok (some (errMsg header .fictitiousRequest), self, buffer)
    else do
      let (outcome, receiver, buffer) ← self.currentMultiframeReceiver.acceptIn A
          header buffer maxFrameSize
        self.config.maxResponsePayloadSize.toNat .responseTooLarge
      let self := { self with currentMultiframeReceiver := receiver }
      match outcome with
      | .incomplete n => return (some (.incomplete n), self, buffer)
      | .fatal err => return (some (.fatal err), self, buffer)
      | .success completedFrame =>
        let (outcome, self) := self.recordResponsePl header completedFrame
        return (outcome, self, buffer)
  | .request => self.processRequest header buffer
  | .response => self.processResponse header buffer
  | .cancelReq => self.processCancelReq header buffer
  | .cancelResp => self.processCancelResp header buffer

end Channel

namespace JulietProtocol

variable {N : Nat}

/-- The handling of an error header with the arithmetic of a target. -/
def processErrorIn (A : UsizeArith) (maxFrameSize : MaxFrameSize) (header : Header)
    (buffer : Bytes) :
    Checked (ReadOutcome × Bytes) := do
  match ← header.errorKind with
  | .other =>
    let tail ← slice buffer Header.size buffer.length
    match ← decodeVarint32 tail with
    | .incomplete n => return (.incomplete n, buffer)
    | .fatal _ => return (errMsg header .badVarInt, buffer)
    | .success parsedLength =>
      let preambleEnd ← A.add Header.size parsedLength.offset
      let payloadLength := parsedLength.value
      let frameEnd ← A.add preambleEnd payloadLength
      if frameEnd > maxFrameSize.get then
        return (errMsg header .segmentViolation, buffer)
      if buffer.length < frameEnd then
        return (← Outcome.needs (← A.sub frameEnd buffer.length), buffer)
      let buffer ← advance buffer preambleEnd
      let (payload, buffer) ← splitTo buffer payloadLength
      return (.success (.errorReceived header (some payload)), buffer)
  | _ =>
    let buffer ← advance buffer Header.size
    return (.success (.errorReceived header none), buffer)

def processHeaderIn (A : UsizeArith) (self : JulietProtocol N) (header : Header) (buffer : Bytes) :
    Checked (Option ReadOutcome × JulietProtocol N × Bytes) :=
  if header.isError then do
    let (outcome, buffer) ← processErrorIn A self.maxFrameSize header buffer
    return (some outcome, self, buffer)
  else if h : header.channel.get.toNat < N then do
    let i : Fin N := ⟨header.channel.get.toNat, h⟩
    let kind ← header.kind
    let (outcome, chan, buffer) ← (self.channels i).processKindIn A
        self.maxFrameSize kind header buffer
    return (outcome, self.setChannel i chan, buffer)
  else .ok (some (errMsg header .invalidChannel), self, buffer)

/-- One iteration of the loop of `process_incoming` with the arithmetic of a target. -/
def processFrameIn (A : UsizeArith) (self : JulietProtocol N) (buffer : Bytes) :
    Checked (Option ReadOutcome × JulietProtocol N × Bytes) :=
  match buffer with
  | b0 :: b1 :: b2 :: b3 :: _ =>
    match Header.parse (b0, b1, b2, b3) with
    | none =>
      .ok (some (.fatal (OutgoingMessage.new
        (Header.newError .invalidHeader unknownChannel unknownId) none)), self, buffer)
    | some header => self.processHeaderIn A header buffer
  | _ => do
    let missing ← A.sub Header.size buffer.length
    return (some (← Outcome.needs missing), self, buffer)

def processLoopIn (A : UsizeArith) :
    Nat → JulietProtocol N → Bytes → Checked (ReadOutcome × JulietProtocol N × Bytes)
  | 0, _, _ => .error .diverges
  | fuel + 1, self, buffer => do
    match ← self.processFrameIn A buffer with
    | (some outcome, self, buffer) => return (outcome, self, buffer)
    | (none, self, buffer) => processLoopIn A fuel self buffer

/-- `process_incoming` on a target. -/
def processIncomingIn (A : UsizeArith) (self : JulietProtocol N) (buffer : Bytes) :
    Checked (ReadOutcome × JulietProtocol N × Bytes) :=
  processLoopIn A (buffer.length + 1) self buffer

end JulietProtocol

/-- The arithmetic is exact as long as nothing leaves 32 bits. -/
structure UsizeArith.Agrees (A : UsizeArith) : Prop where
  add : ∀ {a b : Nat}, a + b < 2 ^ 32 → A.add a b = .ok (a + b)
  sub : ∀ {a b : Nat}, b ≤ a → a < 2 ^ 32 → A.sub a b = .ok (a - b)

theorem wrapping32_agrees : wrapping32.Agrees where
  add h := congrArg Except.ok (Nat.mod_eq_of_lt h)
  sub {a b} hb ha := by
    have he : a + (2 ^ 32 - b % 2 ^ 32) = (a - b) + 2 ^ 32 := by
      rw [Nat.mod_eq_of_lt (by omega : b < 2 ^ 32)]
      omega
    simp only [wrapping32, he, Nat.add_mod_right, Nat.mod_eq_of_lt (by omega : a - b < 2 ^ 32)]

theorem checked32_agrees : checked32.Agrees where
  add h := if_pos h
  sub hb _ := checkedSub_of_le hb

section Exact

variable {A : UsizeArith}

/-- The length of a start frame is bounded before it is added up. -/
theorem detectStartingSegmentIn_of (hA : A.Agrees) (header : Header) (buffer : Bytes)
    (m : MaxFrameSize) (max : Nat) (kind : ErrorKind) :
    detectStartingSegmentIn A header buffer m max kind =
      detectStartingSegment header buffer m max kind := by
  have hm := m.lt
  have hmin : 10 ≤ m.get := m.min_le
  unfold detectStartingSegmentIn detectStartingSegment
  cases slice buffer Header.size buffer.length with
  | error p => rfl
  | ok segmentBuf =>
    simp only [bind_ok]
    obtain ⟨r, hr, hs⟩ := decodeVarint32_spec segmentBuf
    simp only [hr, bind_ok]
    cases hs with
    | incomplete n _ _ => rfl
    | fatal _ => rfl
    | success p hpos hle _ hv =>
      have hsize : Header.size = 4 := rfl
      have hlen : Header.size + p.offset ≤ m.get := by omega
      have hend : Header.size + p.offset + min (m.get - (Header.size + p.offset)) p.value <
          2 ^ 32 := by omega
      simp only [hA.add (by omega : Header.size + p.offset < 2 ^ 32), hA.sub hlen hm, hA.add hend,
        checkedSub_of_le hlen, bind_ok]
      split
      next => rfl
      next =>
        split
        next hshort => rw [hA.sub hshort.le hend, checkedSub_of_le hshort.le]
        next => rfl

/-- The rest of a transfer is bounded by a frame before it is added up. -/
theorem extractSegmentIn_of (hA : A.Agrees) (incoming : Bytes) {stored : Bytes} {total : Nat}
    (hs : stored.length ≤ total) (ht : total < 2 ^ 32) (m : MaxFrameSize) :
    extractSegmentIn A incoming stored total m = extractSegment incoming stored total m := by
  have hm := m.lt
  have hmin : 10 ≤ m.get := m.min_le
  have hsize : Header.size = 4 := rfl
  have hle : Header.size ≤ m.get := by omega
  have hwithout : A.sub m.get Header.size = .ok m.withoutHeader := hA.sub hle hm
  have hend : min (total - stored.length) m.withoutHeader + Header.size < 2 ^ 32 := by
    unfold MaxFrameSize.withoutHeader
    omega
  simp only [extractSegmentIn, extractSegment, hA.sub hs ht, hwithout, hA.add hend,
    checkedSub_of_le hs, bind_ok]
  by_cases hshort : incoming.length < min (total - stored.length) m.withoutHeader + Header.size
  · simp only [if_pos hshort, hA.sub hshort.le hend, checkedSub_of_le hshort.le]
  · simp only [if_neg hshort]

theorem MultiframeReceiver.acceptIn_of (hA : A.Agrees) {self : MultiframeReceiver}
    (ho : ∀ h p t, self = .inProgress h p t → p.length < t ∧ t < 2 ^ 32) (header : Header)
    (buffer : Bytes) (m : MaxFrameSize) (max : Nat) (kind : ErrorKind) :
    self.acceptIn A header buffer m max kind = self.accept header buffer m max kind := by
  cases self with
  | ready =>
    exact congrArg (· >>= _) (detectStartingSegmentIn_of hA header buffer m max kind)
  | inProgress activeHeader payload total =>
    obtain ⟨hlt, ht⟩ := ho activeHeader payload total rfl
    simp only [acceptIn, accept]
    by_cases hne : header ≠ activeHeader
    · rw [if_pos hne, if_pos hne]
      exact congrArg (· >>= _) (detectStartingSegmentIn_of hA header buffer m max kind)
    · rw [if_neg hne, if_neg hne]
      exact congrArg (· >>= _) (extractSegmentIn_of hA buffer hlt.le ht m)

theorem Channel.processKindIn_of (hA : A.Agrees) {self : Channel} {i : Nat} (hv : self.Valid i)
    (m : MaxFrameSize) (kind : Kind) (header : Header) (buffer : Bytes) :
    self.processKindIn A m kind header buffer = self.processKind m kind header buffer := by
  have ho : ∀ h p t, self.currentMultiframeReceiver = .inProgress h p t →
      p.length < t ∧ t < 2 ^ 32 := by
    intro h p t hr
    obtain ⟨_, _, hlt, hk⟩ := hv.transfer hr
    have hreq := self.config.maxRequestPayloadSize.toNat_lt
    have hresp := self.config.maxResponsePayloadSize.toNat_lt
    exact ⟨hlt, by omega⟩
  cases kind with
  | requestPl =>
    exact congrArg (· >>= _) (MultiframeReceiver.acceptIn_of hA ho header buffer m _ _)
  | responsePl =>
    simp only [processKindIn, processKind, processResponsePl]
    by_cases hid : header.id ∉ self.outgoingRequests
    · rw [if_pos hid, if_pos hid]
    · rw [if_neg hid, if_neg hid]
      exact congrArg (· >>= _) (MultiframeReceiver.acceptIn_of hA ho header buffer m _ _)
  | _ => rfl

end Exact

namespace JulietProtocol

variable {N : Nat} {A : UsizeArith}

/-- The buffer starts with an error frame of kind `Other` whose announced end is beyond 32 bits. -/
def AnnouncesTooMuch (buffer : Bytes) : Prop :=
  ∃ header parsed, frontHeader buffer = some header ∧ header.isError = true ∧
    header.errorKind = .ok .other ∧
    decodeVarint32 (buffer.drop Header.size) = .ok (.success parsed) ∧
    2 ^ 32 ≤ Header.size + parsed.offset + parsed.value

theorem processErrorIn_of (hA : A.Agrees) {header : Header} {buffer : Bytes} (m : MaxFrameSize)
    (hf : frontHeader buffer = some header) (he : header.isError = true)
    (hn : ¬ AnnouncesTooMuch buffer) :
    processErrorIn A m header buffer = processError m header buffer := by
  have hb := frontHeader_length hf
  unfold processErrorIn processError
  cases hk : header.errorKind with
  | error p => rfl
  | ok kind =>
    simp only [bind_ok]
    by_cases hother : kind = .other
    case neg =>
      cases kind with
      | other => exact absurd rfl hother
      | _ => rfl
    subst hother
    simp only [slice_header hb, bind_ok]
    obtain ⟨r, hr, hs⟩ := decodeVarint32_spec (buffer.drop 4)
    simp only [hr, bind_ok]
    cases hs with
    | incomplete n _ _ => rfl
    | fatal _ => rfl
    | success p hpos hle _ hv =>
      have hsize : Header.size = 4 := rfl
      have hend : Header.size + p.offset + p.value < 2 ^ 32 := by
        by_contra hge
        exact hn ⟨header, p, hf, he, hk, hr, by omega⟩
      simp only [hA.add (by omega : Header.size + p.offset < 2 ^ 32), hA.add hend, bind_ok]
      by_cases hshort : buffer.length < Header.size + p.offset + p.value
      · simp only [if_pos hshort, hA.sub hshort.le hend, checkedSub_of_le hshort.le]
      · simp only [if_neg hshort]

theorem processHeaderIn_of (hA : A.Agrees) {self : JulietProtocol N} (hv : self.Valid)
    {header : Header} {buffer : Bytes} (hf : frontHeader buffer = some header)
    (hn : ¬ AnnouncesTooMuch buffer) :
    self.processHeaderIn A header buffer = self.processHeader header buffer := by
  unfold processHeaderIn processHeader
  by_cases he : header.isError = true
  · rw [if_pos he, if_pos he, processErrorIn_of hA _ hf he hn]
  · rw [if_neg he, if_neg he]
    split
    next h => simp only [Channel.processKindIn_of hA (hv ⟨_, h⟩)]
    next => rfl

/-- Unless it starts with such a frame, a buffer is processed with exact arithmetic. -/
theorem processFrameIn_of (hA : A.Agrees) {self : JulietProtocol N} (hv : self.Valid)
    {buffer : Bytes} (hn : ¬ AnnouncesTooMuch buffer) :
    self.processFrameIn A buffer = self.processFrame buffer := by
  have hsub : ∀ {k : Nat}, k ≤ Header.size → A.sub Header.size k = checkedSub Header.size k := by
    intro k hk
    rw [hA.sub hk (by simp [Header.size]), checkedSub_of_le hk]
  match hbuf : buffer with
  | [] | [_] | [_, _] | [_, _, _] =>
    have hlen : buffer.length ≤ Header.size := by simp [hbuf, Header.size]
    rw [hbuf] at hlen
    simp only [processFrameIn, processFrame, hsub hlen]
  | b0 :: b1 :: b2 :: b3 :: tail =>
    simp only [processFrameIn, processFrame]
    cases hp : Header.parse (b0, b1, b2, b3) with
    | none => rfl
    | some header => exact processHeaderIn_of hA hv hp hn

theorem processFrameIn_front (self : JulietProtocol N) {header : Header} {buffer : Bytes}
    (hf : frontHeader buffer = some header) :
    self.processFrameIn A buffer = self.processHeaderIn A header buffer := by
  unfold frontHeader at hf
  split at hf
  next => simp only [processFrameIn, hf]
  next => simp at hf

/-- With overflow checks such a frame is not processed at all. -/
theorem processFrameIn_overflow {self : JulietProtocol N} {buffer : Bytes}
    (h : AnnouncesTooMuch buffer) :
    self.processFrameIn checked32 buffer = .error .overflow := by
  obtain ⟨header, p, hf, he, hk, hd, hge⟩ := h
  have hb := frontHeader_length hf
  have hd' : decodeVarint32 (buffer.drop 4) = .ok (.success p) := hd
  have hover : checked32.add (Header.size + p.offset) p.value = .error .overflow :=
    if_neg (by omega)
  have hpre : checked32.add Header.size p.offset = .ok (Header.size + p.offset) := by
    obtain ⟨r, hr, hs⟩ := decodeVarint32_spec (buffer.drop 4)
    obtain rfl := Except.ok.inj (hd'.symm.trans hr)
    cases hs with
    | success _ _ hle _ _ =>
      have hsize : Header.size = 4 := rfl
      exact checked32_agrees.add (by omega)
  have herror : processErrorIn checked32 self.maxFrameSize header buffer = .error .overflow := by
    simp only [processErrorIn, hk, bind_ok, slice_header hb, hd', hpre, hover, bind_error]
  rw [processFrameIn_front self hf, processHeaderIn, if_pos he, herror, bind_error]

/-- An error frame leaves the channels alone, whatever the arithmetic. -/
theorem processFrameIn_error {self s : JulietProtocol N} {buffer b : Bytes} {o : Option ReadOutcome}
    (h : AnnouncesTooMuch buffer) (hp : self.processFrameIn A buffer = .ok (o, s, b)) :
    s = self ∧ o ≠ none := by
  obtain ⟨header, p, hf, he, _⟩ := h
  rw [processFrameIn_front self hf, processHeaderIn, if_pos he] at hp
  obtain ⟨⟨outcome, rest⟩, _, hp⟩ := bind_eq_ok.mp hp
  obtain ⟨rfl, rfl, rfl⟩ := ok_triple hp
  exact ⟨rfl, by simp⟩

theorem Iterates.head {self s s' : JulietProtocol N} {buffer b b' : Bytes}
    (hp : self.processFrame buffer = .ok (none, s, b)) (h : Iterates s b s' b') :
    Iterates self buffer s' b' := by
  induction h with
  | start => exact .next .start hp
  | next _ hn ih => exact .next ih hn

theorem processLoopIn_of (hA : A.Agrees) {self : JulietProtocol N} (hv : self.Valid)
    {buffer : Bytes} (fuel : Nat) (hn : ∀ {s b}, Iterates self buffer s b → ¬ AnnouncesTooMuch b) :
    processLoopIn A fuel self buffer = processLoop fuel self buffer := by
  induction fuel generalizing self buffer with
  | zero => rfl
  | succ fuel ih =>
    simp only [processLoopIn, processLoop, processFrameIn_of hA hv (hn .start)]
    cases hp : self.processFrame buffer with
    | error p => rfl
    | ok r =>
      obtain ⟨o, s, b⟩ := r
      cases o with
      | some outcome => rfl
      | none => exact ih (processFrame_keeps hv hp) fun hi => hn (hi.head hp)

/-- A call with overflow checks that comes to such a frame does not return. -/
theorem processLoopIn_overflow {self s : JulietProtocol N} (hv : self.Valid) {buffer b : Bytes}
    (hi : Iterates self buffer s b) (h : AnnouncesTooMuch b) (fuel : Nat) :
    ∀ r, processLoopIn checked32 fuel self buffer ≠ .ok r := by
  -- from the frame back to the start of the call, one iteration at a time
  suffices hback : (∀ fuel r, processLoopIn checked32 fuel s b ≠ .ok r) →
      ∀ fuel r, processLoopIn checked32 fuel self buffer ≠ .ok r by
    refine hback ?_ fuel
    intro fuel r
    cases fuel with
    | zero => simp [processLoopIn]
    | succ fuel => simp [processLoopIn, processFrameIn_overflow h]
  clear h
  induction hi with
  | start => exact fun hstuck => hstuck
  | @next s s' b b' hi hp ih =>
    intro hstuck
    refine ih ?_
    intro fuel r
    cases fuel with
    | zero => simp [processLoopIn]
    | succ fuel =>
      by_cases hmuch : AnnouncesTooMuch b
      · simp [processLoopIn, processFrameIn_overflow hmuch]
      · simp only [processLoopIn, processFrameIn_of checked32_agrees (hi.valid hv) hmuch,
          hp, bind_ok]
        exact hstuck fuel r

theorem Valid.processLoopIn (hA : A.Agrees) {self s : JulietProtocol N} (hv : self.Valid)
    {buffer b : Bytes} {o : ReadOutcome} {fuel : Nat}
    (h : processLoopIn A fuel self buffer = .ok (o, s, b)) : s.Valid := by
  induction fuel generalizing self buffer with
  | zero => simp [JulietProtocol.processLoopIn] at h
  | succ fuel ih =>
    obtain ⟨⟨outcome, s₁, b₁⟩, hp, h⟩ := bind_eq_ok.mp h
    have hkept : s₁.Valid := by
      by_cases hmuch : AnnouncesTooMuch buffer
      · rw [(processFrameIn_error hmuch hp).1]
        exact hv
      · rw [processFrameIn_of hA hv hmuch] at hp
        exact processFrame_keeps hv hp
    cases outcome with
    | some outcome =>
      obtain ⟨rfl, rfl, rfl⟩ := ok_triple h
      exact hkept
    | none => exact ih hkept h

/-- The protocol states that calls of the public functions lead to on a target of 32 bits. -/
inductive Reachable32 : JulietProtocol N → Prop
  | build (b : ProtocolBuilder N) : Reachable32 b.build
  | createRequest {p p' : JulietProtocol N} {channel : ChannelId} {payload : Option Bytes}
      {r : Except LocalProtocolViolation OutgoingMessage} : Reachable32 p →
      p.createRequest channel payload = .ok (r, p') → Reachable32 p'
  | createResponse {p : JulietProtocol N} (channel : ChannelId) (id : Id)
      (payload : Option Bytes) : Reachable32 p →
      Reachable32 (p.createResponse channel id payload).2
  | cancelRequest {p : JulietProtocol N} (channel : ChannelId) (id : Id) : Reachable32 p →
      Reachable32 (p.cancelRequest channel id).2
  | cancelResponse {p : JulietProtocol N} (channel : ChannelId) (id : Id) : Reachable32 p →
      Reachable32 (p.cancelResponse channel id).2
  | processIncoming {p p' : JulietProtocol N} {buffer buffer' : Bytes}
      {o : ReadOutcome} : Reachable32 p →
      p.processIncomingIn wrapping32 buffer = .ok (o, p', buffer') → Reachable32 p'

theorem Reachable32.valid {p : JulietProtocol N} (h : Reachable32 p) : p.Valid := by
  induction h with
  | build b => exact build_valid b
  | createRequest _ hc ih => exact ih.createRequest hc
  | createResponse channel id payload _ ih => exact ih.createResponse channel id payload
  | cancelRequest channel id _ ih =>
    rw [cancelRequest_state]
    exact ih
  | cancelResponse channel id _ ih => exact ih.cancelResponse channel id
  | processIncoming _ hp ih => exact ih.processLoopIn wrapping32_agrees hp

/-- On a target of 32 bits every sum of a call is the exact one, it stays within the buffer, and it
returns what it should. -/
def Exact32 (self : JulietProtocol N) (buffer : Bytes) : Prop :=
  ∃ r, self.processIncomingIn checked32 buffer = .ok r ∧
    self.processIncomingIn wrapping32 buffer = .ok r ∧
    self.processIncoming buffer = .ok r

/-- Calls are exact on a target of 32 bits unless they come to an error frame whose announced end is
beyond these. -/
theorem exact32_iff {self : JulietProtocol N} (h : Reachable32 self) (buffer : Bytes) :
    self.Exact32 buffer ↔ ∀ s b, Iterates self buffer s b → ¬ AnnouncesTooMuch b := by
  have hv := h.valid
  constructor
  · rintro ⟨r, hchecked, _, _⟩ s b hi hmuch
    exact processLoopIn_overflow hv hi hmuch _ r hchecked
  · intro hn
    obtain ⟨o, s, b, hr, _⟩ := processIncoming_spec hv buffer
    refine ⟨(o, s, b), ?_, ?_, hr⟩
    · rw [← hr]
      exact processLoopIn_of checked32_agrees hv _ (hn _ _)
    · rw [← hr]
      exact processLoopIn_of wrapping32_agrees hv _ (hn _ _)

/-- An error with one byte of data, as it is sent. -/
theorem exact32_iff_error :
    Reachable32 smallBuilder.build ∧ smallBuilder.build.Exact32 [0x80, 0, 0, 0, 1, 7] ∧
      ∀ s b, Iterates smallBuilder.build [0x80, 0, 0, 0, 1, 7] s b → ¬ AnnouncesTooMuch b := by
  have hreach : Reachable32 smallBuilder.build := .build smallBuilder
  have hexact : smallBuilder.build.Exact32 [0x80, 0, 0, 0, 1, 7] := ⟨_, rfl, rfl, rfl⟩
  exact ⟨hreach, hexact, (exact32_iff hreach _).mp hexact⟩

/-- A length of `u32::MAX` in front of no data at all: the sum wraps around to 8, which is within
the frame and the buffer, and more is split off than there is. -/
theorem error_length_wraps :
    Reachable32 smallBuilder.build ∧
      smallBuilder.build.processIncomingIn wrapping32 [0x80, 0, 0, 0, 0xff, 0xff, 0xff, 0xff,
        0x0f] = .error .outOfRange ∧
      (∃ header, smallBuilder.build.processIncoming [0x80, 0, 0, 0, 0xff, 0xff, 0xff, 0xff, 0x0f] =
        .ok (errMsg header .segmentViolation, smallBuilder.build, [0x80, 0, 0, 0, 0xff, 0xff,
          0xff, 0xff, 0x0f])) ∧
      ¬ smallBuilder.build.Exact32 [0x80, 0, 0, 0, 0xff, 0xff, 0xff, 0xff, 0x0f] := by
  have hwrap : smallBuilder.build.processIncomingIn wrapping32 [0x80, 0, 0, 0, 0xff,
      0xff, 0xff, 0xff, 0x0f] =
      .error .outOfRange := rfl
  refine ⟨.build smallBuilder, hwrap, ⟨⟨0x80, 0, 0, 0⟩, rfl⟩, ?_⟩
  rintro ⟨r, _, h, _⟩
  rw [hwrap] at h
  simp at h

end JulietProtocol

end Juliet
