import Juliet.ChunkedInput

namespace Juliet

open Rust Incremental

/-- All orders in which two lists can be merged. -/
inductive Interleaved {α : Type} : List α → List α → List α → Prop
  | nil : Interleaved [] [] []
  | left {x : α} {xs ys zs : List α} : Interleaved xs ys zs → Interleaved (x :: xs) ys (x :: zs)
  | right {y : α} {xs ys zs : List α} : Interleaved xs ys zs → Interleaved xs (y :: ys) (y :: zs)

def CompletedRead.channel : CompletedRead → ChannelId
  | .errorReceived header _ => header.channel
  | .newRequest channel _ _ => channel
  | .receivedResponse channel _ _ => channel
  | .requestCancellation channel _ => channel
  | .responseCancellation channel _ => channel

/-- The public calls that change a protocol, other than `process_incoming`. -/
inductive LocalCall
  | createRequest (channel : ChannelId) (payload : Option Bytes)
  | createResponse (channel : ChannelId) (id : Id) (payload : Option Bytes)
  | cancelRequest (channel : ChannelId) (id : Id)
  | cancelResponse (channel : ChannelId) (id : Id)

def LocalCall.channel : LocalCall → ChannelId
  | .createRequest channel _ => channel
  | .createResponse channel _ _ => channel
  | .cancelRequest channel _ => channel
  | .cancelResponse channel _ => channel

/-- What a protocol is given to do: a frame that arrives, or a local call. -/
inductive Input
  | frame (bytes : Bytes)
  | call (call : LocalCall)

def Input.channel : Input → Option ChannelId
  | .frame bytes => (JulietProtocol.frontHeader bytes).map Header.channel
  | .call c => some c.channel

def Stopped.result {N : Nat} : Stopped N → Except OutgoingMessage (JulietProtocol N × Bytes)
  | .fatal err => .error err
  | .waiting _ protocol buffer => .ok (protocol, buffer)

namespace JulietProtocol

variable {N : Nat}

def perform (self : JulietProtocol N) : LocalCall → Checked (JulietProtocol N)
  | .createRequest channel payload => (self.createRequest channel payload).map Prod.snd
  | .createResponse channel id payload => .ok (self.createResponse channel id payload).2
  | .cancelRequest channel id => .ok (self.cancelRequest channel id).2
  | .cancelResponse channel id => .ok (self.cancelResponse channel id).2

/-- Goes through the inputs in order; frames are received as they arrive, behind what was left over.
Collects the reads, up to the end or to the error for the peer. -/
def serve (self : JulietProtocol N) (buffer : Bytes) :
    List Input → Checked (List CompletedRead × Except OutgoingMessage (JulietProtocol N × Bytes))
  | [] => .ok ([], .ok (self, buffer))
  | .frame bytes :: inputs => do
    match ← self.receive (buffer ++ bytes) with
    | (reads, .fatal err) => return (reads, .error err)
    | (reads, .waiting _ self buffer) =>
      let (more, result) ← serve self buffer inputs
      return (reads ++ more, result)
  | .call call :: inputs => do
    let self ← self.perform call
    serve self buffer inputs

/-- Frames of any kind but error, each of them complete when its turn comes: there is enough of it
for an iteration of `process_incoming`, which takes all of it unless it refuses it. -/
def Complete (self : JulietProtocol N) : List Input → Prop
  | [] => True
  | .frame bytes :: inputs =>
    (∃ header, frontHeader bytes = some header ∧ header.isError = false) ∧
    ∃ o s b, self.processFrame bytes = .ok (o, s, b) ∧
      ((∃ err, o = some (.fatal err)) ∨ Progress o ∧ b = [] ∧ Complete s inputs)
  | .call call :: inputs => ∀ s, self.perform call = .ok s → Complete s inputs

/-- Two protocols that cannot be told apart by their channels in `S`. -/
structure AgreeOn (S : Set (Fin N)) (p q : JulietProtocol N) : Prop where
  maxFrameSize : p.maxFrameSize = q.maxFrameSize
  channels : ∀ i ∈ S, p.channels i = q.channels i

namespace AgreeOn

variable {S : Set (Fin N)} {p q r : JulietProtocol N}

theorem refl (S : Set (Fin N)) (p : JulietProtocol N) : AgreeOn S p p := ⟨rfl, fun _ _ => rfl⟩

theorem symm (h : AgreeOn S p q) : AgreeOn S q p :=
  ⟨h.maxFrameSize.symm, fun i hi => (h.channels i hi).symm⟩

theorem trans (h : AgreeOn S p q) (h' : AgreeOn S q r) : AgreeOn S p r :=
  ⟨h.maxFrameSize.trans h'.maxFrameSize, fun i hi => (h.channels i hi).trans (h'.channels i hi)⟩

theorem setChannel (h : AgreeOn S p q) (i : Fin N) (chan : Channel) :
    AgreeOn S (p.setChannel i chan) (q.setChannel i chan) := by
  refine ⟨h.maxFrameSize, ?_⟩
  intro j hj
  by_cases hij : j = i
  · subst hij
    simp
  · simpa [hij] using h.channels j hj

theorem setChannel_outside {i : Fin N} (hi : i ∈ S) (p : JulietProtocol N) (chan : Channel) :
    AgreeOn Sᶜ p (p.setChannel i chan) := by
  refine ⟨rfl, ?_⟩
  intro j hj
  rw [setChannel_of_ne]
  rintro rfl
  exact hj hi

end AgreeOn

theorem processFrame_of_frontHeader {bytes : Bytes} {header : Header}
    (hf : frontHeader bytes = some header) (self : JulietProtocol N) :
    self.processFrame bytes = self.processHeader header bytes := by
  unfold frontHeader at hf
  split at hf
  next => simp only [processFrame, hf]
  next => simp at hf

/-- A frame is handled by its channel alone. -/
theorem processFrame_local {S : Set (Fin N)} {p q s : JulietProtocol N} {bytes b : Bytes}
    {header : Header} {o : Option ReadOutcome} (hf : frontHeader bytes = some header)
    (he : header.isError = false) (hS : ∀ i : Fin N, header.channel.get.toNat = i → i ∈ S)
    (h : AgreeOn S p q) (hp : p.processFrame bytes = .ok (o, s, b)) :
    ∃ s', q.processFrame bytes = .ok (o, s', b) ∧ AgreeOn S s s' ∧ AgreeOn Sᶜ p s := by
  rw [processFrame_of_frontHeader hf] at hp ⊢
  by_cases hlt : header.channel.get.toNat < N
  · have hi := hS ⟨_, hlt⟩ rfl
    simp only [processHeader, he, Bool.false_eq_true, if_false, hlt, dif_pos] at hp ⊢
    obtain ⟨kind, hkind, hp⟩ := bind_eq_ok.mp hp
    obtain ⟨⟨outcome, chan, rest⟩, hchan, hp⟩ := bind_eq_ok.mp hp
    obtain ⟨rfl, rfl, rfl⟩ := ok_triple hp
    rw [h.channels _ hi, h.maxFrameSize] at hchan
    simp only [hkind, bind_ok, hchan, pure_eq_ok]
    exact ⟨_, rfl, h.setChannel _ _, .setChannel_outside hi _ _⟩
  · simp only [processHeader, he, Bool.false_eq_true, if_false, hlt, dif_neg,
      not_false_eq_true] at hp ⊢
    obtain ⟨rfl, rfl, rfl⟩ := ok_triple hp
    exact ⟨q, rfl, h, .refl _ _⟩

theorem createRequest_local {S : Set (Fin N)} {p q s : JulietProtocol N} {channel : ChannelId}
    {payload : Option Bytes} {r : Except LocalProtocolViolation OutgoingMessage}
    (hS : ∀ i : Fin N, channel.get.toNat = i → i ∈ S) (h : AgreeOn S p q)
    (hp : p.createRequest channel payload = .ok (r, s)) :
    ∃ s', q.createRequest channel payload = .ok (r, s') ∧ AgreeOn S s s' ∧ AgreeOn Sᶜ p s := by
  have hsame : ∀ {r' : Except LocalProtocolViolation OutgoingMessage}, .ok (r', p) =
      (.ok (r, s) : Checked _) →
      ∃ s', (.ok (r', q) : Checked _) = .ok (r, s') ∧ AgreeOn S s s' ∧ AgreeOn Sᶜ p s := by
    intro r' he
    obtain ⟨rfl, rfl⟩ := ok_pair he
    exact ⟨q, rfl, h, .refl _ _⟩
  unfold createRequest at hp ⊢
  have hlookup : q.lookupChannel channel = p.lookupChannel channel := rfl
  rw [hlookup]
  cases hl : p.lookupChannel channel with
  | error violation =>
    rw [hl] at hp
    exact hsame hp
  | ok i =>
    have hi := hS i (lookupChannel_ok hl)
    simp only [hl] at hp ⊢
    rw [← h.channels i hi]
    split at hp
    next hlen =>
      rw [if_pos hlen]
      exact hsame hp
    next hlen =>
      rw [if_neg hlen]
      split at hp
      next hmax =>
        rw [if_pos hmax]
        exact hsame hp
      next hmax =>
        rw [if_neg hmax]
        obtain ⟨⟨msg, chan⟩, hm, hp⟩ := bind_eq_ok.mp hp
        obtain ⟨rfl, rfl⟩ := ok_pair hp
        rw [hm]
        exact ⟨_, rfl, h.setChannel _ _, .setChannel_outside hi _ _⟩

theorem createResponse_local {S : Set (Fin N)} {p q : JulietProtocol N} {channel : ChannelId}
    (hS : ∀ i : Fin N, channel.get.toNat = i → i ∈ S) (h : AgreeOn S p q) (id : Id)
    (payload : Option Bytes) :
    AgreeOn S (p.createResponse channel id payload).2 (q.createResponse channel id payload).2 ∧
      AgreeOn Sᶜ p (p.createResponse channel id payload).2 := by
  have hlookup : q.lookupChannel channel = p.lookupChannel channel := rfl
  unfold createResponse
  rw [hlookup]
  cases hl : p.lookupChannel channel with
  | error violation => exact ⟨h, .refl _ _⟩
  | ok i =>
    have hi := hS i (lookupChannel_ok hl)
    dsimp only
    rw [← h.channels i hi]
    split
    next => exact ⟨h, .refl _ _⟩
    next =>
      split
      next => exact ⟨h.setChannel _ _, .setChannel_outside hi _ _⟩
      next => exact ⟨h.setChannel _ _, .setChannel_outside hi _ _⟩

theorem cancelResponse_local {S : Set (Fin N)} {p q : JulietProtocol N} {channel : ChannelId}
    (hS : ∀ i : Fin N, channel.get.toNat = i → i ∈ S) (h : AgreeOn S p q) (id : Id) :
    AgreeOn S (p.cancelResponse channel id).2 (q.cancelResponse channel id).2 ∧
      AgreeOn Sᶜ p (p.cancelResponse channel id).2 := by
  have hlookup : q.lookupChannel channel = p.lookupChannel channel := rfl
  unfold cancelResponse
  rw [hlookup]
  cases hl : p.lookupChannel channel with
  | error violation => exact ⟨h, .refl _ _⟩
  | ok i =>
    have hi := hS i (lookupChannel_ok hl)
    dsimp only
    rw [← h.channels i hi]
    split
    next => exact ⟨h, .refl _ _⟩
    next => exact ⟨h.setChannel _ _, .setChannel_outside hi _ _⟩

/-- A local call is handled by its channel alone. -/
theorem perform_local {S : Set (Fin N)} {p q s : JulietProtocol N} {call : LocalCall}
    (hS : ∀ i : Fin N, call.channel.get.toNat = i → i ∈ S) (h : AgreeOn S p q)
    (hp : p.perform call = .ok s) :
    ∃ s', q.perform call = .ok s' ∧ AgreeOn S s s' ∧ AgreeOn Sᶜ p s := by
  cases call with
  | createRequest channel payload =>
    simp only [LocalCall.channel] at hS
    simp only [perform] at hp ⊢
    cases hc : p.createRequest channel payload with
    | error panic => simp [hc, Except.map] at hp
    | ok result =>
      obtain ⟨r, s₁⟩ := result
      simp only [hc, Except.map, Except.ok.injEq] at hp
      subst hp
      obtain ⟨s', hq, hag, hout⟩ := createRequest_local hS h hc
      exact ⟨s', by simp [hq, Except.map], hag, hout⟩
  | createResponse channel id payload =>
    cases Except.ok.inj hp
    exact ⟨_, rfl, createResponse_local hS h id payload⟩
  | cancelRequest channel id =>
    cases Except.ok.inj hp
    simp only [perform, cancelRequest_state]
    exact ⟨q, rfl, h, .refl _ _⟩
  | cancelResponse channel id =>
    cases Except.ok.inj hp
    exact ⟨_, rfl, cancelResponse_local hS h id⟩

theorem Valid.perform {p s : JulietProtocol N} {call : LocalCall} (hv : p.Valid)
    (h : p.perform call = .ok s) :
    s.Valid := by
  cases call with
  | createRequest channel payload =>
    simp only [JulietProtocol.perform] at h
    cases hc : p.createRequest channel payload with
    | error panic => simp [hc, Except.map] at h
    | ok result =>
      simp only [hc, Except.map, Except.ok.injEq] at h
      subst h
      exact hv.createRequest hc
  | createResponse channel id payload =>
    cases Except.ok.inj h
    exact hv.createResponse channel id payload
  | cancelRequest channel id =>
    cases Except.ok.inj h
    rw [cancelRequest_state]
    exact hv
  | cancelResponse channel id =>
    cases Except.ok.inj h
    exact hv.cancelResponse channel id

def readsOf : Option ReadOutcome → List CompletedRead
  | some (.success read) => [read]
  | _ => []

/-- Receiving a complete frame leaves nothing over. -/
theorem receive_of_progress {p s : JulietProtocol N} {bytes : Bytes} {o : Option ReadOutcome}
    (hv : p.Valid) (hp : p.processFrame bytes = .ok (o, s, [])) (ho : Progress o) :
    ∃ n, p.receive bytes = .ok (readsOf o, .waiting n s []) := by
  have hwait : frameAttempt s [] = .ok (.incomplete ⟨4, by decide, by decide⟩, s, []) := rfl
  have ha : ∃ out, attempt o = .consumed out ∧ readsOf o = out.toList := by
    match o, ho with
    | none, _ => exact ⟨none, rfl, rfl⟩
    | some outcome, ho =>
      obtain ⟨read, rfl⟩ := ho _ rfl
      exact ⟨some read, rfl, rfl⟩
  obtain ⟨out, ha, hreads⟩ := ha
  have hrun := Runs.consumed (ha ▸ frameAttempt_of hp) (.incomplete hwait)
  refine ⟨⟨4, by decide, by decide⟩, ?_⟩
  rw [receive_of_runs hv hrun, hreads, List.append_nil]
  rfl

theorem receive_of_fatal {p s : JulietProtocol N} {bytes b : Bytes} {err : OutgoingMessage}
    (hv : p.Valid) (hp : p.processFrame bytes = .ok (some (.fatal err), s, b)) :
    p.receive bytes = .ok ([], .fatal err) :=
  receive_of_runs hv (.fatal (frameAttempt_of hp))

end JulietProtocol

theorem ChannelStep.read_channel {header : Header} {buffer b : Bytes} {self c : Channel}
    {kind : Kind} {o : Option ReadOutcome} {read : CompletedRead}
    (h : ChannelStep header buffer self kind o c b) (hr : o = some (.success read)) :
    read.channel = header.channel := by
  have hcompleted : ∀ {make : Option Bytes → CompletedRead} {frame : CompletedFrame},
      (∀ payload, (make payload).channel = header.channel) → completedAs make frame =
        some (.success read) →
      read.channel = header.channel := by
    intro make frame hmake he
    obtain ⟨payload, _, he⟩ := Option.map_eq_some_iff.mp he
    cases Outcome.success.inj he
    exact hmake _
  cases h with
  | wait _ _ => simp at hr
  | refuse _ _ => simp [errMsg] at hr
  | requestPlRefused _ _ _ _ _ _ => simp [errMsg] at hr
  | requestPlNew _ _ _ _ _ _ _ => exact hcompleted (fun _ => rfl) hr
  | requestPlMore _ _ _ _ _ => exact hcompleted (fun _ => rfl) hr
  | responsePl _ _ _ _ _ => exact hcompleted (fun _ => rfl) hr
  | cancelReqLate _ _ => simp at hr
  | request _ _ | response _ | cancelReq _ _ | cancelResp _ =>
    cases Outcome.success.inj (Option.some.inj hr)
    rfl

namespace JulietProtocol

variable {N : Nat}

theorem FrameStep.reads_channel {p s : JulietProtocol N} {bytes b : Bytes} {header : Header}
    {o : Option ReadOutcome} (h : FrameStep p bytes o s b) (hf : frontHeader bytes = some header) :
    ∀ read ∈ readsOf o, read.channel = header.channel := by
  intro read hread
  have ho : o = some (.success read) := by
    rcases o with _ | _ | _ | _
    · simp [readsOf] at hread
    · simp [readsOf] at hread
    · simp [readsOf] at hread
    · rw [List.mem_singleton.mp hread]
  cases h with
  | wait _ => simp at ho
  | refuse _ _ => simp at ho
  | error hd _ _ hf' _ _ _ =>
    cases Option.some.inj (hf.symm.trans hf')
    cases Outcome.success.inj (Option.some.inj ho)
    rfl
  | frame hd _ _ _ _ _ hf' _ _ hs =>
    cases Option.some.inj (hf.symm.trans hf')
    exact hs.read_channel ho

/-- The reads for a channel. -/
def readsOn (c : Fin N) (reads : List CompletedRead) : List CompletedRead :=
  reads.filter fun read => read.channel.get.toNat == c

theorem readsOn_append (c : Fin N) (xs ys : List CompletedRead) :
    readsOn c (xs ++ ys) = readsOn c xs ++ readsOn c ys := by
  simp [readsOn]

theorem serve_of_progress {p s : JulietProtocol N} {bytes : Bytes} {o : Option ReadOutcome}
    (hv : p.Valid) (hp : p.processFrame bytes = .ok (o, s, [])) (ho : Progress o)
    (inputs : List Input) :
    p.serve [] (.frame bytes :: inputs) = s.serve [] inputs >>=
      fun served => .ok (readsOf o ++ served.1, served.2) := by
  obtain ⟨n, hrec⟩ := receive_of_progress hv hp ho
  simp only [serve, List.nil_append, hrec, bind_ok, pure_eq_ok]

theorem serve_of_fatal {p s : JulietProtocol N} {bytes b : Bytes} {err : OutgoingMessage}
    (hv : p.Valid) (hp : p.processFrame bytes = .ok (some (.fatal err), s, b))
    (inputs : List Input) :
    p.serve [] (.frame bytes :: inputs) = .ok ([], .error err) := by
  simp only [serve, List.nil_append, receive_of_fatal hv hp, bind_ok, pure_eq_ok]

/-- The induction behind the isolation of a channel: `q` only has its frames, `r` only the rest. -/
theorem serve_isolated {c : Fin N} {own : List Bytes} {mine others inputs : List Input}
    {p q r s : JulietProtocol N} {reads : List CompletedRead} {b : Bytes}
    (hi : Interleaved mine others inputs) (hmine : mine = own.map .frame)
    (hown : ∀ bytes ∈ own, ∃ channel, (Input.frame bytes).channel = some channel ∧
      channel.get.toNat = c)
    (hothers : ∀ input ∈ others, ∀ channel, input.channel = some channel → channel.get.toNat ≠ c)
    (hq : AgreeOn {c} p q) (hr : AgreeOn {c}ᶜ p r) (hpv : p.Valid) (hqv : q.Valid)
    (hcq : q.Complete mine) (hcr : r.Complete others)
    (h : p.serve [] inputs = .ok (reads, .ok (s, b))) :
    ∃ s', q.serve [] mine = .ok (readsOn c reads, .ok (s', [])) ∧ s'.channels c = s.channels c := by
  induction hi generalizing own p q r reads with
  | nil =>
    obtain ⟨rfl, he⟩ := ok_pair h
    obtain ⟨rfl, rfl⟩ := Prod.mk.inj (Except.ok.inj he)
    exact ⟨q, rfl, (hq.channels c rfl).symm⟩
  | @left x xs ys zs _ ih =>
    obtain ⟨bytes, own, rfl, rfl, rfl⟩ : ∃ bytes own', own = bytes :: own' ∧ x = .frame bytes ∧
        xs = own'.map .frame := by
      cases own with
      | nil => simp at hmine
      | cons bytes own => exact ⟨bytes, own, rfl, List.cons.inj hmine⟩
    obtain ⟨⟨header, hf, herr⟩, o, sq, bq, hqf, hcase⟩ := hcq
    obtain ⟨channel, hch, hc⟩ := hown bytes (by simp)
    simp only [Input.channel, hf, Option.map_some, Option.some.injEq] at hch
    subst hch
    have hS : ∀ i : Fin N, header.channel.get.toNat = i → i ∈ ({c} : Set (Fin N)) :=
      fun i hi => Fin.ext (hi.symm.trans hc)
    obtain ⟨sp, hpf, hag, _⟩ := processFrame_local hf herr hS hq.symm hqf
    obtain ⟨_, _, _, hout⟩ := processFrame_local hf herr hS hq hpf
    rcases hcase with ⟨err, rfl⟩ | ⟨ho, rfl, hrest⟩
    · rw [serve_of_fatal hpv hpf] at h
      simp at h
    · rw [serve_of_progress hpv hpf ho] at h
      obtain ⟨⟨more, result⟩, hserve, h⟩ := bind_eq_ok.mp h
      obtain ⟨rfl, rfl⟩ := ok_pair h
      obtain ⟨s', hs', hchan⟩ := ih rfl (fun bytes hb => hown bytes (by simp [hb])) hothers hag.symm
        (hout.symm.trans hr) (processFrame_keeps hpv hpf)
          (processFrame_keeps hqv hqf) hrest hcr hserve
      have hreads : readsOn c (readsOf o) = readsOf o := by
        refine List.filter_eq_self.mpr ?_
        intro read hread
        rw [(processFrame_inv hqv hqf).reads_channel hf read hread]
        simpa using hc
      refine ⟨s', ?_, hchan⟩
      rw [serve_of_progress hqv hqf ho, hs', bind_ok, readsOn_append, hreads]
  | @right y xs ys zs _ ih =>
    have hothers' : ∀ input ∈ ys, ∀ channel, input.channel = some channel → channel.get.toNat ≠ c :=
      fun input hmem => hothers input (by simp [hmem])
    have hne := hothers y (by simp)
    cases y with
    | frame bytes =>
      obtain ⟨⟨header, hf, herr⟩, o, sr, br, hrf, hcase⟩ := hcr
      have hc : header.channel.get.toNat ≠ c := hne _ (by simp [Input.channel, hf])
      have hS : ∀ i : Fin N, header.channel.get.toNat = i → i ∈ ({c}ᶜ : Set (Fin N)) := by
        rintro i hi rfl
        exact hc hi
      obtain ⟨sp, hpf, hag, _⟩ := processFrame_local hf herr hS hr.symm hrf
      obtain ⟨_, _, _, hout⟩ := processFrame_local hf herr hS hr hpf
      rw [compl_compl] at hout
      rcases hcase with ⟨err, rfl⟩ | ⟨ho, rfl, hrest⟩
      · rw [serve_of_fatal hpv hpf] at h
        simp at h
      · rw [serve_of_progress hpv hpf ho] at h
        obtain ⟨⟨more, result⟩, hserve, h⟩ := bind_eq_ok.mp h
        obtain ⟨rfl, rfl⟩ := ok_pair h
        obtain ⟨s', hs', hchan⟩ :=
          ih hmine hown hothers' (hout.symm.trans hq) hag.symm (processFrame_keeps hpv hpf)
          hqv hcq hrest hserve
        have hreads : readsOn c (readsOf o) = [] := by
          refine List.filter_eq_nil_iff.mpr ?_
          intro read hread
          rw [(processFrame_inv hpv hpf).reads_channel hf read hread]
          simpa using hc
        refine ⟨s', ?_, hchan⟩
        rw [hs', readsOn_append, hreads, List.nil_append]
    | call call =>
      have hS : ∀ i : Fin N, call.channel.get.toNat = i → i ∈ ({c}ᶜ : Set (Fin N)) := by
        rintro i hi rfl
        exact hne _ rfl hi
      simp only [serve] at h
      obtain ⟨sp, hperform, hserve⟩ := bind_eq_ok.mp h
      obtain ⟨sr, hr', hag, hout⟩ := perform_local hS hr hperform
      rw [compl_compl] at hout
      exact ih hmine hown hothers' (hout.symm.trans hq) hag (hpv.perform hperform) hqv
        hcq (hcr sr hr') hserve

/-- In every reachable state: however complete frames on channel `c` are mixed with complete frames
and with local calls on other channels, as long as no frame is refused the reads for `c` and the
state that `c` ends in are those that its own frames alone lead to. -/
theorem channel_isolated {p s : JulietProtocol N} (hp : Reachable p) {c : Fin N} {own : List Bytes}
    {others inputs : List Input} {reads : List CompletedRead} {b : Bytes}
    (hi : Interleaved (own.map .frame) others inputs)
    (hown : ∀ bytes ∈ own, ∃ channel, (Input.frame bytes).channel = some channel ∧
      channel.get.toNat = c)
    (hothers : ∀ input ∈ others, ∀ channel, input.channel = some channel → channel.get.toNat ≠ c)
    (hcown : p.Complete (own.map .frame)) (hcothers : p.Complete others)
    (h : p.serve [] inputs = .ok (reads, .ok (s, b))) :
    ∃ s', p.serve [] (own.map .frame) = .ok (readsOn c reads, .ok (s', [])) ∧
      s'.channels c = s.channels c :=
  serve_isolated hi rfl hown hothers (.refl _ _) (.refl _ _) hp.valid hp.valid hcown hcothers h

def twoChannels : ProtocolBuilder 2 := ⟨fun _ => ⟨1, 8, 8⟩, .smallest⟩

/-- The two frames of a request on channel 0. -/
def splitRequest : List Bytes :=
  [(Header.new .requestPl ⟨0⟩ ⟨1⟩).bytes ++ [6, 1, 2, 3, 4, 5],
    (Header.new .requestPl ⟨0⟩ ⟨1⟩).bytes ++ [6]]

def besideRequest : List Input :=
  [.frame (Header.new .request ⟨1⟩ ⟨1⟩).bytes, .call (.createRequest ⟨1⟩ none)]

/-- A request on channel 0 arrives in two frames, with a request and a call for channel 1 in
between. -/
theorem channel_isolated_between :
    ∃ inputs reads s s', Interleaved (splitRequest.map .frame) besideRequest inputs ∧
    twoChannels.build.serve [] inputs = .ok (reads, .ok (s, [])) ∧ reads.length = 2 ∧
    twoChannels.build.serve [] (splitRequest.map .frame) =
      .ok (readsOn (0 : Fin 2) reads, .ok (s', [])) ∧
    s'.channels 0 = s.channels 0 := by
  have hi : Interleaved (splitRequest.map .frame) besideRequest _ :=
    .left (.right (.right (.left .nil)))
  have hown : ∀ bytes ∈ splitRequest, ∃ channel : ChannelId,
      (Input.frame bytes).channel = some channel ∧ channel.get.toNat = (0 : Fin 2) := by
    intro bytes hb
    simp only [splitRequest, List.mem_cons, List.not_mem_nil, or_false] at hb
    rcases hb with rfl | rfl <;> exact ⟨⟨0⟩, rfl, rfl⟩
  have hothers : ∀ input ∈ besideRequest, ∀ channel : ChannelId, input.channel = some channel →
      channel.get.toNat ≠ (0 : Fin 2) := by
    intro input hmem channel hch
    simp only [besideRequest, List.mem_cons, List.not_mem_nil, or_false] at hmem
    rcases hmem with rfl | rfl <;> cases Option.some.inj hch <;> decide
  have hcown : twoChannels.build.Complete (splitRequest.map .frame) :=
    ⟨⟨_, rfl, rfl⟩, _, _, _, rfl, .inr ⟨by simp [Progress], rfl, ⟨_, rfl, rfl⟩, _, _, _, rfl,
      .inr ⟨by simp [Progress], rfl, trivial⟩⟩⟩
  have hcothers : twoChannels.build.Complete besideRequest :=
    ⟨⟨_, rfl, rfl⟩, _, _, _, rfl, .inr ⟨by simp [Progress], rfl, fun _ _ => trivial⟩⟩
  obtain ⟨s', hs', hc⟩ := channel_isolated (.build twoChannels) hi hown hothers hcown hcothers rfl
  exact ⟨_, _, _, s', hi, rfl, rfl, hs', hc⟩

end JulietProtocol

end Juliet
