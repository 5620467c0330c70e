import Juliet.CouplingFrames

namespace Juliet

open Rust

open JulietProtocol (readsOf)

namespace IoCore

variable {N : Nat} {self c : IoCore N} {builder : ProtocolBuilder N} {peer : Side N}
  {reads : List CompletedRead} {ab ba : List FrameIter} {pipe : Bytes}
  {reported : Fin N → Finset Id} {enqueued : List QueuedItem} {unanswered : Fin N → Finset Id}

/-- What a call of `process_incoming` does: it takes in frames of the peer. -/
theorem Coupled.parsed (h : Coupled builder peer reads ab ba pipe reported self)
    (hplain : ∀ it ∈ ba, it.header.kind ≠ .ok .cancelReq) {o : ReadOutcome}
    {juliet : JulietProtocol N} {buffer : Bytes}
    (hp : self.juliet.processIncoming self.buffer = .ok (o, juliet, buffer)) :
    (∀ err, o ≠ .fatal err) ∧ ∃ taken ba', ba = taken ++ ba' ∧
      taken.filterMap (FrameIter.completes builder.maxFrameSize) = readsOf (some o) ∧
      (∀ j, Disjoint (reported j) (reportedBy j (readsOf (some o)))) ∧
      Coupled builder peer reads ab ba' pipe (fun j => reported j ∪ reportedBy j (readsOf (some o)))
        (self.parsed juliet buffer) := by
  have ht := h.tidy
  obtain ⟨hfatal, taken, ba', hsplit, hj, hreads, hnew⟩ := h.joined.processIncoming hplain hp
  have hm := (JulietProtocol.processIncoming_settles ht.sound.valid hp).maxFrameSize
  refine ⟨hfatal, taken, ba', hsplit, hreads, hnew, hj, ?_, h.conveyed⟩
  exact { ht with
    sound := ht.sound.parsed (ht.sound.valid.processIncoming hp) buffer
    exclusive := ht.exclusive.idle rfl rfl rfl rfl hm
    frameSize := hm.trans ht.frameSize }

/-- The part of the loop that parses never finds an error in what the peer sends. -/
theorem Serves.parseStep {outcome : Option ReadOutcome} {result : Option (Except CoreError IoEvent)}
    (h : Serves builder peer reads ab ba pipe enqueued unanswered [] self)
    (hplain : ∀ it ∈ ba, it.header.kind ≠ .ok .cancelReq) (hs : ParseStep self outcome result c) :
    (∀ err, outcome ≠ some (.fatal err)) ∧ ∃ taken ba', ba = taken ++ ba' ∧
      taken.filterMap (FrameIter.completes builder.maxFrameSize) = readsOf outcome ∧
      Serves builder peer reads ab ba' pipe enqueued
        (fun j => unanswered j ∪ reportedBy j (readsOf outcome)) [] c := by
  have hparsed : ∀ {o juliet buffer}, self.juliet.processIncoming self.buffer =
      .ok (o, juliet, buffer) →
      (∀ err, some o ≠ some (.fatal err)) ∧ ∃ taken ba', ba = taken ++ ba' ∧
        taken.filterMap (FrameIter.completes builder.maxFrameSize) = readsOf (some o) ∧
        Serves builder peer reads ab ba' pipe enqueued
          (fun j => unanswered j ∪ reportedBy j (readsOf (some o))) []
          (self.parsed juliet buffer) := by
    intro o juliet buffer hp
    obtain ⟨reported, hc, hsup⟩ := h
    obtain ⟨hfatal, taken, ba', hsplit, hreads, hnew, hc'⟩ := hc.parsed hplain hp
    exact ⟨fun err he => hfatal err (Option.some.inj he), taken, ba', hsplit, hreads, _, hc',
      (hsup.report hnew).idle rfl rfl rfl⟩
  cases hs with
  | skip _ =>
    refine ⟨by simp, [], ba, rfl, rfl, ?_⟩
    simpa [reportedBy, readsOf] using h
  | incomplete n juliet buffer hp =>
    obtain ⟨hfatal, taken, ba', hsplit, hreads, reported, hc, hsup⟩ := hparsed hp
    exact ⟨hfatal, taken, ba', hsplit, hreads, reported,
      hc.idle { hc.tidy.sound with } rfl rfl rfl rfl rfl rfl rfl, hsup.idle rfl rfl rfl⟩
  | fatal errMsg juliet buffer frame hp _ _ =>
    obtain ⟨hfatal, _⟩ := hparsed hp
    exact absurd rfl (hfatal errMsg)
  | event read juliet buffer hp _ =>
    obtain ⟨hfatal, taken, ba', hsplit, hreads, hserves⟩ := hparsed hp
    exact ⟨hfatal, taken, ba', hsplit, hreads, hserves.handleCompletedRead read⟩
  | response channel id payload juliet buffer c hp hq _ =>
    obtain ⟨hfatal, taken, ba', hsplit, hreads, hserves⟩ := hparsed hp
    exact ⟨hfatal, taken, ba', hsplit, hreads, (hserves.processWaitQueue hq).handleCompletedRead _⟩
  | violation channel id payload juliet buffer err c hp hq =>
    obtain ⟨hfatal, taken, ba', hsplit, hreads, hserves⟩ := hparsed hp
    exact ⟨hfatal, taken, ba', hsplit, hreads, hserves.processWaitQueue hq⟩

/-- Bytes of the peer arrive. -/
theorem Serves.arrive (h : Serves builder peer reads ab ba pipe enqueued unanswered [] self)
    (k : Nat) :
    Serves builder { peer with stream := peer.stream.drop k } reads ab ba pipe
      enqueued unanswered []
      { self with buffer := self.buffer ++ peer.stream.take k } := by
  obtain ⟨reported, hc, hsup⟩ := h
  have ht := hc.tidy
  refine ⟨reported, ⟨hc.joined.arrive k, { ht with sound := { ht.sound with }, exclusive := ?_ },
    hc.conveyed⟩, hsup.idle rfl rfl rfl⟩
  exact ht.exclusive.idle rfl rfl rfl rfl rfl

/-- The peer of a core that has taken in frames: the frame at hand is not among them, for some of
its bytes are still to come. -/
theorem Coupled.taken {taken ab' ba' : List FrameIter} {peer' : Side N} {pipe' : Bytes}
    {more : List CompletedRead} (h : Coupled builder peer reads ab ba pipe reported self)
    (hj : Joined builder (self.side pipe' reported) peer' ab' ba') (hsplit : ab = taken ++ ab')
    (hmore : taken.filterMap (FrameIter.completes builder.maxFrameSize) = more) :
    Coupled builder peer' (reads ++ more) ab' ba' pipe' reported self := by
  have ht := h.tidy
  subst hsplit
  refine ⟨hj, { ht with current := ?_, plain := ?_ }, ?_⟩
  · intro current hc
    obtain ⟨hne, it, hit, hhd⟩ := ht.current current hc
    refine ⟨hne, it, ?_, hhd⟩
    have hleft : ab' ≠ [] := by
      rintro rfl
      have hpending : self.pendingBytes = current.frame.bytes := by
        rw [pendingBytes, Option.mem_def.mp hc]
        rfl
      have hbytes := hj.toward.bytes
      rw [List.map_nil, List.flatten_nil, side, hpending, List.append_eq_nil_iff,
        List.append_eq_nil_iff] at hbytes
      exact hne hbytes.2.2
    rwa [List.getLast?_append_of_ne_nil _ hleft] at hit
  · intro it hit
    refine ht.plain it ?_
    rw [List.append_assoc]
    exact List.mem_append_right _ hit
  · intro header
    rw [← h.conveyed header, List.filterMap_append, hmore, ← List.append_assoc]

end IoCore

end Juliet
