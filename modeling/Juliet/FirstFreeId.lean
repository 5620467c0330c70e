import Juliet.ProtocolRuns

namespace Juliet

open Rust

namespace Channel

/-- The search stops at the first id that is free. -/
theorem searchId_first {taken : Finset Id} {fuel : Nat} {candidate id : Id}
    (h : searchId taken fuel candidate = .ok id) :
    ∃ k < fuel, id = ⟨candidate.get + UInt16.ofNat k⟩ ∧
      ∀ j < k, ⟨candidate.get + UInt16.ofNat j⟩ ∈ taken := by
  induction fuel generalizing candidate with
  | zero => simp [searchId] at h
  | succ fuel ih =>
    simp only [searchId] at h
    split at h
    next hm =>
      obtain ⟨k, hk, rfl, htaken⟩ := ih h
      refine ⟨k + 1, by omega, by rw [succ_add_ofNat], ?_⟩
      intro j hj
      cases j with
      | zero => simpa using hm
      | succ j =>
        have := htaken j (by omega)
        rwa [succ_add_ofNat] at this
    next =>
      cases Except.ok.inj h
      exact ⟨0, by omega, by simp, by omega⟩

/-- Any number of passes that reaches the first free id finds it. -/
theorem searchId_of_first {taken : Finset Id} {fuel k : Nat} {candidate : Id} (hk : k < fuel)
    (hfree : ⟨candidate.get + UInt16.ofNat k⟩ ∉ taken)
    (htaken : ∀ j < k, ⟨candidate.get + UInt16.ofNat j⟩ ∈ taken) :
    searchId taken fuel candidate = .ok ⟨candidate.get + UInt16.ofNat k⟩ := by
  induction k generalizing fuel candidate with
  | zero =>
    obtain ⟨fuel, rfl⟩ : ∃ n, fuel = n + 1 := ⟨fuel - 1, by omega⟩
    have hc : candidate ∉ taken := by simpa using hfree
    simp [searchId, hc]
  | succ k ih =>
    obtain ⟨fuel, rfl⟩ : ∃ n, fuel = n + 1 := ⟨fuel - 1, by omega⟩
    have hc : candidate ∈ taken := by simpa using htaken 0 (by omega)
    rw [searchId, if_pos hc, ← succ_add_ofNat]
    apply ih (by omega)
    · rw [succ_add_ofNat]
      exact hfree
    · intro j hj
      rw [succ_add_ofNat]
      exact htaken (j + 1) (by omega)

theorem Generates.generateRequestId {self : Channel} {id : Id} (h : self.Generates id)
    (ha : self.allowedToSendRequest = true) :
    self.generateRequestId = .ok (some id, { self with prevRequestId := id.get }) := by
  have hc := card_lt_of_allowed ha
  unfold Generates at h
  unfold Channel.generateRequestId
  rw [if_neg (by omega), h]
  rfl

end Channel

namespace JulietProtocol

variable {N : Nat}

/-- Past the checks of `create_request` the id space is not exhausted, and the search ends, after at
most as many passes as requests are outstanding, at the first free id behind the last one used. -/
theorem createRequest_takes_first_free (self : JulietProtocol N) (channel : ChannelId) (i : Fin N)
    (payload : Option Bytes) (hl : self.lookupChannel channel = .ok i)
    (hp : PayloadWithin payload (self.channels i).config.maxRequestPayloadSize)
    (ha : (self.channels i).allowedToSendRequest = true) :
    (self.channels i).outgoingRequests.card ≠ 2 ^ 16 - 1 ∧
    ∃ k id, k ≤ (self.channels i).outgoingRequests.card ∧
      id = ⟨(self.channels i).prevRequestId + 1 + UInt16.ofNat k⟩ ∧
      id ∉ (self.channels i).outgoingRequests ∧
      (∀ j < k, ⟨(self.channels i).prevRequestId + 1 + UInt16.ofNat j⟩ ∈
        (self.channels i).outgoingRequests) ∧
      (∀ passes, k < passes → Channel.searchId (self.channels i).outgoingRequests passes
        ⟨(self.channels i).prevRequestId + 1⟩ = .ok id) ∧
      (self.channels i).generateRequestId =
        .ok (some id, { self.channels i with prevRequestId := id.get }) ∧
      self.createRequest channel payload = .ok (.ok (Channel.requestMessage channel id payload),
        self.setChannel i ((self.channels i).withRequest id)) := by
  have hc := Channel.card_lt_of_allowed ha
  obtain ⟨id, hid⟩ := Channel.exists_generates ha
  obtain ⟨k, hk, he, htaken⟩ := Channel.searchId_first hid
  refine ⟨by omega, k, id, Channel.le_card_of_taken (by omega) htaken, he, hid.free, htaken, ?_,
    hid.generateRequestId ha, createRequest_of (lookupChannel_ok hl) ha hp hid⟩
  intro passes hlt
  have hfree := hid.free
  rw [he] at hfree ⊢
  exact Channel.searchId_of_first hlt hfree htaken

def fullLimit : ProtocolBuilder 1 := ⟨fun _ => ⟨65535, 8, 8⟩, .smallest⟩

/-- The ids have come round, and those next in turn are outstanding. -/
def wrappedAround : JulietProtocol 1 :=
  { fullLimit.build with
    channels := fun i => { fullLimit.build.channels i with
      outgoingRequests := {⟨65535⟩, ⟨0⟩, ⟨1⟩}
      prevRequestId := 65534 } }

theorem fullLimit_takes_first_free :
    wrappedAround.lookupChannel ⟨0⟩ = .ok 0 ∧
    (wrappedAround.channels 0).allowedToSendRequest = true ∧
      ∃ p, wrappedAround.createRequest ⟨0⟩ none =
        .ok (.ok (Channel.requestMessage ⟨0⟩ ⟨2⟩ none), p) := by
  have hl : wrappedAround.lookupChannel ⟨0⟩ = .ok 0 := rfl
  have ha : (wrappedAround.channels 0).allowedToSendRequest = true := rfl
  refine ⟨hl, ha, ?_⟩
  obtain ⟨_, k, id, hk, he, hfree, _, _, _, hc⟩ :=
    createRequest_takes_first_free wrappedAround ⟨0⟩ 0 none hl (by simp [PayloadWithin]) ha
  subst he
  have htaken : ∀ j < 3, ⟨(wrappedAround.channels 0).prevRequestId + 1 + UInt16.ofNat j⟩ ∈
      (wrappedAround.channels 0).outgoingRequests := by decide
  have hthree : k = 3 := by
    have hcard : k ≤ 3 := hk
    by_contra hne
    exact hfree (htaken k (by omega))
  subst hthree
  exact ⟨_, hc⟩

end JulietProtocol

end Juliet
