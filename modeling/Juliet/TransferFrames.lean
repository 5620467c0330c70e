import Juliet.ProtocolRuns

namespace Juliet

open Rust

/-- A frame that is accepted besides an unfinished transfer is a whole message. -/
theorem Accepted.beside {max : Nat} {header h : Header} {buffer rest p : Bytes} {t : Nat}
    {s' : MultiframeReceiver} {frame : CompletedFrame}
    (ha : Accepted max header buffer (.inProgress h p t) (.success frame) s' rest)
    (hne : header ≠ h) : s' = .inProgress h p t := by
  cases ha with
  | single _ _ _ _ _ _ _ => rfl
  | middle _ _ _ _ _ _ _ => exact absurd rfl hne
  | last _ _ _ _ _ _ _ => exact absurd rfl hne

theorem Channel.cancelInProgress_eq (self : Channel) {header h : Header} {p : Bytes} {t : Nat}
    (ht : self.currentMultiframeReceiver = .inProgress h p t) (hid : header.id = h.id) :
    self.cancelInProgress header =
      { self with
        currentMultiframeReceiver := .ready
        incomingRequests := self.incomingRequests.erase h.id } := by
  unfold cancelInProgress
  simp [ht, MultiframeReceiver.inProgressHeader, hid]

theorem Channel.cancelInProgress_ne (self : Channel) {header h : Header} {p : Bytes} {t : Nat}
    (ht : self.currentMultiframeReceiver = .inProgress h p t) (hid : header.id ≠ h.id) :
    self.cancelInProgress header = self := by
  unfold cancelInProgress
  simp [ht, MultiframeReceiver.inProgressHeader, Ne.symm hid]

namespace ChannelStep

variable {header h : Header} {buffer b p : Bytes} {self c : Channel} {kind : Kind}
  {o : Option ReadOutcome} {t : Nat}

/-- A cancellation under the id of the unfinished transfer aborts it, whatever its direction. -/
theorem aborts (hs : ChannelStep header buffer self .cancelReq o c b) (hp : Progress o)
    (ht : self.currentMultiframeReceiver = .inProgress h p t) (hid : header.id = h.id) :
    c.currentMultiframeReceiver = .ready ∧ c.incomingRequests =
      self.incomingRequests.erase h.id := by
  cases hs with
  | wait _ n =>
    obtain ⟨read, hr⟩ := hp _ rfl
    simp at hr
  | refuse _ err =>
    obtain ⟨read, hr⟩ := hp _ rfl
    simp [errMsg] at hr
  | cancelReqLate _ _ | cancelReq _ _ =>
    rw [Channel.cancelInProgress_eq
      { self with cancellationAllowance := self.cancellationAllowance - 1 } ht hid]
    exact ⟨rfl, rfl⟩

/-- Every other frame under another header leaves the transfer alone. -/
theorem beside (hs : ChannelStep header buffer self kind o c b)
    (hne : header ≠ h) (ht : self.currentMultiframeReceiver = .inProgress h p t)
    (hk : ¬ (kind = .cancelReq ∧ header.id = h.id)) :
    c.currentMultiframeReceiver = self.currentMultiframeReceiver ∧
      (kind = .cancelReq → c.incomingRequests = self.incomingRequests) := by
  cases hs with
  | wait _ _ | refuse _ _ => exact ⟨rfl, fun _ => rfl⟩
  | request _ _ => exact ⟨by simp, by simp⟩
  | response _ | cancelResp _ => exact ⟨rfl, by simp⟩
  | requestPlRefused frame receiver rest err ha _ =>
    rw [ht] at ha
    exact ⟨(ha.beside hne).trans ht.symm, by simp⟩
  | requestPlNew frame receiver rest ha _ _ _ =>
    rw [ht] at ha
    refine ⟨?_, by simp⟩
    rw [Channel.register_receiver]
    exact (ha.beside hne).trans ht.symm
  | requestPlMore frame receiver rest ha _ =>
    rw [ht] at ha
    exact ⟨(ha.beside hne).trans ht.symm, by simp⟩
  | responsePl frame receiver rest _ ha =>
    rw [ht] at ha
    refine ⟨?_, by simp⟩
    have hr := (ha.beside hne).trans ht.symm
    split
    next => exact hr
    next => exact hr
  | cancelReqLate _ _ | cancelReq _ _ =>
    have hid : header.id ≠ h.id := fun he => hk ⟨rfl, he⟩
    rw [Channel.cancelInProgress_ne
      { self with cancellationAllowance := self.cancellationAllowance - 1 } ht hid]
    exact ⟨rfl, fun _ => rfl⟩

end ChannelStep

/-- How a frame under the header `hd` is meant to treat the unfinished transfer of channel `c` under
another header `h`: it may only be aborted by the cancellation of the request it belongs to, and a
cancellation drops no other request. -/
structure TransferKept {N : Nat} (c : Fin N) (h hd : Header) (s s' : JulietProtocol N) : Prop where
  transfer : (s'.channels c).currentMultiframeReceiver = (s.channels c).currentMultiframeReceiver ∨
    h = Header.new .requestPl h.channel h.id ∧ hd = Header.new .cancelReq h.channel h.id
  incoming : hd = Header.new .cancelReq hd.channel hd.id → ∀ id ∈ (s.channels c).incomingRequests,
    id ∉ (s'.channels c).incomingRequests → h = Header.new .requestPl h.channel id ∧
      (s'.channels c).currentMultiframeReceiver = .ready

namespace JulietProtocol

variable {N : Nat}

/-- A frame treats the transfers of its channel as meant, unless it is a cancellation that happens
to carry the id of a response being received. -/
theorem transferKept_iff {p s s' : JulietProtocol N} {buffer b b' payload : Bytes} {c : Fin N}
    {h hd : Header} {total : Nat} {o : Option ReadOutcome} (hr : Reachable p)
    (hi : Iterates p buffer s b)
    (ht : (s.channels c).currentMultiframeReceiver = .inProgress h payload total)
    (hf : frontHeader b = some hd) (he : hd.isError = false) (hne : hd ≠ h)
    (hs : s.processFrame b = .ok (o, s', b')) (ho : Progress o) :
    TransferKept c h hd s s' ↔
      ¬ (h = Header.new .responsePl h.channel h.id ∧
        hd = Header.new .cancelReq h.channel h.id) := by
  have hv := hi.valid hr.valid
  obtain ⟨hch, _, _, hkind⟩ := (hv c).transfer ht
  cases processFrame_inv hv hs with
  | wait n =>
    obtain ⟨read, hread⟩ := ho _ rfl
    simp at hread
  | refuse err =>
    obtain ⟨read, hread⟩ := ho _ rfl
    simp at hread
  | error hd' _ _ hf' he' _ _ =>
    rw [hf] at hf'
    cases hf'
    simp [he] at he'
  | frame hd' kind i _ chan _ hf' hk hidx hstep =>
    rw [hf] at hf'
    cases hf'
    by_cases hic : c = i
    · subst hic
      have hchan : hd.channel = h.channel := ChannelId.ext_toNat (hidx.trans hch.symm)
      by_cases hab : kind = .cancelReq ∧ hd.id = h.id
      · obtain ⟨rfl, hid⟩ := hab
        obtain ⟨hready, herase⟩ := hstep.aborts ho ht hid
        have hdEq : hd = Header.new .cancelReq h.channel h.id := by rw [hk, hchan, hid]
        rcases hkind with ⟨hreq, _⟩ | ⟨hresp, _⟩
        · refine iff_of_true ⟨.inr ⟨hreq, hdEq⟩, ?_⟩ ?_
          · intro _ id hin hout
            rw [setChannel_self] at hout ⊢
            rw [herase, Finset.mem_erase] at hout
            have hide : id = h.id := by
              by_contra hn
              exact hout ⟨hn, hin⟩
            exact ⟨hide ▸ hreq, hready⟩
          · rintro ⟨hresp, _⟩
            have hx := Header.new_inj.mp (hreq.symm.trans hresp)
            simp at hx
        · refine iff_of_false (fun hkept => ?_) (fun hn => hn ⟨hresp, hdEq⟩)
          rcases hkept.transfer with hsame | ⟨hreq, _⟩
          · rw [setChannel_self, hready, ht] at hsame
            simp at hsame
          · have hx := Header.new_inj.mp (hreq.symm.trans hresp)
            simp at hx
      · obtain ⟨hsame, hinc⟩ := hstep.beside hne ht hab
        refine iff_of_true ⟨.inl ?_, ?_⟩ ?_
        · rw [setChannel_self, hsame]
        · intro hcancel id hin hout
          rw [setChannel_self, hinc (Header.new_inj.mp (hk.symm.trans hcancel)).1] at hout
          exact absurd hin hout
        · rintro ⟨_, hcancel⟩
          obtain ⟨hkc, _, hid⟩ := Header.new_inj.mp (hk.symm.trans hcancel)
          exact hab ⟨hkc, hid⟩
    · refine iff_of_true ⟨.inl ?_, ?_⟩ ?_
      · rw [setChannel_of_ne _ hic]
      · intro _ id hin hout
        rw [setChannel_of_ne _ hic] at hout
        exact absurd hin hout
      · rintro ⟨_, hcancel⟩
        obtain ⟨_, hchan, _⟩ := Header.new_inj.mp (hk.symm.trans hcancel)
        exact hic (Fin.ext (by rw [← hch, ← hidx, hchan]))

/-- The peer begins a request and cancels it: the transfer is dropped as it should be. -/
theorem transferKept_iff_cancelled_request :
    ∃ (p s' : JulietProtocol 1) (h : Header) (payload : Bytes) (total : Nat),
    Reachable p ∧ (p.channels 0).currentMultiframeReceiver = .inProgress h payload total ∧
      (s'.channels 0).currentMultiframeReceiver = .ready ∧
      TransferKept 0 h (Header.new .cancelReq h.channel h.id) p s' := by
  have h0 : Reachable smallBuilder.build := .build _
  have h1 := @Reachable.processIncoming _ _ _ ((Header.new .requestPl ⟨0⟩ ⟨1⟩).bytes ++ [6, 0, 0,
    0, 0, 0]) _ _ h0 rfl
  refine ⟨_, _, _, _, _, h1, rfl, ?_,
    (transferKept_iff (b := (Header.new .cancelReq ⟨0⟩ ⟨1⟩).bytes) h1 .start rfl
    rfl rfl (by decide) rfl (fun _ ho => absurd ho (by simp))).mpr (by decide)⟩
  rfl

/-- Both sides use the id 1 for their first request. The peer sends its request, begins the response
to ours and then cancels its own request: the response is lost. -/
theorem cancelReq_aborts_response :
    ∃ (p s s' : JulietProtocol 1) (buffer b b' payload : Bytes) (h hd : Header)
    (total : Nat) (o : Option ReadOutcome), Reachable p ∧ Iterates p buffer s b ∧
      (s.channels 0).currentMultiframeReceiver = .inProgress h payload total ∧
      frontHeader b = some hd ∧
      hd.isError = false ∧ hd ≠ h ∧ s.processFrame b = .ok (o, s', b') ∧ Progress o ∧
      ¬ TransferKept 0 h hd s s' := by
  have h0 : Reachable smallBuilder.build := .build _
  have h1 := @Reachable.createRequest _ _ _ ⟨0⟩ none _ h0 rfl
  have h2 := @Reachable.processIncoming _ _ _ (Header.new .request ⟨0⟩ ⟨1⟩).bytes _ _ h1 rfl
  have h3 := @Reachable.processIncoming _ _ _ ((Header.new .responsePl ⟨0⟩ ⟨1⟩).bytes ++ [6, 0, 0,
    0, 0, 0]) _ _ h2 rfl
  refine ⟨_, _, _, _, (Header.new .cancelReq ⟨0⟩ ⟨1⟩).bytes, _, _, _, _, _, _, h3, .start, rfl,
    rfl, rfl, by decide,
    rfl, ?_, ?_⟩
  · exact fun _ ho => absurd ho (by simp)
  · intro hkept
    rcases hkept.transfer with hsame | ⟨hreq, _⟩
    · exact absurd hsame (by decide)
    · exact absurd hreq (by decide)

end JulietProtocol

end Juliet
