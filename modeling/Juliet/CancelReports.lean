import Juliet.Traces

namespace Juliet

open Rust

/-- What an accepted frame does to the open transfer: it leaves it open, it opens one, or it ends
it. -/
theorem Accepted.transfer_cases {max : Nat} {header : Header} {buffer rest : Bytes}
    {s s' : MultiframeReceiver} {frame : CompletedFrame}
    (h : Accepted max header buffer s (.success frame) s' rest) :
    (s'.inProgressHeader = s.inProgressHeader ∧
      (frame.wasNew = true → ∃ payload, frame.intoCompletedPayload = some payload)) ∨
    (s.inProgressHeader = none ∧ s'.inProgressHeader = some header) ∨
    (s.inProgressHeader = some header ∧ frame.wasNew = false ∧
      ∃ payload, frame.intoCompletedPayload = some payload) := by
  cases h with
  | single _ payload _ _ _ _ _ => exact .inl ⟨rfl, fun _ => ⟨payload, rfl⟩⟩
  | first _ _ _ _ _ _ _ _ => exact .inr (.inl ⟨rfl, rfl⟩)
  | middle _ _ _ _ _ _ _ => exact .inl ⟨rfl, fun hnew => by simp [CompletedFrame.wasNew] at hnew⟩
  | last _ _ _ _ _ _ _ => exact .inr (.inr ⟨rfl, rfl, _, rfl⟩)

namespace Channel

/-- The request is being transferred. -/
def InTransfer (self : Channel) (channel : ChannelId) (id : Id) : Prop :=
  self.currentMultiframeReceiver.inProgressHeader = some (Header.new .requestPl channel id)

theorem cancelInProgress_cases (self : Channel) (header : Header) :
    (self.cancelInProgress header = self ∧
      ∀ h, self.currentMultiframeReceiver.inProgressHeader = some h → h.id ≠ header.id) ∨
    (self.cancelInProgress header).incomingRequests = self.incomingRequests.erase header.id ∧
      ∃ h, self.currentMultiframeReceiver.inProgressHeader = some h ∧ h.id = header.id := by
  unfold cancelInProgress
  split
  next h hr =>
    split
    next hid => exact .inr ⟨rfl, h, hr, hid⟩
    next hid =>
      refine .inl ⟨rfl, ?_⟩
      intro h' hr'
      cases Option.some.inj (hr.symm.trans hr')
      exact hid
  next hr =>
    refine .inl ⟨rfl, ?_⟩
    intro h' hr'
    simp [hr] at hr'

/-- What `CancelReq` leaves registered was registered before, and was not being transferred if it
has the id of the cancellation. -/
theorem cancelInProgress_mem {self : Channel} {header : Header} {id : Id} (channel : ChannelId)
    (h : id ∈ (self.cancelInProgress header).incomingRequests) :
    id ∈ self.incomingRequests ∧
    ((self.cancelInProgress header).InTransfer channel id ∨ ¬ self.InTransfer channel id) ∧
      (id = header.id → ¬ self.InTransfer channel id) := by
  rcases self.cancelInProgress_cases header with ⟨he, hne⟩ | ⟨he, h', hr, hid⟩
  · rw [he] at h ⊢
    refine ⟨h, Classical.em _, ?_⟩
    intro hid htr
    refine hne _ htr ?_
    rw [Header.new_id, hid]
  · rw [he, Finset.mem_erase] at h
    have hnot : ¬ self.InTransfer channel id := by
      intro htr
      cases Option.some.inj (hr.symm.trans htr)
      rw [Header.new_id] at hid
      exact h.1 hid
    exact ⟨h.2, .inr hnot, fun _ => hnot⟩

end Channel

/-- A request that is registered after a step has been reported by it, is being transferred, or was
registered before and not being transferred. -/
theorem ChannelStep.registered {header : Header} {buffer b : Bytes} {self c : Channel} {kind : Kind}
    {o : Option ReadOutcome} {id : Id} (h : ChannelStep header buffer self kind o c b)
    (hk : header = Header.new kind header.channel header.id) (hid : id ∈ c.incomingRequests) :
    (∃ payload, o = some (.success (.newRequest header.channel id payload))) ∨
    c.InTransfer header.channel id ∨
      id ∈ self.incomingRequests ∧ ¬ self.InTransfer header.channel id := by
  -- the steps that leave the receiver alone, or leave its transfer open
  have hsame : ∀ {c : Channel}, id ∈ self.incomingRequests →
      c.currentMultiframeReceiver.inProgressHeader =
        self.currentMultiframeReceiver.inProgressHeader →
      c.InTransfer header.channel id ∨ id ∈ self.incomingRequests ∧
        ¬ self.InTransfer header.channel id := by
    intro c hmem he
    by_cases htr : self.InTransfer header.channel id
    · exact .inl (he.trans htr)
    · exact .inr ⟨hmem, htr⟩
  have hfree : id ∈ self.incomingRequests → self.currentMultiframeReceiver.inProgressHeader = none →
      id ∈ self.incomingRequests ∧ ¬ self.InTransfer header.channel id := by
    intro hmem hnone
    refine ⟨hmem, ?_⟩
    simp [Channel.InTransfer, hnone]
  cases h with
  | wait _ _ => exact .inr (hsame hid rfl)
  | refuse _ _ => exact .inr (hsame hid rfl)
  | request _ _ =>
    rw [Channel.register_incoming, Finset.mem_insert] at hid
    rcases hid with rfl | hid
    · exact .inl ⟨none, rfl⟩
    · exact .inr (hsame hid (by simp))
  | response _ => exact .inr (hsame hid rfl)
  | cancelResp _ => exact .inr (hsame hid rfl)
  | requestPlRefused frame receiver rest err ha hnew =>
    rcases ha.transfer_cases with ⟨he, _⟩ | ⟨hnone, _⟩ | ⟨_, hold, _⟩
    · exact .inr (hsame hid he)
    · exact .inr (.inr (hfree hid hnone))
    · simp [hold] at hnew
  | requestPlNew frame receiver rest ha hnew _ _ =>
    rw [Channel.register_incoming, Finset.mem_insert] at hid
    rcases ha.transfer_cases with ⟨he, hpay⟩ | ⟨hnone, hopen⟩ | ⟨_, hold, _⟩
    · rcases hid with rfl | hid
      · obtain ⟨payload, hpay⟩ := hpay hnew
        exact .inl ⟨some payload, by simp [completedAs, hpay]⟩
      · refine .inr (hsame hid ?_)
        rw [Channel.register_receiver]
        exact he
    · rcases hid with rfl | hid
      · refine .inr (.inl ?_)
        rw [Channel.InTransfer, Channel.register_receiver, ← hk]
        exact hopen
      · exact .inr (.inr (hfree hid hnone))
    · simp [hold] at hnew
  | requestPlMore frame receiver rest ha hnew =>
    rcases ha.transfer_cases with ⟨he, _⟩ | ⟨hnone, _⟩ | ⟨hopen, _, payload, hpay⟩
    · exact .inr (hsame hid he)
    · exact .inr (.inr (hfree hid hnone))
    · by_cases htr : self.InTransfer header.channel id
      · have hsame : header.id = id := by
          rw [Option.some.inj (hopen.symm.trans htr), Header.new_id]
        exact .inl ⟨some payload, by simp [completedAs, hpay, hsame]⟩
      · exact .inr (.inr ⟨hid, htr⟩)
  | responsePl frame receiver rest _ ha =>
    have hmem : id ∈ self.incomingRequests := by
      split at hid <;> exact hid
    rcases ha.transfer_cases with ⟨he, _⟩ | ⟨hnone, _⟩ | ⟨hopen, _, _⟩
    · refine .inr (hsame hmem ?_)
      split <;> exact he
    · exact .inr (.inr (hfree hmem hnone))
    · refine .inr (.inr ⟨hmem, ?_⟩)
      intro htr
      have hkind : (Header.new .requestPl header.channel id).kind = .ok .responsePl := by
        rw [← Option.some.inj (hopen.symm.trans htr), hk, Header.new_kind]
      rw [Header.new_kind] at hkind
      simp at hkind
  | cancelReqLate _ _ | cancelReq _ _ =>
    obtain ⟨hmem, htr, _⟩ := Channel.cancelInProgress_mem header.channel hid
    rcases htr with htr | htr
    · exact .inr (.inl htr)
    · exact .inr (.inr ⟨hmem, htr⟩)

/-- A cancellation is reported for a registered request that is not being transferred. -/
theorem ChannelStep.cancelled {header : Header} {buffer b : Bytes} {self c : Channel} {kind : Kind}
    {o : Option ReadOutcome} {channel : ChannelId} {id : Id}
    (h : ChannelStep header buffer self kind o c b)
    (ho : o = some (.success (.requestCancellation channel id))) :
    channel = header.channel ∧ id ∈ self.incomingRequests ∧ ¬ self.InTransfer channel id := by
  have hnot : ∀ (read : Option Bytes → CompletedRead) (frame : CompletedFrame),
      (∀ payload, read payload ≠ .requestCancellation channel id) →
      completedAs read frame ≠ some (.success (.requestCancellation channel id)) := by
    intro read frame hread he
    obtain ⟨payload, _, he⟩ := Option.map_eq_some_iff.mp he
    exact hread _ (Outcome.success.inj he)
  cases h with
  | requestPlNew frame _ _ _ _ _ _ => exact absurd ho (hnot _ frame (by simp))
  | requestPlMore frame _ _ _ _ => exact absurd ho (hnot _ frame (by simp))
  | responsePl frame _ _ _ _ => exact absurd ho (hnot _ frame (by simp))
  | cancelReq _ hmem =>
    simp only [Option.some.injEq, Outcome.success.injEq,
      CompletedRead.requestCancellation.injEq] at ho
    obtain ⟨rfl, rfl⟩ := ho
    obtain ⟨hin, _, htr⟩ := Channel.cancelInProgress_mem header.channel hmem
    exact ⟨rfl, hin, htr rfl⟩
  | _ => simp [errMsg] at ho

/-- The request has been reported, and has not been answered since. -/
def Live (channel : ChannelId) (id : Id) (es : List Entry) : Prop :=
  ∃ earlier e since payload, es = earlier ++ e :: since ∧
    e.read = some (.newRequest channel id payload) ∧
    Entry.answered channel id ∉ since

theorem Live.snoc {channel : ChannelId} {id : Id} {es : List Entry} {e : Entry}
    (h : Live channel id es) (he : e ≠ .answered channel id) : Live channel id (es ++ [e]) := by
  obtain ⟨earlier, e₁, since, payload, rfl, hread, hsince⟩ := h
  refine ⟨earlier, e₁, since ++ [e], payload, by simp, hread, ?_⟩
  simp [hsince, he.symm]

theorem live_of_read {channel : ChannelId} {id : Id} {payload : Option Bytes} {e : Entry}
    (h : e.read = some (.newRequest channel id payload)) (es : List Entry) :
    Live channel id (es ++ [e]) :=
  ⟨es, e, [], payload, rfl, h, by simp⟩

/-- The entry of a cancellation says that the request is not being transferred. -/
def Entry.NotTransferring (channel : ChannelId) (id : Id) : Entry → Prop
  | .frame _ transfer _ => transfer ≠ some (Header.new .requestPl channel id)
  | _ => True

namespace JulietProtocol

variable {N : Nat}

/-- Registered requests have been reported and are unanswered, unless they are being transferred;
and so have been those that the reported cancellations were for. -/
structure Reported (es : List Entry) (p : JulietProtocol N) : Prop where
  registered : ∀ {channel : ChannelId} {i : Fin N} {id}, channel.get.toNat = i →
    id ∈ (p.channels i).incomingRequests → Live channel id es ∨ (p.channels i).InTransfer channel id
  cancelled : ∀ {before e after channel id}, es = before ++ e :: after →
    e.read = some (.requestCancellation channel id) → Live channel id before ∧
      e.NotTransferring channel id

namespace Reported

variable {es : List Entry} {p s : JulietProtocol N}

/-- What is read by the new entry is justified if it is on its own. -/
theorem snoc {e : Entry} (h : Reported es p)
    (hreg : ∀ {channel : ChannelId} {i : Fin N} {id}, channel.get.toNat = i →
      id ∈ (s.channels i).incomingRequests →
      Live channel id (es ++ [e]) ∨ (s.channels i).InTransfer channel id)
    (he : ∀ {channel id}, e.read = some (.requestCancellation channel id) →
      Live channel id es ∧ e.NotTransferring channel id) : Reported (es ++ [e]) s := by
  refine ⟨hreg, ?_⟩
  intro before e' after channel id hes hread
  rcases List.eq_nil_or_concat after with rfl | ⟨after, last, rfl⟩
  · obtain ⟨rfl, hlast⟩ := List.append_inj' hes rfl
    cases List.singleton_inj.mp hlast
    exact he hread
  · have hes' : es ++ [e] = (before ++ e' :: after) ++ [last] := by simpa using hes
    obtain ⟨hes', _⟩ := List.append_inj' hes' rfl
    exact h.cancelled hes' hread

/-- Answering leaves the other requests registered, and the transfers open. -/
theorem of_answered {i j : Fin N} {channel : ChannelId} {id id' : Id} (h : Reported es p)
    (hj : channel.get.toNat = j) (hid : id' ∈ ((p.answered i id).channels j).incomingRequests) :
    (j = i → id' ≠ id) ∧ (Live channel id' es ∨
      ((p.answered i id).channels j).InTransfer channel id') := by
  have htransfer : ((p.answered i id).channels j).currentMultiframeReceiver =
      (p.channels j).currentMultiframeReceiver :=
    setChannel_field Channel.currentMultiframeReceiver (by rfl) j
  have hmem : (j = i → id' ≠ id) ∧ id' ∈ (p.channels j).incomingRequests := by
    by_cases he : j = i
    · subst he
      simp only [answered, setChannel_self, Finset.mem_erase] at hid
      exact ⟨fun _ => hid.1, hid.2⟩
    · simp only [answered, setChannel_of_ne _ he] at hid
      exact ⟨fun h => absurd h he, hid⟩
  refine ⟨hmem.1, ?_⟩
  rw [Channel.InTransfer, htransfer]
  exact h.registered hj hmem.2

theorem answer {channel : ChannelId} {i : Fin N} {id : Id} (h : Reported es p)
    (hi : channel.get.toNat = i) :
    Reported (es ++ [.answered channel id]) (p.answered i id) := by
  refine h.snoc ?_ (by simp [Entry.read])
  intro channel' j id' hj hid
  obtain ⟨hne, hreg⟩ := h.of_answered hj hid
  refine hreg.imp_left fun hlive => hlive.snoc ?_
  intro he
  simp only [Entry.answered.injEq] at he
  obtain ⟨rfl, rfl⟩ := he
  exact hne (Fin.ext (hj.symm.trans hi)) rfl

theorem request {channel : ChannelId} {i : Fin N} {id : Id} (h : Reported es p) :
    Reported (es ++ [.requested channel id]) (p.setChannel i ((p.channels i).withRequest id)) := by
  refine h.snoc ?_ (by simp [Entry.read])
  intro channel' j id' hj hid
  have htransfer : ((p.setChannel i ((p.channels i).withRequest id)).channels
      j).currentMultiframeReceiver =
      (p.channels j).currentMultiframeReceiver :=
        setChannel_field Channel.currentMultiframeReceiver (by rfl) j
  have hincoming : ((p.setChannel i ((p.channels i).withRequest id)).channels j).incomingRequests =
      (p.channels j).incomingRequests := setChannel_field Channel.incomingRequests (by rfl) j
  rw [hincoming] at hid
  rw [Channel.InTransfer, htransfer]
  exact (h.registered hj hid).imp_left fun hlive => hlive.snoc (by simp)

theorem frame {buffer b : Bytes} {o : Option ReadOutcome} (h : Reported es p)
    (hs : FrameStep p buffer o s b) :
    Reported (es ++ [p.frameEntry buffer o]) s := by
  have hkeep : ∀ {channel : ChannelId} {i : Fin N} {id : Id}, channel.get.toNat = i →
      id ∈ (p.channels i).incomingRequests →
      Live channel id (es ++ [p.frameEntry buffer o]) ∨ (p.channels i).InTransfer channel id := by
    intro channel i id hi hid
    exact (h.registered hi hid).imp_left fun hlive => hlive.snoc (by simp [frameEntry])
  cases hs with
  | wait _ => exact h.snoc hkeep (by simp [frameEntry, Entry.read])
  | refuse _ _ => exact h.snoc hkeep (by simp [frameEntry, Entry.read])
  | error _ _ _ _ _ _ _ => exact h.snoc hkeep (by simp [frameEntry, Entry.read])
  | frame header kind i o c b hf hk hi hs =>
    refine h.snoc ?_ ?_
    · intro channel j id hj hid
      by_cases hij : j = i
      · subst hij
        cases ChannelId.ext_toNat (hj.trans hi.symm)
        rw [setChannel_self] at hid ⊢
        rcases hs.registered hk hid with ⟨payload, rfl⟩ | htr | ⟨hmem, htr⟩
        · exact .inl (live_of_read (show Entry.read _ = some (.newRequest _ _ payload) from rfl) es)
        · exact .inr htr
        · exact (hkeep hi hmem).imp_right fun htr' => absurd htr' htr
      · rw [setChannel_of_ne _ hij] at hid ⊢
        exact hkeep hj hid
    · intro channel id hread
      have ho : o = some (.success (.requestCancellation channel id)) := by
        rcases o with _ | _ | _ | _
        · simp [frameEntry, Entry.read] at hread
        · simp [frameEntry, Entry.read] at hread
        · simp [frameEntry, Entry.read] at hread
        · rw [Option.some.inj hread]
      obtain ⟨rfl, hmem, htr⟩ := hs.cancelled ho
      refine ⟨(h.registered hi hmem).resolve_right htr, ?_⟩
      rw [frameEntry_of hf hi]
      exact htr

end Reported

/-- Against any peer and in any order of calls, a cancellation is reported only for a request that
has been reported, that has not been answered since, and that is not being transferred. -/
theorem cancellation_follows_report {builder : ProtocolBuilder N} {es before after : List Entry}
    {e : Entry} {p : JulietProtocol N} {calling : Option Bytes} {channel : ChannelId} {id : Id}
    (h : Traced builder es p calling) (hes : es = before ++ e :: after)
    (he : e.read = some (.requestCancellation channel id)) :
    (∃ earlier e₁ since payload, before = earlier ++ e₁ :: since ∧
      e₁.read = some (.newRequest channel id payload) ∧ Entry.answered channel id ∉ since) ∧
    e.NotTransferring channel id := by
  have hinv : Reported es p := by
    refine h.invariant ?_ ?_ ?_ ?_ ?_
    · exact ⟨by simp [ProtocolBuilder.build, Channel.new], by simp⟩
    · exact fun hP _ _ _ => hP.request
    · exact fun hP hi _ => hP.answer hi
    · intro es p i id hP
      exact ⟨fun hj hid => (hP.of_answered hj hid).2, hP.cancelled⟩
    · exact fun hP _ hs => hP.frame hs
  exact hinv.cancelled hes he

/-- A request is reported, and then its cancellation. -/
theorem cancellation_follows_report_once :
    ∃ es p e₁ e₂, Traced smallBuilder es p none ∧ es = [e₁] ++ e₂ :: [] ∧
    e₂.read = some (.requestCancellation ⟨0⟩ ⟨1⟩) ∧ Live ⟨0⟩ ⟨1⟩ [e₁] ∧
    e₂.NotTransferring ⟨0⟩ ⟨1⟩ := by
  have h1 := (Traced.build.call (Header.new .request ⟨0⟩ ⟨1⟩).bytes).stop
    (show smallBuilder.build.processFrame _ = .ok (some _, _, _) from rfl)
  have h2 := (h1.call (Header.new .cancelReq ⟨0⟩ ⟨1⟩).bytes).stop rfl
  exact ⟨_, _, _, _, h2, rfl, rfl, cancellation_follows_report h2 rfl rfl⟩

end JulietProtocol

end Juliet
