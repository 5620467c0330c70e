import Juliet.Answers
import Juliet.Traces

namespace Juliet

open Rust

/-- What an entry has to do with a channel and id: a request with them is created (`true`), or an
answer to one is read (`false`). -/
def Entry.exchange (key : ChannelId × Id) : Entry → Option Bool
  | .requested channel id => if (channel, id) = key then some true else none
  | .answered _ _ => none
  | .frame _ _ outcome => if answeredBy outcome = some key then some false else none

/-- Requests and answers for a channel and id, in order. -/
def exchanges (key : ChannelId × Id) (es : List Entry) : List Bool :=
  es.filterMap (Entry.exchange key)

def alternates : Bool → List Bool → Bool
  | _, [] => true
  | next, x :: xs => x == next && alternates (!next) xs

theorem alternates_snoc {next x : Bool} {xs : List Bool} (h : alternates next xs = true)
    (hx : x = (next == decide (xs.length % 2 = 0))) : alternates next (xs ++ [x]) = true := by
  induction xs generalizing next with
  | nil =>
    subst hx
    simp [alternates]
  | cons y xs ih =>
    simp only [alternates, Bool.and_eq_true, List.cons_append] at h ⊢
    refine ⟨h.1, ih h.2 ?_⟩
    rw [hx, List.length_cons]
    have hpar : decide ((xs.length + 1) % 2 = 0) = !decide (xs.length % 2 = 0) := by
      rw [← decide_not, decide_eq_decide]
      omega
    rw [hpar]
    cases next <;> simp

theorem exchanges_of_none {key : ChannelId × Id} {es : List Entry} {e : Entry}
    (h : e.exchange key = none) :
    exchanges key (es ++ [e]) = exchanges key es := by
  simp [exchanges, h]

theorem exchanges_of_some {key : ChannelId × Id} {es : List Entry} {e : Entry} {x : Bool}
    (h : e.exchange key = some x) :
    exchanges key (es ++ [e]) = exchanges key es ++ [x] := by
  simp [exchanges, h]

namespace JulietProtocol

variable {N : Nat}

/-- The requests that are outstanding are those of which the last exchange was the request. -/
def Exchanging (es : List Entry) (p : JulietProtocol N) : Prop :=
  ∀ key, alternates true (exchanges key es) = true ∧ ∀ i : Fin N, key.1.get.toNat = i →
    (key.2 ∈ (p.channels i).outgoingRequests ↔ (exchanges key es).length % 2 = 1)

namespace Exchanging

variable {es : List Entry} {p s : JulietProtocol N}

/-- Steps that are no exchange. -/
theorem congr {e : Entry} {key : ChannelId × Id} (h : Exchanging es p) (he : e.exchange key = none)
    (ho : ∀ i : Fin N, key.1.get.toNat = i →
      (key.2 ∈ (s.channels i).outgoingRequests ↔ key.2 ∈ (p.channels i).outgoingRequests)) :
    alternates true (exchanges key (es ++ [e])) = true ∧ ∀ i : Fin N, key.1.get.toNat = i →
      (key.2 ∈ (s.channels i).outgoingRequests ↔ (exchanges key (es ++ [e])).length % 2 = 1) := by
  obtain ⟨hall, hout⟩ := h key
  rw [exchanges_of_none he]
  refine ⟨hall, ?_⟩
  intro i hi
  rw [ho i hi]
  exact hout i hi

theorem request {channel : ChannelId} {i : Fin N} {id : Id} (h : Exchanging es p)
    (hi : channel.get.toNat = i) (hid : (p.channels i).Generates id) :
    Exchanging (es ++ [.requested channel id])
      (p.setChannel i ((p.channels i).withRequest id)) := by
  intro key
  by_cases hkey : (channel, id) = key
  · subst hkey
    obtain ⟨hall, hout⟩ := h (channel, id)
    have heven : (exchanges (channel, id) es).length % 2 = 0 := by
      have := (hout i hi).not.mp hid.free
      omega
    rw [exchanges_of_some (show (Entry.requested channel id).exchange (channel, id) =
      some true from if_pos rfl)]
    refine ⟨alternates_snoc hall (by simp [heven]), ?_⟩
    intro j hj
    have he : j = i := Fin.ext (hj.symm.trans hi)
    subst he
    rw [setChannel_self, List.length_append, List.length_singleton]
    simp only [Channel.withRequest, Finset.mem_insert_self, true_iff]
    omega
  · refine h.congr (if_neg hkey) ?_
    intro j hj
    by_cases he : j = i
    · subst he
      rw [setChannel_self, Channel.withRequest, Finset.mem_insert]
      refine or_iff_right ?_
      intro he
      exact hkey (Prod.ext (ChannelId.ext_toNat (hi.trans hj.symm)) he.symm)
    · rw [setChannel_of_ne _ he]

theorem frame {buffer b : Bytes} {o : Option ReadOutcome} (h : Exchanging es p)
    (hs : FrameStep p buffer o s b) :
    Exchanging (es ++ [p.frameEntry buffer o]) s := by
  intro key
  have hsettles := hs.settles
  by_cases hans : answeredBy o = some key
  · have hlt := hsettles.known key.1 key.2 hans
    have hchannel := (hsettles.channels ⟨key.1.get.toNat, hlt⟩).2.2
    simp only [hans, if_true] at hchannel
    obtain ⟨hmem, herase⟩ := hchannel
    obtain ⟨hall, hout⟩ := h key
    have hodd := (hout ⟨key.1.get.toNat, hlt⟩ rfl).mp hmem
    rw [exchanges_of_some (show (p.frameEntry buffer o).exchange key = some false from if_pos hans)]
    refine ⟨alternates_snoc hall (by simp [hodd]), ?_⟩
    intro j hj
    have he : j = ⟨key.1.get.toNat, hlt⟩ := Fin.ext hj.symm
    subst he
    rw [herase, List.length_append, List.length_singleton]
    simp only [Finset.notMem_erase, false_iff]
    omega
  · refine h.congr (show (p.frameEntry buffer o).exchange key = none from if_neg hans) ?_
    intro j hj
    have hchannel := (hsettles.channels j).2.2
    split at hchannel
    next channel id ha =>
      split at hchannel
      next hc =>
        rw [hchannel.2, Finset.mem_erase]
        refine and_iff_right ?_
        intro he
        apply hans
        rw [ha, ← he, ChannelId.ext_toNat (hc.trans hj.symm)]
      next => rw [hchannel]
    next => rw [hchannel]

end Exchanging

/-- Against any peer and in any order of calls, requests with a given channel and id and answers to
them take turns, and a request comes first. -/
theorem requests_and_answers_alternate {builder : ProtocolBuilder N} {es : List Entry}
    {p : JulietProtocol N} {calling : Option Bytes} (h : Traced builder es p calling)
    (key : ChannelId × Id) :
    alternates true (exchanges key es) = true := by
  have hinv : Exchanging es p := by
    refine h.invariant ?_ ?_ ?_ ?_ ?_
    · intro key
      refine ⟨rfl, ?_⟩
      intro i _
      simp [exchanges, ProtocolBuilder.build, Channel.new]
    · exact fun hP _ hi hid => hP.request hi hid
    · intro es p channel i id hP _ _ key
      refine hP.congr rfl ?_
      intro j _
      rw [answered_outgoing]
    · intro es p i id hP key
      obtain ⟨hall, hout⟩ := hP key
      refine ⟨hall, ?_⟩
      intro j hj
      rw [answered_outgoing]
      exact hout j hj
    · exact fun hP _ hs => hP.frame hs
  exact (hinv key).1

/-- A request is created and answered. -/
theorem requests_and_answers_alternate_once : ∃ es p, Traced smallBuilder es p none ∧
    exchanges (⟨0⟩, ⟨1⟩) es = [true, false] ∧ alternates true (exchanges (⟨0⟩, ⟨1⟩) es) = true := by
  have h1 := Traced.build.createRequest (show smallBuilder.build.createRequest ⟨0⟩ none =
      .ok (.ok _, _) from rfl)
  have h2 := (h1.call (Header.new .response ⟨0⟩ ⟨1⟩).bytes).stop rfl
  exact ⟨_, _, h2, rfl, requests_and_answers_alternate h2 _⟩

end JulietProtocol

end Juliet
