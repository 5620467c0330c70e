import Juliet.Isolation
import Juliet.RequestCustody
import Juliet.RoundRobin

namespace Juliet

open Rust

namespace IoCore

variable {N : Nat} {self c : IoCore N}

/-- The messages that wait for the turn of their next frame. -/
def readySerials (self : IoCore N) : List Nat := self.readyQueue.map ReadyEntry.serial

theorem made_readySerials (hs : Relation.ReflTransGen Makes self c) :
    ∃ n, c.readySerials = self.readySerials ++ List.range' self.history.length n := by
  obtain ⟨new, _, hf, hc, _⟩ := made_grows hs
  refine ⟨new.length, ?_⟩
  rw [flight, flight, hc, List.append_assoc] at hf
  exact List.append_cancel_left hf

end IoCore

namespace IoTask

variable {N : Nat} {t t' : IoTask N}

/-- The messages whose frames have been taken from the ready queue, frame by frame. -/
def turns (t : IoTask N) : List Nat :=
  t.sentFrames.map Prod.fst ++ (t.core.currentFrame.map CurrentFrame.serial).toList

def rota (t : IoTask N) : RoundRobin.Rota Nat := ⟨t.core.readySerials, t.turns⟩

theorem Emitting.turns_lt (h : Emitting t) : ∀ k ∈ t.turns, k < t.core.history.length := by
  intro k hk
  rcases List.mem_append.mp hk with hk | hk
  · exact h.numbered k (List.mem_append_left _ hk)
  · exact h.lined.numbered k (List.mem_append_left _ hk)

/-- Messages that are created join behind the others. -/
theorem joins {c c' : IoCore N} {taken : List Nat} (hs : Relation.ReflTransGen IoCore.Makes c c')
    (hl : c.Lined) (hlt : ∀ k ∈ taken, k < c.history.length) :
    RoundRobin.Moves ⟨c.readySerials, taken⟩ ⟨c'.readySerials, taken⟩ := by
  obtain ⟨n, hn⟩ := IoCore.made_readySerials hs
  have honce : c'.readySerials.Nodup := (hl.made hs).once
  rw [hn] at honce ⊢
  refine .join (s := ⟨c.readySerials, taken⟩) (List.range' c.history.length n) honce ?_
  intro k hk hin
  rw [List.mem_range'_1] at hk
  have := hlt k hin
  omega

/-- A step of a task is made of moves of the round-robin. -/
theorem Effect.moves (he : Effect t t') (h : Emitting t) :
    Relation.ReflTransGen RoundRobin.Moves t.rota t'.rota := by
  cases he with
  | made hs _ hsent =>
    obtain ⟨_, _, _, hc, _⟩ := IoCore.made_grows hs
    have hturns : t'.turns = t.turns := by rw [turns, turns, hsent, hc]
    rw [rota, rota, hturns]
    exact .single (joins hs h.lined h.turns_lt)
  | readied c hs hready _ hsent =>
    obtain ⟨_, _, _, hc, _⟩ := IoCore.made_grows hs
    refine .head (joins hs h.lined h.turns_lt) ?_
    rw [rota, turns, turns, hsent, ← hc]
    generalize t'.core = c' at hready
    cases hready with
    | busy _ _ => exact .refl
    | empty _ _ => exact .refl
    | more entry rest next hnone hq _ =>
      have hfirst : c.readySerials = entry.serial :: rest.map ReadyEntry.serial := by
        rw [IoCore.readySerials, hq]; rfl
      simpa [IoCore.readySerials, hnone] using Relation.ReflTransGen.single
        (RoundRobin.Moves.again (s := ⟨c.readySerials, t.sentFrames.map Prod.fst⟩)
          entry.serial _ hfirst)
    | final entry rest hnone hq _ =>
      have hfirst : c.readySerials = entry.serial :: rest.map ReadyEntry.serial := by
        rw [IoCore.readySerials, hq]; rfl
      simpa [IoCore.readySerials, hnone] using Relation.ReflTransGen.single
        (RoundRobin.Moves.leave (s := ⟨c.readySerials, t.sentFrames.map Prod.fst⟩)
          entry.serial _ hfirst)
  | wrote current k hc _ hcore _ hsent =>
    have hsame : t'.rota = t.rota := by
      rw [rota, rota, turns, turns, hsent, hcore, hc]
      rfl
    rw [hsame]
  | sent current i hc _ hs _ hsent =>
    obtain ⟨_, _, _, hnone, _⟩ := IoCore.made_grows hs
    have hturns : t'.turns = t.turns := by
      rw [turns, turns, hsent, hnone, hc]
      simp [IoCore.cleared]
    have hjoins := joins hs (h.lined.cleared current i) h.turns_lt
    rw [rota, rota, hturns]
    exact .single hjoins

/-- A task and the moves of its round-robin since some state. -/
structure InTurn (origin : RoundRobin.Rota Nat) (t : IoTask N) : Prop where
  sound : t.core.Sound
  emitting : t.Live → Emitting t
  moved : t.Live → Relation.ReflTransGen RoundRobin.Moves origin t.rota

theorem InTurn.new (builder : ProtocolBuilder N) : InTurn ⟨[], []⟩ (IoTask.new builder) where
  sound := IoCore.new_sound builder
  emitting _ := .new builder
  moved _ := .refl

theorem InTurn.step {origin : RoundRobin.Rota Nat} {a : IoAct} (h : InTurn origin t)
    (hs : Step t a t') : InTurn origin t' := by
  refine ⟨hs.sound h.sound, ?_, ?_⟩
  · intro hlive
    exact (h.emitting (hs.live h.sound hlive)).step hs hlive.1
  · intro hlive
    have hwas := hs.live h.sound hlive
    exact (h.moved hwas).trans ((hs.effect h.sound hwas.1 hlive.1).moves (h.emitting hwas))

/-- Messages take turns to have their frames sent, from every state of a run on, as long as no error
is to be sent: the next frames are those of the messages that wait in the ready queue, one of each
and in order, and those that have had no turn wait on in front; and between two frames of one
message there is at most one frame of each other one. -/
theorem frames_take_turns {builder : ProtocolBuilder N} (h : Reach builder anyStep t)
    (hrun : Transition.Reach step (fun t a => anyStep t a) t t') (hlive : t'.Live) :
    (∃ since, t'.turns = t.turns ++ since ∧
      ((∃ rest more, t.core.readySerials = since ++ rest ∧ t'.core.readySerials = rest ++ more) ∨
        t.core.readySerials <+: since)) ∧
    ∀ before k since after, t'.turns = before ++ k :: (since ++ k :: after) →
      k ∉ since → since.Nodup := by
  have hfrom : InTurn ⟨[], []⟩ t := Reach.keeps (.new builder) (fun hP _ hs => hP.step hs) h
  have hall : InTurn ⟨[], []⟩ t' := hrun.invariant hfrom fun hP _ hs => hP.step (step_steps hs)
  have hsince : InTurn t.rota t' :=
    hrun.invariant ⟨hfrom.sound, hfrom.emitting,
      fun _ => .refl⟩ fun hP _ hs => hP.step (step_steps hs)
  exact ⟨RoundRobin.in_order (hsince.moved hlive),
    (RoundRobin.Even.new.run (hall.moved hlive)).between⟩

/-- A request of two frames on each of two channels. -/
def interleaved : List IoAct :=
  [.enqueue (.request ⟨0⟩ ⟨1⟩ (some [1, 2, 3, 4, 5, 6, 7, 8])),
    .enqueue (.request ⟨1⟩ ⟨2⟩ (some [8, 7, 6, 5, 4, 3, 2, 1])), .turn, .recv, .tryRecv, .tryRecv]

theorem frames_take_turns_interleaved :
    ∃ t t' : IoTask 2, t.core.readySerials = [0, 1] ∧ t'.turns = [0, 1, 0, 1] ∧ t'.Live ∧
    ∃ since, t'.turns = t.turns ++ since ∧
      ((∃ rest more, t.core.readySerials = since ++ rest ∧ t'.core.readySerials = rest ++ more) ∨
        t.core.readySerials <+: since) := by
  have hrun : (run JulietProtocol.twoChannels anyStep interleaved).map
      (fun t => t.core.readySerials) = some [0, 1] := rfl
  obtain ⟨t, ht, hready⟩ := Option.map_eq_some_iff.mp hrun
  have hmore : ((run JulietProtocol.twoChannels anyStep interleaved).bind
      (Transition.exec step anyStep
      [.turn, .write 10, .turn, .write 10, .turn, .write 7,
        .turn])).map (fun t => (t.turns, t.core.pendingError,
        t.position)) = some ([0, 1, 0, 1], none, .select) := rfl
  rw [ht, Option.bind_some] at hmore
  obtain ⟨t', ht', he⟩ := Option.map_eq_some_iff.mp hmore
  simp only [Prod.mk.injEq] at he
  obtain ⟨hturns, hp, hpos⟩ := he
  have hlive : t'.Live := ⟨hp, by simp [hpos], by simp [hpos]⟩
  exact ⟨t, t', hready, hturns, hlive,
    (frames_take_turns (Transition.Reach.exec .start ht)
      (Transition.Reach.exec .start ht') hlive).1⟩

end IoTask

end Juliet
