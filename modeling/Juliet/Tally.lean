import Juliet.AnswerEvents
import Juliet.CouplingTasks

namespace Juliet

open Rust

/-- The channel and id of the request that a read reports. -/
def CompletedRead.asked : CompletedRead → Option (ChannelId × Id)
  | .newRequest channel id _ => some (channel, id)
  | _ => none

def requestsUnder (key : ChannelId × Id) (reads : List CompletedRead) : List CompletedRead :=
  reads.filter fun read => read.asked = some key

def answersUnder (key : ChannelId × Id) (reads : List CompletedRead) : List CompletedRead :=
  reads.filter fun read => read.answered = some key

theorem requestsUnder_append (key : ChannelId × Id) (reads more : List CompletedRead) :
    requestsUnder key (reads ++ more) = requestsUnder key reads ++ requestsUnder key more :=
  List.filter_append _ _

theorem answersUnder_append (key : ChannelId × Id) (reads more : List CompletedRead) :
    answersUnder key (reads ++ more) = answersUnder key reads ++ answersUnder key more :=
  List.filter_append _ _

theorem readsIn_append (outcomes more : List ReadOutcome) :
    readsIn (outcomes ++ more) = readsIn outcomes ++ readsIn more :=
  List.flatMap_append

/-- A call of `process_incoming` reads the answer that it settles a request with. -/
theorem answersUnder_outcome (key : ChannelId × Id) (outcome : Option ReadOutcome) :
    (answersUnder key (JulietProtocol.readsOf outcome)).length =
      if answeredBy outcome = some key then 1 else 0 := by
  cases outcome with
  | none => rfl
  | some o =>
    cases o with
    | success read =>
      by_cases hread : read.answered = some key <;> simp [JulietProtocol.readsOf,
        answersUnder, answeredBy, hread]
    | _ => rfl

namespace IoCore

variable {N : Nat} {self c : IoCore N} {answers : ChannelId × Id → Nat}

/-- What the peer is to read of the messages created so far. -/
def announced (self : IoCore N) : List CompletedRead := self.history.filterMap Sent.announced

/-- Whether a request with the channel and id is outstanding. -/
def awaits (self : IoCore N) (key : ChannelId × Id) : Bool :=
  if h : key.1.get.toNat < N then
    key.2 ∈ (self.juliet.channels ⟨key.1.get.toNat, h⟩).outgoingRequests
  else false

theorem awaits_of {key : ChannelId × Id} {i : Fin N} (hi : key.1.get.toNat = i) (self : IoCore N) :
    self.awaits key = decide (key.2 ∈ (self.juliet.channels i).outgoingRequests) := by
  have hlt : key.1.get.toNat < N := hi ▸ i.isLt
  have he : (⟨key.1.get.toNat, hlt⟩ : Fin N) = i := Fin.ext hi
  simp only [awaits, hlt, dif_pos, he]

theorem awaits_unknown {key : ChannelId × Id} (hi : ¬ key.1.get.toNat < N) (self : IoCore N) :
    self.awaits key = false := by
  simp [awaits, hi]

theorem awaits_congr
    (h : ∀ i, (c.juliet.channels i).outgoingRequests = (self.juliet.channels i).outgoingRequests)
    (key : ChannelId × Id) : c.awaits key = self.awaits key := by
  by_cases hi : key.1.get.toNat < N
  · rw [awaits_of (i := ⟨_, hi⟩) rfl, awaits_of (i := ⟨_, hi⟩) rfl, h]
  · rw [awaits_unknown hi, awaits_unknown hi]

theorem awaits_answered {o : ReadOutcome} {juliet : JulietProtocol N} {buffer : Bytes}
    {key : ChannelId × Id} (hv : self.juliet.Valid)
    (hp : self.juliet.processIncoming self.buffer = .ok (o, juliet, buffer))
    (ha : answeredBy (some o) = some key) : self.awaits key = true := by
  have hsettles := JulietProtocol.processIncoming_settles hv hp
  have hlt := hsettles.known key.1 key.2 ha
  have hout := (hsettles.channels ⟨_, hlt⟩).2.2
  simp only [ha, if_true] at hout
  rw [awaits_of (i := ⟨_, hlt⟩) rfl, decide_eq_true_iff]
  exact hout.1

/-- Reading an answer takes the request that it answers off the outstanding ones. -/
theorem awaits_parsed {o : ReadOutcome} {juliet : JulietProtocol N} {buffer : Bytes}
    (hv : self.juliet.Valid)
    (hp : self.juliet.processIncoming self.buffer = .ok (o, juliet, buffer))
    (key : ChannelId × Id) :
    (self.parsed juliet buffer).awaits key =
      (self.awaits key && decide (answeredBy (some o) ≠ some key)) := by
  have hsettles := JulietProtocol.processIncoming_settles hv hp
  by_cases hlt : key.1.get.toNat < N
  · rw [awaits_of (i := ⟨_, hlt⟩) rfl, awaits_of (i := ⟨_, hlt⟩) rfl]
    have hout := (hsettles.channels ⟨_, hlt⟩).2.2
    show decide (key.2 ∈ (juliet.channels ⟨_, hlt⟩).outgoingRequests) = _
    cases ha : answeredBy (some o) with
    | none =>
      simp only [ha] at hout
      simp [hout]
    | some answer =>
      obtain ⟨channel, id⟩ := answer
      simp only [ha] at hout
      by_cases hc : channel.get.toNat = key.1.get.toNat
      · rw [if_pos hc] at hout
        obtain rfl : channel = key.1 := ChannelId.ext_toNat hc
        by_cases hid : id = key.2
        · subst hid
          simp [hout.2]
        · have hne : (key.1, id) ≠ key := fun he => hid (congrArg Prod.snd he)
          simp [hout.2, hne, Ne.symm hid]
      · rw [if_neg hc] at hout
        have hne : (channel, id) ≠ key := fun he => hc (congrArg (fun key => key.1.get.toNat) he)
        simp [hout, hne]
  · rw [awaits_unknown hlt, awaits_unknown hlt, Bool.false_and]

/-- A request that is created is outstanding. -/
theorem awaits_withRequest {i : Fin N} {channel : ChannelId} {item : QueuedItem}
    {msg : OutgoingMessage} {id : Id} {requestMap : BiMap IoId (ChannelId × Id)}
    (hi : channel.get.toNat = i) (key : ChannelId × Id) :
    (self.created i item msg (self.juliet.setChannel i ((self.juliet.channels i).withRequest id))
      requestMap).awaits key =
      (self.awaits key || decide (key = (channel, id))) := by
  by_cases hlt : key.1.get.toNat < N
  · rw [awaits_of (i := ⟨_, hlt⟩) rfl, awaits_of (i := ⟨_, hlt⟩) rfl, created_juliet]
    by_cases hj : (⟨key.1.get.toNat, hlt⟩ : Fin N) = i
    · have hc : key.1 = channel := ChannelId.ext_toNat ((congrArg Fin.val hj).trans hi.symm)
      have hkey : key = (channel, id) ↔ key.2 = id := by rw [Prod.ext_iff, hc, and_iff_right rfl]
      rw [hj, JulietProtocol.setChannel_self]
      simp [Channel.withRequest, hkey, Bool.or_comm]
    · have hkey : key ≠ (channel, id) := by
        rintro rfl
        exact hj (Fin.ext hi)
      rw [JulietProtocol.setChannel_of_ne _ hj]
      simp [hkey]
  · have hkey : key ≠ (channel, id) := by
      rintro rfl
      exact hlt (hi ▸ i.isLt)
    simp [awaits_unknown hlt, hkey]

/-- As many requests have been created with each channel and id as answers to them have been read,
and one more while one is outstanding. -/
def Tallied (answers : ChannelId × Id → Nat) (self : IoCore N) : Prop :=
  ∀ key, (requestsUnder key self.announced).length = answers key + (self.awaits key).toNat

namespace Tallied

/-- Steps that create no message and settle no request. -/
theorem congr (h : Tallied answers self) (hh : c.history = self.history)
    (ho : ∀ i, (c.juliet.channels i).outgoingRequests = (self.juliet.channels i).outgoingRequests) :
    Tallied answers c := by
  intro key
  rw [announced, hh, awaits_congr ho]
  exact h key

theorem idle (h : Tallied answers self) (hh : c.history = self.history)
    (hj : c.juliet = self.juliet) :
    Tallied answers c :=
  h.congr hh fun i => by rw [hj]

/-- Messages that carry no request. -/
theorem created {i : Fin N} {item : QueuedItem} {msg : OutgoingMessage} {juliet : JulietProtocol N}
    {requestMap : BiMap IoId (ChannelId × Id)} (h : Tallied answers self)
    (hitem : ∀ read ∈ Sent.announced ⟨item, msg⟩, read.asked = none)
    (ho : ∀ i, (juliet.channels i).outgoingRequests = (self.juliet.channels i).outgoingRequests) :
    Tallied answers (self.created i item msg juliet requestMap) := by
  intro key
  have hnone : requestsUnder key (Sent.announced ⟨item, msg⟩).toList = [] := by
    refine List.filter_eq_nil_iff.mpr fun read hin => ?_
    simp [hitem read (Option.mem_toList.mp hin)]
  have hkey : (self.created i item msg juliet requestMap).awaits key = self.awaits key := by
    refine awaits_congr (fun j => ?_) key
    rw [created_juliet, ho]
  rw [hkey, announced, created_history, List.filterMap_append, requestsUnder_append, ← h key]
  have hlast : [(⟨item, msg⟩ : Sent)].filterMap Sent.announced =
      (Sent.announced ⟨item, msg⟩).toList := by
    cases hs : Sent.announced ⟨item, msg⟩ <;> simp [hs]
  rw [hlast, hnone, List.append_nil, announced]

/-- A request gets an id that is not outstanding. -/
theorem withRequest {i : Fin N} {channel : ChannelId} {ioId : IoId} {payload : Option Bytes}
    {id : Id} {requestMap : BiMap IoId (ChannelId × Id)} (h : Tallied answers self)
    (hi : channel.get.toNat = i) (hid : (self.juliet.channels i).Generates id) :
    Tallied answers (self.created i (.request channel ioId payload)
      (Channel.requestMessage channel id payload)
      (self.juliet.setChannel i ((self.juliet.channels i).withRequest id)) requestMap) := by
  intro key
  have hlast : (self.created i (.request channel ioId payload)
      (Channel.requestMessage channel id payload)
      (self.juliet.setChannel i ((self.juliet.channels i).withRequest id)) requestMap).announced =
        self.announced ++ [.newRequest channel id payload] := by
    rw [announced, created_history, List.filterMap_append]
    simp [Sent.announced, announced]
  rw [hlast, requestsUnder_append, List.length_append, h key, awaits_withRequest hi]
  by_cases hkey : key = (channel, id)
  · subst hkey
    have hfree : self.awaits (channel, id) = false := by
      rw [awaits_of hi, decide_eq_false_iff_not]
      exact hid.free
    simp [hfree, requestsUnder, CompletedRead.asked]
  · have hne : (channel, id) ≠ key := fun he => hkey he.symm
    simp [hkey, requestsUnder, CompletedRead.asked, hne]

theorem sendStep {item : QueuedItem} {r : Except LocalProtocolViolation Unit}
    (h : Tallied answers self) (hs : SendStep self item r c) : Tallied answers c := by
  cases hs with
  | request channel ioId payload i id hi _ _ hid => exact h.withRequest hi hid
  | cancel ioId channel i id _ _ _ =>
    exact h.created (by simp [Sent.announced, CompletedRead.asked]) fun _ => rfl
  | response channel id payload i _ _ _ =>
    exact h.created (by simp [Sent.announced, CompletedRead.asked])
      fun j => JulietProtocol.answered_outgoing _ i j id
  | responseCancellation channel id i _ _ =>
    exact h.created (by simp [Sent.announced, CompletedRead.asked])
      fun j => JulietProtocol.answered_outgoing _ i j id
  | late _ _ _ => exact h
  | refused _ _ => exact h
  | oversized channel id payload i _ _ _ _ =>
    exact h.congr rfl fun j => JulietProtocol.answered_outgoing _ i j id
  | error channel id payload frame _ _ => exact h.idle rfl rfl

theorem scanStep {i : Fin N} (h : Tallied answers self) (hs : ScanStep i self c) :
    Tallied answers c := by
  cases hs with
  | rotate _ _ _ _ _ => exact h.idle rfl rfl
  | lose _ _ _ => exact h.idle rfl rfl
  | promote item rest r c _ _ hs =>
    have hset : Tallied answers (self.setWaitQueue i rest) := h.idle rfl rfl
    exact hset.sendStep hs

theorem processWaitQueue {channel : ChannelId} {r : Except LocalProtocolViolation Unit}
    (h : Tallied answers self) (hq : self.processWaitQueue channel = .ok (r, c)) :
    Tallied answers c :=
  processWaitQueue_keeps hq h fun h hs => h.scanStep hs

theorem handleCompletedRead (h : Tallied answers self) (read : CompletedRead) :
    Tallied answers (self.handleCompletedRead read).2 := by
  rcases self.handleCompletedRead_core read with he | ⟨key, he⟩
  · rw [he]
    exact h
  · rw [he]
    exact h.idle rfl rfl

/-- An answer that is read settles the request that is outstanding. -/
theorem parsed {o : ReadOutcome} {juliet : JulietProtocol N} {buffer : Bytes}
    (h : Tallied answers self) (hv : self.juliet.Valid)
    (hp : self.juliet.processIncoming self.buffer = .ok (o, juliet, buffer)) :
    Tallied (fun key => answers key + if answeredBy (some o) = some key then 1 else 0)
      (self.parsed juliet buffer) := by
  intro key
  have hsame : (self.parsed juliet buffer).announced = self.announced := rfl
  rw [hsame, h key, awaits_parsed hv hp]
  by_cases ha : answeredBy (some o) = some key
  · simp [ha, awaits_answered hv hp ha]
  · simp [ha]

theorem parseStep {outcome : Option ReadOutcome} {result : Option (Except CoreError IoEvent)}
    (h : Tallied answers self) (hsound : self.Sound) (hs : ParseStep self outcome result c) :
    Tallied (fun key => answers key + if answeredBy outcome = some key then 1 else 0) c := by
  cases hs with
  | skip _ => simpa [answeredBy] using h
  | incomplete n juliet buffer hp => exact (h.parsed hsound.valid hp).idle rfl rfl
  | fatal errMsg juliet buffer frame hp _ _ => exact (h.parsed hsound.valid hp).idle rfl rfl
  | event read juliet buffer hp _ => exact (h.parsed hsound.valid hp).handleCompletedRead read
  | response channel id payload juliet buffer c hp hq =>
    exact ((h.parsed hsound.valid hp).processWaitQueue hq).handleCompletedRead _
  | violation channel id payload juliet buffer err c hp hq =>
    exact (h.parsed hsound.valid hp).processWaitQueue hq

theorem itemStep {item : QueuedItem} {r : Except LocalProtocolViolation Unit}
    (h : Tallied answers self) (hs : ItemStep self item r c) : Tallied answers c := by
  cases hs with
  | refused _ _ => exact h
  | wait _ _ _ _ => exact h.idle rfl rfl
  | send r c _ hs => exact h.sendStep hs

end Tallied

end IoCore

namespace IoTask

variable {N : Nat} {t t' : IoTask N}

/-- The requests that a task has created and the answers that it has read are in balance. -/
structure Balanced (t : IoTask N) : Prop where
  sound : t.core.Sound
  tallied : t.core.Tallied fun key => (answersUnder key t.reads).length

theorem Balanced.new (builder : ProtocolBuilder N) : Balanced (IoTask.new builder) where
  sound := IoCore.new_sound builder
  tallied key := by
    have hnone : (IoTask.new builder).core.awaits key = false := by
      simp [IoCore.awaits, IoTask.new, IoCore.new, ProtocolBuilder.build, Channel.new]
    rw [hnone]
    rfl

theorem Step.tallied {a : IoAct} (hs : Step t a t') (h : Balanced t) :
    t'.core.Tallied fun key => (answersUnder key t'.reads).length := by
  have hparse : ∀ {core : IoCore N} {outcome : Option ReadOutcome}
      {result : Option (Except CoreError IoEvent)},
      t.core.ParseStep outcome result core → t'.outcomes = t.outcomes ++ outcome.toList →
      core.Tallied fun key => (answersUnder key t'.reads).length := by
    intro core outcome result hp ho
    have hreads : t'.reads = t.reads ++ JulietProtocol.readsOf outcome := by
      rw [reads, reads, ho, readsIn_append, readsIn_toList]
    have hcount : ∀ key, (answersUnder key t'.reads).length =
        (answersUnder key t.reads).length + if answeredBy outcome = some key then 1 else 0 := by
      intro key
      rw [hreads, answersUnder_append, List.length_append, answersUnder_outcome]
    simp only [hcount]
    exact h.tallied.parseStep h.sound hp
  have ht := h.tallied
  cases hs with
  | event outcome event core _ _ hp => exact hparse hp rfl
  | failed outcome err core _ _ hp => exact hparse hp rfl
  | selecting outcome core core' _ _ hp hready =>
    exact (hparse hp rfl).idle hready.rest.2.1 hready.rest.2.2
  | writeAll current core position r _ hc _ hsent _ =>
    cases hsent with
    | error active _ => exact ht.idle rfl rfl
    | scanned i c _ hq | violation i c err _ hq =>
      refine IoCore.Tallied.processWaitQueue ?_ hq
      exact ht.idle rfl rfl
  | taken a item rest core _ _ _ hi | rejected a item rest core _ _ _ _ hi =>
    have hdeq : (t.dequeued rest).Tallied fun key => (answersUnder key t.reads).length :=
      ht.idle rfl rfl
    exact hdeq.itemStep (IoCore.handleIncomingItem_steps hi)
  | _ => exact ht.idle rfl rfl

theorem Balanced.step {a : IoAct} (h : Balanced t) (hs : Step t a t') : Balanced t' :=
  ⟨hs.sound h.sound, hs.tallied h⟩

end IoTask

end Juliet
