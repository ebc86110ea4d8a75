import Burble.Fallible
import Burble.Coprocessor.Pipeline
import Burble.Coprocessor.LosslessFrames

namespace Burble.Coprocessor

structure Inbound.Related (related : List UInt8 → List UInt8 → Prop) (call other : Inbound) : Prop where
  frame : related call.frame other.frame
  sequence : call.sequence = other.sequence
  timestamp : call.timestamp = other.timestamp

/-- What leaves the pipeline in a call: to the caller, to the audio decoder, and to the echo canceller. -/
structure Heard (Sample : Type) where
  reply : Option (InboundReply Sample)
  decoder : Option (List UInt8)
  echo : List Sample

section Frames
variable {Key Sample : Type} (backend : Backend Key Sample) (key : Key) (peerId : String)

/-- What is in a frame, if it is authentic. -/
def openFrame (frame : List UInt8) : Option (List UInt8) :=
  if 28 ≤ frame.length then cryptoDecryptFrame backend (frame.drop 28) key (frame.take 12) ((frame.drop 12).take 16) peerId
  else none

/-- Frames that are the same, or both forged. -/
def AlikeFrames (frame other : List UInt8) : Prop :=
  frame = other ∨ openFrame backend key peerId frame = none ∧ openFrame backend key peerId other = none

/-- Another forged frame for each forged one. -/
def reforged (frame : List UInt8) : List UInt8 :=
  if (openFrame backend key peerId frame).isSome then frame else if frame = [] then [0] else []

variable {backend key peerId} {frame other : List UInt8}

theorem openFrame_short (short : frame.length < 28) : openFrame backend key peerId frame = none :=
  if_neg (Nat.not_le.mpr short)

theorem AlikeFrames.eq_of_authentic (alike : AlikeFrames backend key peerId frame other)
    (authentic : (openFrame backend key peerId frame).isSome) : frame = other := by
  rcases alike with same | ⟨forged, -⟩
  · exact same
  · rw [forged] at authentic
    cases authentic

theorem reforged_authentic (authentic : (openFrame backend key peerId frame).isSome) :
    reforged backend key peerId frame = frame :=
  if_pos authentic

theorem reforged_forged (forged : openFrame backend key peerId frame = none) :
    openFrame backend key peerId (reforged backend key peerId frame) = none ∧ reforged backend key peerId frame ≠ frame := by
  rw [reforged, if_neg (by rw [forged]; exact Bool.false_ne_true)]
  split
  next empty => exact ⟨openFrame_short (by decide), by rw [empty]; exact List.cons_ne_nil _ _⟩
  next some => exact ⟨openFrame_short (by decide), Ne.symm some⟩

theorem reforged_alike (frame : List UInt8) : AlikeFrames backend key peerId frame (reforged backend key peerId frame) := by
  cases opened : openFrame backend key peerId frame with
  | none => exact .inr ⟨opened, (reforged_forged opened).1⟩
  | some => exact .inl (reforged_authentic (by rw [opened]; rfl)).symm

end Frames

namespace Pipeline
variable {Key Sample : Type} (backend : Backend Key Sample)

def heard (state : Pipeline Key Sample) (call : Inbound) : Heard Sample where
  reply := (state.inbound backend call).map Prod.fst
  decoder := (state.emits call).map (state.decrypted backend)
  echo := ((state.inbound backend call).map fun answer => answer.2.playbackRef).getD state.playbackRef

/-- Each call with the state it is handled in, until the process ends. -/
def handled : Pipeline Key Sample → List Inbound → List (Pipeline Key Sample × Inbound)
  | _, [] => []
  | state, call :: rest =>
    (state, call) :: match state.inbound backend call with
      | some (_, next) => handled next rest
      | none => []

def observed (state : Pipeline Key Sample) (calls : List Inbound) : List (Heard Sample) :=
  (state.handled backend calls).map fun step => step.1.heard backend step.2

/-- States that differ in the packets of the jitter buffer only. -/
structure Related (related : List UInt8 → List UInt8 → Prop) (state other : Pipeline Key Sample) : Prop where
  jitterBuffer : state.jitterBuffer.Related related other.jitterBuffer
  rest : other = { state with jitterBuffer := other.jitterBuffer }

/-- The bytes of forged frames, in the buffer and still to come, make no difference to what is heard, and a
forged frame is answered as a loss. -/
structure PlaysAuthentic (key : Key) (state : Pipeline Key Sample) (calls : List Inbound) : Prop where
  untouched : ∀ (other : Pipeline Key Sample) (calls' : List Inbound),
    state.Related (AlikeFrames backend key state.peerId) other →
    List.Forall₂ (Inbound.Related (AlikeFrames backend key state.peerId)) calls calls' →
    other.observed backend calls' = state.observed backend calls
  concealed : ∀ step ∈ state.handled backend calls, ∀ frame ∈ step.1.emits step.2,
    openFrame backend key state.peerId frame = none → ∀ reply ∈ (step.1.heard backend step.2).reply,
      ∃ concealment, reply = .concealed concealment

section Step
variable {backend} {key : Key} {related : List UInt8 → List UInt8 → Prop} {state other after : Pipeline Key Sample}
  {call call' : Inbound} {reply : InboundReply Sample}

theorem decrypted_eq (keyed : state.pipelineKey = some key) (frame : List UInt8) :
    state.decrypted backend frame = (openFrame backend key state.peerId frame).getD frame := by
  rw [decrypted, keyed, openFrame]
  dsimp only
  split
  · split
    next plaintext opened => rw [opened, Option.getD_some]
    next forged => rw [forged, Option.getD_none]
  · rfl

theorem Related.emits (alike : state.Related related other) (same : call.Related related call') :
    Option.Rel related (state.emits call) (other.emits call') := by
  rw [Pipeline.emits, Pipeline.emits, same.sequence, same.timestamp]
  exact (ioJitterBufferPush_related alike.jitterBuffer same.frame _ _).1

theorem Related.emits_eq (alike : state.Related related other) (same : call.Related related call')
    (exact_ : ∀ frame frame', frame ∈ state.emits call → related frame frame' → frame = frame') :
    state.emits call = other.emits call' := by
  rcases Fallible.rel_cases (alike.emits same) with ⟨none, none'⟩ | ⟨frame, frame', given, given', frames⟩
  · rw [none, none']
  · rw [given, given', exact_ frame frame' given frames]

/-- Where the same frame is emitted the same is heard, and the states stay related. -/
theorem Related.inbound (alike : state.Related related other) (same : call.Related related call')
    (equal : state.emits call = other.emits call') :
    other.heard backend call' = state.heard backend call ∧
      Option.Rel (fun answer answer' => answer.2.Related related answer'.2) (state.inbound backend call)
        (other.inbound backend call') := by
  obtain ⟨buffer, rfl⟩ : ∃ buffer, other = { state with jitterBuffer := buffer } := ⟨_, alike.rest⟩
  obtain ⟨frame, sequence, timestamp⟩ := call
  obtain ⟨frame', _, _⟩ := call'
  obtain ⟨frames, rfl, rfl⟩ := same
  obtain ⟨-, grown⟩ := ioJitterBufferPush_related alike.jitterBuffer frames sequence timestamp
  simp only [Pipeline.heard, Pipeline.inbound, Pipeline.emits] at equal ⊢
  dsimp only at grown
  generalize ioJitterBufferPush state.jitterBuffer frame sequence timestamp = pushed,
    ioJitterBufferPush buffer frame' sequence timestamp = pushed' at equal grown
  obtain ⟨emitted, jitter⟩ := pushed
  obtain ⟨_, jitter'⟩ := pushed'
  cases equal
  cases emitted with
  | none =>
    dsimp only
    split
    · exact ⟨rfl, .none⟩
    · exact ⟨rfl, .some ⟨grown, rfl⟩⟩
  | some frame =>
    have same : decrypted backend { state with jitterBuffer := jitter' } frame =
        decrypted backend { state with jitterBuffer := jitter } frame := rfl
    dsimp only [Option.map_some]
    rw [same]
    split
    · exact ⟨rfl, .some ⟨grown, rfl⟩⟩
    · exact ⟨rfl, .some ⟨grown, rfl⟩⟩

theorem inbound_keeps (answered : state.inbound backend call = some (reply, after)) :
    after.pipelineKey = state.pipelineKey ∧ after.peerId = state.peerId := by
  simp only [Pipeline.inbound] at answered
  split at answered
  · split at answered
    · cases answered
    · cases answered
      exact ⟨rfl, rfl⟩
  · split at answered
    · cases answered
      exact ⟨rfl, rfl⟩
    · cases answered
      exact ⟨rfl, rfl⟩

end Step

section Calls
variable {backend} {key : Key} {state other : Pipeline Key Sample} {calls calls' : List Inbound}

/-- Every frame that is given out in these calls is authentic. -/
def Authentic (backend : Backend Key Sample) (key : Key) (state : Pipeline Key Sample) (calls : List Inbound) : Prop :=
  ∀ step ∈ state.handled backend calls, ∀ frame ∈ step.1.emits step.2,
    (openFrame backend key state.peerId frame).isSome

instance (backend : Backend Key Sample) (key : Key) (state : Pipeline Key Sample) (calls : List Inbound) :
    Decidable (Authentic backend key state calls) :=
  inferInstanceAs (Decidable (∀ step ∈ state.handled backend calls, ∀ frame ∈ step.1.emits step.2,
    (openFrame backend key state.peerId frame).isSome))

theorem mem_handled_cons {call : Inbound} {step : Pipeline Key Sample × Inbound} :
    step ∈ state.handled backend (call :: calls) ↔
      step = (state, call) ∨ ∃ answer, state.inbound backend call = some answer ∧ step ∈ answer.2.handled backend calls := by
  rw [handled, List.mem_cons]
  cases state.inbound backend call with
  | none => simp
  | some answer => simp

theorem observed_cons (state : Pipeline Key Sample) (call : Inbound) (calls : List Inbound) :
    state.observed backend (call :: calls) = state.heard backend call ::
      ((state.inbound backend call).map fun answer => answer.2.observed backend calls).getD [] := by
  rw [observed, handled, List.map_cons]
  cases state.inbound backend call with
  | none => rfl
  | some answer => rfl

theorem authentic_cons {call : Inbound} : Authentic backend key state (call :: calls) ↔
    (∀ frame ∈ state.emits call, (openFrame backend key state.peerId frame).isSome) ∧
      ∀ answer, state.inbound backend call = some answer → Authentic backend key answer.2 calls := by
  constructor
  · intro authentic
    refine ⟨authentic (state, call) (mem_handled_cons.mpr (.inl rfl)), fun answer answered step member => ?_⟩
    rw [(inbound_keeps answered).2]
    exact authentic step (mem_handled_cons.mpr (.inr ⟨answer, answered, member⟩))
  · rintro ⟨first, later⟩ step member
    rcases mem_handled_cons.mp member with rfl | ⟨answer, answered, among⟩
    · exact first
    · have opened := later answer answered step among
      rwa [(inbound_keeps answered).2] at opened

/-- With authentic frames only, nothing depends on the forged ones. -/
theorem Authentic.untouched (authentic : Authentic backend key state calls)
    (alike : state.Related (AlikeFrames backend key state.peerId) other)
    (same : List.Forall₂ (Inbound.Related (AlikeFrames backend key state.peerId)) calls calls') :
    other.observed backend calls' = state.observed backend calls := by
  generalize peer : state.peerId = peerId at alike same
  induction same generalizing state other with
  | nil => rfl
  | @cons call call' rest rest' first later ih =>
    obtain ⟨opened, laterOpened⟩ := authentic_cons.mp authentic
    have equal := alike.emits_eq first fun frame frame' given frames =>
      frames.eq_of_authentic (peer ▸ opened frame given)
    obtain ⟨hears, next⟩ := alike.inbound first equal
    rw [observed_cons, observed_cons, hears]
    refine congrArg _ ?_
    rcases Fallible.rel_cases next with ⟨none, none'⟩ | ⟨answer, answer', given, given', grown⟩
    · rw [none, none']
      rfl
    · rw [given, given']
      exact ih (laterOpened answer given) ((inbound_keeps given).2.trans peer) grown

/-- The first forged frame that is given out goes to the decoder, as any other in its place would. -/
theorem leaked (keyed : state.pipelineKey = some key)
    (alike : state.Related (fun frame other => other = reforged backend key state.peerId frame) other)
    (same : List.Forall₂ (Inbound.Related fun frame other => other = reforged backend key state.peerId frame) calls calls')
    (heardAlike : other.observed backend calls' = state.observed backend calls) : Authentic backend key state calls := by
  generalize peer : state.peerId = peerId at alike same
  induction same generalizing state other with
  | nil => exact fun step member => absurd member List.not_mem_nil
  | @cons call call' rest rest' first later ih =>
    rw [observed_cons, observed_cons] at heardAlike
    obtain ⟨hears, rests⟩ := List.cons.inj heardAlike
    have opened : ∀ frame ∈ state.emits call, (openFrame backend key peerId frame).isSome := by
      intro frame given
      by_contra closed
      have forged := Option.not_isSome_iff_eq_none.mp closed
      obtain ⟨forged', apart⟩ := reforged_forged forged
      have given' : other.emits call' = some (reforged backend key peerId frame) := by
        rcases Fallible.rel_cases (alike.emits first) with ⟨none, -⟩ | ⟨_, _, some, some', rfl⟩
        · cases none.symm.trans given
        · cases some.symm.trans given
          exact some'
      have keyed' : other.pipelineKey = some key := by rw [alike.rest]; exact keyed
      have peer' : other.peerId = peerId := by rw [alike.rest]; exact peer
      -- the decoder is given the two frames as they are
      have decoded : (other.emits call').map (other.decrypted backend) = (state.emits call).map (state.decrypted backend) :=
        congrArg Heard.decoder hears
      rw [given', Option.mem_def.mp given, Option.map_some, Option.map_some, decrypted_eq keyed, decrypted_eq keyed', peer,
        peer', forged, forged', Option.getD_none, Option.getD_none] at decoded
      exact apart (Option.some.inj decoded)
    have equal := alike.emits_eq first fun frame frame' given frames =>
      (frames.trans (reforged_authentic (opened frame given))).symm
    obtain ⟨-, next⟩ := alike.inbound first equal
    refine authentic_cons.mpr ⟨peer ▸ opened, fun answer given => ?_⟩
    rcases Fallible.rel_cases next with ⟨none, -⟩ | ⟨answer, answer', given, given', grown⟩
    · cases none.symm.trans given
    · next same =>
      cases same.symm.trans given
      rw [given, given'] at rests
      exact ih ((inbound_keeps given).1.trans keyed) rests ((inbound_keeps given).2.trans peer) grown

/-- Only authentic audio is played exactly as long as the jitter buffer gives out authentic frames only. -/
theorem plays_authentic_iff (keyed : state.pipelineKey = some key) (calls : List Inbound) :
    state.PlaysAuthentic backend key calls ↔ Authentic backend key state calls := by
  constructor
  · intro plays
    let change := reforged backend key state.peerId
    have buffers := state.jitterBuffer.map_related change
    have same : List.Forall₂ (Inbound.Related fun frame other => other = change frame) calls
        (calls.map fun call => ⟨change call.frame, call.sequence, call.timestamp⟩) := by
      rw [List.forall₂_map_right_iff]
      exact List.forall₂_same.mpr fun _ _ => ⟨rfl, rfl, rfl⟩
    have alike : state.Related (fun frame other => other = change frame)
        { state with jitterBuffer := state.jitterBuffer.map change } := ⟨buffers, rfl⟩
    refine leaked keyed alike same ?_
    refine plays.untouched _ _ ⟨buffers.mono fun frame _ forged => forged ▸ reforged_alike frame, rfl⟩ ?_
    exact same.imp fun _ _ forged => ⟨forged.frame ▸ reforged_alike _, forged.sequence, forged.timestamp⟩
  · intro authentic
    refine ⟨fun other calls' => authentic.untouched, fun step member frame given forged => ?_⟩
    have opened := authentic step member frame given
    rw [forged] at opened
    cases opened

end Calls

/-- A pipeline as it starts, with the session key `()`. -/
def listening : Pipeline Unit Rat where
  peerId := "peer"
  pipelineKey := some ()
  jitterBuffer := .empty
  prevFrames := []
  playbackRef := []
  silenceFrames := 0
  framesProcessed := 0
  framesDropped := 0

/-- One sample of full scale, as the encoder packs it. -/
def packed : List UInt8 := [1, 2, 0, 0, 0, 255, 127]

/-- A key under which nothing but `packed` was ever sealed, with an IV and a tag of zeros. -/
def sealedOnce : Backend Unit Rat where
  arith := rationals
  openAead _ iv tag ciphertext aad :=
    if iv = List.replicate 12 0 ∧ tag = List.replicate 16 0 ∧ ciphertext = packed ∧ aad = "peer" then some packed else none

/-- What an attacker sends instead is played to the caller. -/
theorem forged_audio_played : ¬ ∀ (state : Pipeline Unit Rat) (calls : List Inbound), state.pipelineKey = some () →
    state.PlaysAuthentic sealedOnce () calls := by
  intro always
  have plays := always listening [⟨packed, 0, 0⟩, ⟨packed, 1, 40⟩] rfl
  have answered : ∃ step ∈ listening.handled sealedOnce [⟨packed, 0, 0⟩, ⟨packed, 1, 40⟩],
      packed ∈ step.1.emits step.2 ∧ (step.1.heard sealedOnce step.2).reply = some (.pcm [1]) := by decide +kernel
  obtain ⟨step, member, given, reply⟩ := answered
  obtain ⟨concealment, concealed⟩ := plays.concealed step member packed given rfl _ reply
  cases concealed

theorem plays_authentic_sealed : listening.PlaysAuthentic sealedOnce ()
    [⟨List.replicate 28 0 ++ packed, 0, 0⟩, ⟨packed, 1, 40⟩] :=
  (plays_authentic_iff rfl _).mpr (by decide +kernel)

end Pipeline
end Burble.Coprocessor
