import Mathlib.Data.List.Dedup
import Burble.Runs
import Burble.Media.Peer

namespace Burble.Media

/-- A peer's process with the messages it has handled. An addition is known by its place among them:
where it waits in the queue, and where it has been refused at the cap. -/
structure Watched where
  process : PeerProcess
  log : List PeerMessage
  waiting : List Nat
  refused : List Nat

namespace Watched

def start (existingPeers : List PeerId) : Watched := ⟨.init existingPeers, [], [], []⟩

/-- Where additions wait after a message. -/
def waitingAfter (w : Watched) : PeerMessage → List Nat
  | .peerAdded _ => if w.process.negotiating then w.waiting ++ [w.log.length] else w.waiting
  | .sdpAnswer true => w.waiting.tail
  | _ => w.waiting

/-- The addition that a message makes the process attend to. -/
def attendedBy (w : Watched) : PeerMessage → Option Nat
  | .peerAdded _ => if w.process.negotiating then none else some w.log.length
  | .sdpAnswer true => w.waiting.head?
  | _ => none

def deliver (w : Watched) (message : PeerMessage) : Watched where
  process := (w.process.handle message).1
  log := w.log ++ [message]
  waiting := w.waitingAfter message
  refused :=
    if w.process.outboundTracks.size ≥ maxOutboundPeers then w.refused ++ (w.attendedBy message).toList else w.refused

def HasTrack (w : Watched) (peerId : PeerId) : Prop := (w.process.outboundTracks.lookup peerId).isSome = true

/-- No negotiation is outstanding, and nobody waits. -/
def Quiet (w : Watched) : Prop := w.process.negotiating = false ∧ w.process.pendingPeers = []

end Watched

/-- The addition of a peer that no later message takes back. -/
def Stands (log : List PeerMessage) (peerId : PeerId) (place : Nat) : Prop :=
  log[place]? = some (.peerAdded peerId) ∧ ∀ later, place < later → log[later]? ≠ some (.peerRemoved peerId)

/-- In the room from the beginning and not removed since, or added, if not refused, and not removed since. -/
def Watched.Present (existingPeers : List PeerId) (w : Watched) (peerId : PeerId) : Prop :=
  (peerId ∈ existingPeers ∧ .peerRemoved peerId ∉ w.log) ∨ ∃ place, Stands w.log peerId place ∧ place ∉ w.refused

/-- Nobody is removed while its addition waits. -/
def Unqueued (w : Watched) (message : PeerMessage) : Prop :=
  ∀ peerId ∈ w.process.pendingPeers, message ≠ .peerRemoved peerId

abbrev Delivers (before : Watched) (message : PeerMessage) (after : Watched) : Prop := before.deliver message = after

section Log
variable {log : List PeerMessage} {message : PeerMessage} {peerId : PeerId} {place : Nat}

theorem Stands.lt (stands : Stands log peerId place) : place < log.length :=
  (List.getElem?_eq_some_iff.mp stands.1).choose

theorem stands_append : Stands (log ++ [message]) peerId place ↔
    (Stands log peerId place ∧ message ≠ .peerRemoved peerId) ∨
      (place = log.length ∧ message = .peerAdded peerId) := by
  constructor
  · rintro ⟨added, kept⟩
    rcases Nat.lt_trichotomy place log.length with early | last | late
    · rw [List.getElem?_append_left early] at added
      refine .inl ⟨⟨added, fun later after removed => kept later after ?_⟩, fun removes => ?_⟩
      · rw [List.getElem?_append_left (List.getElem?_eq_some_iff.mp removed).choose]
        exact removed
      · exact kept log.length early (by rw [List.getElem?_concat_length, removes])
    · rw [last, List.getElem?_concat_length] at added
      exact .inr ⟨last, Option.some.inj added⟩
    · rw [List.getElem?_eq_none (by rw [List.length_append]; exact late)] at added
      cases added
  · rintro (⟨stands, other⟩ | ⟨rfl, rfl⟩)
    · refine ⟨by rw [List.getElem?_append_left stands.lt, stands.1], fun later after removed => ?_⟩
      rcases Nat.lt_or_ge later log.length with early | late
      · rw [List.getElem?_append_left early] at removed
        exact stands.2 later after removed
      · rw [List.getElem?_append_right late] at removed
        have last := List.mem_of_getElem? removed
        exact other (List.mem_singleton.mp last).symm
    · refine ⟨List.getElem?_concat_length, fun later after removed => ?_⟩
      rw [List.getElem?_eq_none (by rw [List.length_append]; exact after)] at removed
      cases removed

/-- A message that neither adds nor removes is nothing to the log. -/
theorem stands_append_other (noAddition : message ≠ .peerAdded peerId) (noRemoval : message ≠ .peerRemoved peerId) :
    Stands (log ++ [message]) peerId place ↔ Stands log peerId place := by
  rw [stands_append]
  constructor
  · rintro (⟨stands, _⟩ | ⟨_, adds⟩)
    · exact stands
    · exact absurd adds noAddition
  · exact fun stands => .inl ⟨stands, noRemoval⟩

variable {waiting : List Nat} {pendingPeers : List PeerId}

/-- What waits stands, whatever the message is, unless it removes what waits. -/
theorem queue_append (queue : List.Forall₂ (fun place peerId => Stands log peerId place) waiting pendingPeers)
    (kept : ∀ peerId ∈ pendingPeers, message ≠ .peerRemoved peerId) :
    List.Forall₂ (fun place peerId => Stands (log ++ [message]) peerId place) waiting pendingPeers := by
  induction queue with
  | nil => exact .nil
  | cons stands _ ih =>
    exact .cons (stands_append.mpr (.inl ⟨stands, kept _ List.mem_cons_self⟩))
      (ih fun peerId member => kept peerId (List.mem_cons_of_mem _ member))

theorem waiting_lt (queue : List.Forall₂ (fun place peerId => Stands log peerId place) waiting pendingPeers)
    (waits : place ∈ waiting) : place < log.length := by
  induction queue with
  | nil => cases waits
  | cons stands _ ih =>
    rcases List.mem_cons.mp waits with rfl | later
    · exact stands.lt
    · exact ih later

end Log

/-- The track table against the log, when nobody has been removed out of the queue. -/
structure Tracked (existingPeers : List PeerId) (w : Watched) : Prop where
  queue : List.Forall₂ (fun place peerId => Stands w.log peerId place) w.waiting w.process.pendingPeers
  fresh : w.waiting.Nodup ∧ ∀ place ∈ w.refused, place < w.log.length ∧ place ∉ w.waiting
  settled : w.process.negotiating = false → w.process.pendingPeers = []
  tracks : ∀ peerId, w.HasTrack peerId ↔ (peerId ∈ existingPeers ∧ .peerRemoved peerId ∉ w.log) ∨
    ∃ place, Stands w.log peerId place ∧ place ∉ w.refused ∧ place ∉ w.waiting

namespace PeerProcess

theorem lookup_addOutboundPeer (state : PeerProcess) (newPeerId peerId : PeerId) :
    ((state.addOutboundPeer newPeerId).outboundTracks.lookup peerId).isSome = true ↔
      (state.outboundTracks.lookup peerId).isSome = true ∨
        (peerId = newPeerId ∧ state.outboundTracks.size < maxOutboundPeers) := by
  unfold addOutboundPeer
  split
  next full =>
    constructor
    · exact .inl
    · rintro (there | ⟨_, space⟩)
      · exact there
      · omega
  next space =>
    rw [addSendonlyTrack, FiniteMap.lookup_insert_if]
    split
    next same => simp [same, Nat.lt_of_not_le space]
    next different => simp [different]

theorem addOutboundPeer_size (state : PeerProcess) (newPeerId : PeerId)
    (within : state.outboundTracks.size ≤ maxOutboundPeers) :
    (state.addOutboundPeer newPeerId).outboundTracks.size ≤ maxOutboundPeers := by
  unfold addOutboundPeer
  split
  next => exact within
  next space =>
    have grown := FiniteMap.size_insert_le state.outboundTracks newPeerId state.transceivers
    simp only [addSendonlyTrack]
    omega

@[simp] theorem addOutboundPeer_pendingPeers (state : PeerProcess) (peerId : PeerId) :
    (state.addOutboundPeer peerId).pendingPeers = state.pendingPeers := by
  unfold addOutboundPeer
  split <;> rfl

/-- Only additions that are attended to make the table longer. -/
theorem handle_size (state : PeerProcess) (message : PeerMessage)
    (within : state.outboundTracks.size ≤ maxOutboundPeers) :
    (state.handle message).1.outboundTracks.size ≤ maxOutboundPeers := by
  cases message with
  | sendOffer => exact within
  | peerAdded newPeerId =>
    simp only [handle]
    split
    · exact within
    · exact state.addOutboundPeer_size newPeerId within
  | peerRemoved removedPeerId =>
    have shrunk := (FiniteMap.size_erase_le state.outboundTracks removedPeerId).trans within
    simp only [handle]
    split <;> exact shrunk
  | forwardRtp sender told => exact within
  | sdpAnswer accepted =>
    simp only [handle]
    split
    · unfold processPendingPeers
      split
      · exact within
      · exact addOutboundPeer_size _ _ within
    · exact within

theorem init_tracks (existingPeers : List PeerId) :
    (init existingPeers).pendingPeers = [] ∧ (init existingPeers).negotiating = false ∧
      ∀ peerId, ((init existingPeers).outboundTracks.lookup peerId).isSome = true ↔ peerId ∈ existingPeers := by
  have folded (state : PeerProcess) :
      (existingPeers.foldl addSendonlyTrack state).pendingPeers = state.pendingPeers ∧
      (existingPeers.foldl addSendonlyTrack state).negotiating = state.negotiating ∧
      ∀ peerId, ((existingPeers.foldl addSendonlyTrack state).outboundTracks.lookup peerId).isSome = true ↔
        (state.outboundTracks.lookup peerId).isSome = true ∨ peerId ∈ existingPeers := by
    induction existingPeers generalizing state with
    | nil => simp
    | cons first rest ih =>
      obtain ⟨pending, negotiating, tracks⟩ := ih (state.addSendonlyTrack first)
      refine ⟨pending, negotiating, fun peerId => ?_⟩
      rw [List.foldl_cons, tracks, addSendonlyTrack, FiniteMap.lookup_insert_if, List.mem_cons]
      split
      next same => simp [same]
      next different => simp [different]
  obtain ⟨pending, negotiating, tracks⟩ := folded ⟨∅, 1, [], false, [.sendOffer]⟩
  exact ⟨pending, negotiating, fun peerId => (tracks peerId).trans (by simp)⟩

/-- There is a track for each of the peers that were there already, however many they are. -/
theorem init_size (existingPeers : List PeerId) :
    (init existingPeers).outboundTracks.size = existingPeers.dedup.length := by
  refine List.Perm.length_eq ((List.perm_ext_iff_of_nodup (AList.keys_nodup _) (List.nodup_dedup _)).mpr fun peerId => ?_)
  rw [← AList.mem_keys, ← AList.lookup_isSome, (init_tracks existingPeers).2.2, List.mem_dedup]

end PeerProcess

namespace Tracked
variable {existingPeers : List PeerId} {w : Watched} {message : PeerMessage}

theorem start : Tracked existingPeers (.start existingPeers) := by
  obtain ⟨pending, _, tracks⟩ := PeerProcess.init_tracks existingPeers
  refine ⟨?_, ⟨.nil, fun place refused => absurd refused List.not_mem_nil⟩, fun _ => pending, fun peerId => ?_⟩
  · rw [Watched.start, pending]
    exact .nil
  · rw [Watched.HasTrack, Watched.start, tracks]
    simp [Stands]

theorem fresh_append (tracked : Tracked existingPeers w) (message : PeerMessage) :
    ∀ place ∈ w.refused, place < (w.log ++ [message]).length ∧ place ∉ w.waiting := by
  intro place refused
  obtain ⟨past, attended⟩ := tracked.fresh.2 place refused
  exact ⟨past.trans (by simp), attended⟩

/-- A message that neither adds nor removes, and moves nothing. -/
theorem ignore (tracked : Tracked existingPeers w) {after : Watched} (log : after.log = w.log ++ [message])
    (noAddition : ∀ peerId, message ≠ .peerAdded peerId) (noRemoval : ∀ peerId, message ≠ .peerRemoved peerId)
    (waiting : after.waiting = w.waiting) (refused : after.refused = w.refused)
    (pending : after.process.pendingPeers = w.process.pendingPeers)
    (settled : after.process.negotiating = false → after.process.pendingPeers = [])
    (tracks : after.process.outboundTracks = w.process.outboundTracks) : Tracked existingPeers after := by
  refine ⟨?_, ⟨by rw [waiting]; exact tracked.fresh.1, ?_⟩, settled, fun peerId => ?_⟩
  · rw [log, waiting, pending]
    exact queue_append tracked.queue fun peerId _ => noRemoval peerId
  · rw [log, waiting, refused]
    exact tracked.fresh_append _
  · rw [Watched.HasTrack, tracks, log, waiting, refused]
    simp only [stands_append_other (noAddition peerId) (noRemoval peerId), List.mem_append, List.mem_singleton,
      (noRemoval peerId).symm, or_false]
    exact tracked.tracks peerId

theorem remove (tracked : Tracked existingPeers w) (removedPeerId : PeerId)
    (unqueued : Unqueued w (.peerRemoved removedPeerId)) :
    Tracked existingPeers (w.deliver (.peerRemoved removedPeerId)) := by
  have process : (w.deliver (.peerRemoved removedPeerId)).process.pendingPeers = w.process.pendingPeers ∧
      (w.deliver (.peerRemoved removedPeerId)).process.negotiating = true ∧
      (w.deliver (.peerRemoved removedPeerId)).process.outboundTracks =
        AList.erase removedPeerId w.process.outboundTracks := by
    by_cases negotiating : w.process.negotiating = true <;>
      simp [Watched.deliver, PeerProcess.handle, PeerProcess.removeOutboundPeer, PeerProcess.sendOffer, negotiating]
  have refused : (w.deliver (.peerRemoved removedPeerId)).refused = w.refused := by
    simp [Watched.deliver, Watched.attendedBy]
  refine ⟨?_, ⟨tracked.fresh.1, ?_⟩, fun quiet => absurd (process.2.1.symm.trans quiet) (by decide), fun peerId => ?_⟩
  · rw [process.1]
    exact queue_append tracked.queue unqueued
  · rw [refused]
    exact tracked.fresh_append _
  · rw [Watched.HasTrack, process.2.2, refused, FiniteMap.lookup_erase_if]
    simp only [Watched.deliver, Watched.waitingAfter, stands_append, List.mem_append, List.mem_singleton,
      reduceCtorEq, and_false, or_false, PeerMessage.peerRemoved.injEq, ne_eq]
    split
    next same => simp [same]
    next different =>
      have other : removedPeerId ≠ peerId := fun same => different same.symm
      simpa only [Watched.HasTrack, different, other, not_false_iff, and_true, or_false] using tracked.tracks peerId

/-- An addition that waits. -/
theorem wait (tracked : Tracked existingPeers w) (newPeerId : PeerId) (negotiating : w.process.negotiating = true) :
    Tracked existingPeers (w.deliver (.peerAdded newPeerId)) := by
  have process : (w.deliver (.peerAdded newPeerId)).process =
      { w.process with pendingPeers := w.process.pendingPeers ++ [newPeerId] } := by
    simp [Watched.deliver, PeerProcess.handle, negotiating]
  have refused : (w.deliver (.peerAdded newPeerId)).refused = w.refused := by
    simp [Watched.deliver, Watched.attendedBy, negotiating]
  have waiting : (w.deliver (.peerAdded newPeerId)).waiting = w.waiting ++ [w.log.length] := by
    simp [Watched.deliver, Watched.waitingAfter, negotiating]
  have log : (w.deliver (.peerAdded newPeerId)).log = w.log ++ [.peerAdded newPeerId] := rfl
  have unknown : w.log.length ∉ w.waiting := fun waits => (waiting_lt tracked.queue waits).ne rfl
  refine ⟨?_, ⟨?_, ?_⟩, ?_, fun peerId => ?_⟩
  · rw [process, waiting, log]
    exact List.rel_append (queue_append tracked.queue fun _ _ => by simp)
      (.cons (stands_append.mpr (.inr ⟨rfl, rfl⟩)) .nil)
  · rw [waiting, List.nodup_append]
    exact ⟨tracked.fresh.1, List.nodup_singleton _, by simpa using fun place waits => (waiting_lt tracked.queue waits).ne⟩
  · rw [refused, waiting, log]
    intro place member
    obtain ⟨past, attended⟩ := tracked.fresh_append (.peerAdded newPeerId) place member
    have early := (tracked.fresh.2 place member).1
    exact ⟨past, by simpa [attended] using early.ne⟩
  · intro quiet
    rw [process] at quiet
    rw [negotiating] at quiet
    cases quiet
  · rw [Watched.HasTrack, process, refused, waiting, log]
    simp only [stands_append, List.mem_append, List.mem_singleton, reduceCtorEq, or_false, not_or, ne_eq,
      not_false_iff, and_true]
    refine (tracked.tracks peerId).trans (or_congr_right ⟨?_, ?_⟩)
    · rintro ⟨place, stands, accepted, attended⟩
      exact ⟨place, .inl stands, accepted, attended, stands.lt.ne⟩
    · rintro ⟨place, stands | ⟨rfl, _⟩, accepted, attended, last⟩
      · exact ⟨place, stands, accepted, attended⟩
      · exact absurd rfl last

/-- An addition is attended to: the first to wait, or one that found nothing outstanding. -/
theorem attend (tracked : Tracked existingPeers w) {after : Watched} (place : Nat) (peerId : PeerId)
    (pending : List PeerId) (log : after.log = w.log ++ [message]) (stands : Stands after.log peerId place)
    (quiet : ∀ p, message ≠ .peerRemoved p)
    (adds : ∀ p, message = .peerAdded p → place = w.log.length)
    (waiting : place :: after.waiting = w.waiting ∨ (w.waiting = [] ∧ after.waiting = [] ∧ place = w.log.length))
    (queue : List.Forall₂ (fun place peerId => Stands w.log peerId place) after.waiting pending)
    (refused : after.refused =
      if w.process.outboundTracks.size ≥ maxOutboundPeers then w.refused ++ [place] else w.refused)
    (process : after.process =
      (({ w.process with negotiating := false, pendingPeers := pending } : PeerProcess).addOutboundPeer peerId).sendOffer) :
    Tracked existingPeers after := by
  have unrefused : place ∉ w.refused := by
    intro member
    obtain ⟨past, attended⟩ := tracked.fresh.2 place member
    rcases waiting with head | ⟨_, _, rfl⟩
    · exact attended (head ▸ List.mem_cons_self)
    · exact past.ne rfl
  have unique : after.waiting.Nodup ∧ place ∉ after.waiting := by
    rcases waiting with head | ⟨_, none, _⟩
    · have nodup := tracked.fresh.1
      rw [← head] at nodup
      exact (List.nodup_cons.mp nodup).symm
    · rw [none]
      exact ⟨.nil, List.not_mem_nil⟩
  have pendingEq : after.process.pendingPeers = pending := by
    rw [process]
    exact PeerProcess.addOutboundPeer_pendingPeers _ _
  have inWaiting (other : Nat) (before : other < w.log.length) :
      other ∈ w.waiting ↔ other = place ∨ other ∈ after.waiting := by
    rcases waiting with head | ⟨empty, none, rfl⟩
    · rw [← head, List.mem_cons]
    · simp [empty, none, before.ne]
  have others (other : Nat) (p : PeerId) : Stands after.log p other ∧ other ≠ place ↔
      Stands w.log p other ∧ other ≠ place := by
    rw [log, stands_append]
    constructor
    · rintro ⟨⟨stands, _⟩ | ⟨last, added⟩, different⟩
      · exact ⟨stands, different⟩
      · exact absurd (last.trans (adds p added).symm) different
    · exact fun ⟨stands, different⟩ => ⟨.inl ⟨stands, quiet p⟩, different⟩
  refine ⟨?_, ⟨unique.1, ?_⟩, ?_, fun p => ?_⟩
  · rw [pendingEq, log]
    exact queue_append queue fun p _ => quiet p
  · intro other member
    rw [refused] at member
    have cases : other ∈ w.refused ∨ other = place := by
      split at member
      · simpa using member
      · exact .inl member
    rcases cases with old | rfl
    · obtain ⟨past, attended⟩ := tracked.fresh.2 other old
      refine ⟨past.trans (by simp [log]), fun waits => attended ((inWaiting other past).mpr (.inr waits))⟩
    · exact ⟨stands.lt, unique.2⟩
  · intro idle
    rw [process] at idle
    cases idle
  · have settled (other : Nat) : Stands w.log p other ∧ other ∉ w.refused ∧ other ∉ w.waiting ↔
        Stands after.log p other ∧ other ∉ w.refused ∧ other ∉ after.waiting ∧ other ≠ place := by
      constructor
      · rintro ⟨stood, accepted, attended⟩
        have both := not_or.mp fun waits => attended ((inWaiting other stood.lt).mpr waits)
        exact ⟨((others other p).mpr ⟨stood, both.1⟩).1, accepted, both.2, both.1⟩
      · rintro ⟨standing, accepted, attended, different⟩
        have stood := ((others other p).mp ⟨standing, different⟩).1
        refine ⟨stood, accepted, fun waits => ?_⟩
        exact ((inWaiting other stood.lt).mp waits).elim different attended
    have before : .peerRemoved p ∉ after.log ↔ .peerRemoved p ∉ w.log := by
      rw [log, List.mem_append, List.mem_singleton, not_or]
      exact and_iff_left (quiet p).symm
    have track : after.HasTrack p ↔ w.HasTrack p ∨ (p = peerId ∧ w.process.outboundTracks.size < maxOutboundPeers) := by
      rw [Watched.HasTrack, process]
      exact PeerProcess.lookup_addOutboundPeer _ _ _
    rw [track, tracked.tracks p, before, refused, or_assoc]
    simp only [settled]
    refine or_congr_right ?_
    by_cases full : w.process.outboundTracks.size ≥ maxOutboundPeers
    · simp only [if_pos full, Nat.not_lt.mpr full, and_false, or_false, List.mem_append, List.mem_singleton, not_or]
      exact exists_congr fun other => ⟨fun ⟨s, a, b, c⟩ => ⟨s, ⟨a, c⟩, b⟩, fun ⟨s, ⟨a, c⟩, b⟩ => ⟨s, a, b, c⟩⟩
    · simp only [if_neg full, Nat.lt_of_not_le full, and_true]
      constructor
      · rintro (⟨other, standing, accepted, attended, _⟩ | rfl)
        · exact ⟨other, standing, accepted, attended⟩
        · exact ⟨place, stands, unrefused, unique.2⟩
      · rintro ⟨other, standing, accepted, attended⟩
        by_cases same : other = place
        · subst same
          have one := standing.1.symm.trans stands.1
          simp only [Option.some.injEq, PeerMessage.peerAdded.injEq] at one
          exact .inr one
        · exact .inl ⟨other, standing, accepted, attended, same⟩

/-- An addition is attended to at once when nothing is outstanding. -/
theorem attendNow (tracked : Tracked existingPeers w) (newPeerId : PeerId) (idle : w.process.negotiating = false) :
    Tracked existingPeers (w.deliver (.peerAdded newPeerId)) := by
  have nobody := tracked.settled idle
  have empty : w.waiting = [] := by
    have queue := tracked.queue
    rw [nobody, List.forall₂_nil_right_iff] at queue
    exact queue
  refine tracked.attend w.log.length newPeerId [] rfl
    (stands_append.mpr (.inr ⟨rfl, rfl⟩)) (fun p => by simp) (fun _ _ => rfl) (.inr ⟨empty, ?_, rfl⟩) ?_ ?_ ?_
  · simp [Watched.deliver, Watched.waitingAfter, idle, empty]
  · simp [Watched.deliver, Watched.waitingAfter, idle, empty]
  · simp [Watched.deliver, Watched.attendedBy, idle]
  · simp only [Watched.deliver, PeerProcess.handle, idle, Bool.false_eq_true, if_false]
    rw [← nobody, ← idle]

/-- An accepted answer attends to the first addition that waits. -/
theorem answer (tracked : Tracked existingPeers w) : Tracked existingPeers (w.deliver (.sdpAnswer true)) := by
  have queue := tracked.queue
  cases pending : w.process.pendingPeers with
  | nil =>
    rw [pending, List.forall₂_nil_right_iff] at queue
    refine tracked.ignore rfl (by simp) (by simp) ?_ ?_ ?_ ?_ ?_
    · simp [Watched.deliver, Watched.waitingAfter, queue]
    · simp [Watched.deliver, Watched.attendedBy, queue]
    · simp [Watched.deliver, PeerProcess.handle, PeerProcess.processPendingPeers, pending]
    · simp [Watched.deliver, PeerProcess.handle, PeerProcess.processPendingPeers, pending]
    · simp [Watched.deliver, PeerProcess.handle, PeerProcess.processPendingPeers, pending]
  | cons next rest =>
    rw [pending] at queue
    cases waits : w.waiting with
    | nil =>
      rw [waits] at queue
      cases queue
    | cons place later =>
      rw [waits] at queue
      obtain ⟨stands, queue⟩ := List.forall₂_cons.mp queue
      refine tracked.attend place next rest rfl
        (stands_append.mpr (.inl ⟨stands, by simp⟩)) (by simp) (by simp) (.inl ?_) ?_ ?_ ?_
      · simp [Watched.deliver, Watched.waitingAfter, waits]
      · simpa [Watched.deliver, Watched.waitingAfter, waits] using queue
      · simp [Watched.deliver, Watched.attendedBy, waits]
      · simp [Watched.deliver, PeerProcess.handle, PeerProcess.processPendingPeers, pending]

theorem deliver (tracked : Tracked existingPeers w) (unqueued : Unqueued w message) :
    Tracked existingPeers (w.deliver message) := by
  cases message with
  | sendOffer =>
    refine tracked.ignore rfl (by simp) (by simp) rfl ?_ rfl (fun idle => by cases idle) rfl
    simp [Watched.deliver, Watched.attendedBy]
  | peerAdded newPeerId =>
    cases negotiating : w.process.negotiating with
    | true => exact tracked.wait newPeerId negotiating
    | false => exact tracked.attendNow newPeerId negotiating
  | peerRemoved removedPeerId => exact tracked.remove removedPeerId unqueued
  | forwardRtp fromPeerId packet =>
    refine tracked.ignore rfl (by simp) (by simp) rfl ?_ rfl tracked.settled rfl
    simp [Watched.deliver, Watched.attendedBy]
  | sdpAnswer accepted =>
    cases accepted with
    | true => exact tracked.answer
    | false =>
      refine tracked.ignore rfl (by simp) (by simp) rfl ?_ rfl tracked.settled rfl
      simp [Watched.deliver, Watched.attendedBy]

end Tracked

/-- Whatever a process is sent, its tracks stay within the cap if they did when it started, which takes
a room of no more peers; and the quiet table is the room as long as nobody is removed out of the queue. -/
theorem track_table_converges (existingPeers : List PeerId) :
    ((∀ messages w, Run Delivers (.start existingPeers) messages w →
        w.process.outboundTracks.size ≤ maxOutboundPeers) ↔ existingPeers.dedup.length ≤ maxOutboundPeers) ∧
    (∀ messages w, Run (Guarded Unqueued Delivers) (.start existingPeers) messages w → w.Quiet →
      ∀ peerId, w.HasTrack peerId ↔ w.Present existingPeers peerId) := by
  refine ⟨⟨fun bounded => ?_, fun few messages w run => ?_⟩, fun messages w run quiet peerId => ?_⟩
  · rw [← PeerProcess.init_size]
    exact bounded [] _ .start
  · have first : (Watched.start existingPeers).process.outboundTracks.size ≤ maxOutboundPeers :=
      (PeerProcess.init_size existingPeers).trans_le few
    induction run with
    | start => exact first
    | @next _ before message _ _ taken ih =>
      rw [← taken]
      exact before.process.handle_size message ih
  · have tracked : Tracked existingPeers w := by
      refine run.invariant Tracked.start ?_
      rintro before message _ tracked ⟨unqueued, rfl⟩
      exact tracked.deliver unqueued
    have queue := tracked.queue
    rw [quiet.2, List.forall₂_nil_right_iff] at queue
    simpa [Watched.Present, queue] using tracked.tracks peerId

/-- Bob joins and leaves while the first offer is outstanding, and two answers are accepted. -/
def bobPassesThrough : List PeerMessage :=
  [.sendOffer, .peerAdded "bob", .peerRemoved "bob", .sdpAnswer true, .sdpAnswer true]

/-- A room of fifty-one. -/
def crowd : List PeerId := (List.range 51).map fun index => String.ofList (List.replicate index 'p')

/-- Bob keeps a track after he has left, and in a crowd a process starts beyond its cap. -/
theorem ghost_and_crowd :
    (∃ w, Run Delivers (.start []) bobPassesThrough w ∧ w.Quiet ∧ w.HasTrack "bob" ∧ ¬ w.Present [] "bob") ∧
    ∃ w, Run Delivers (.start crowd) [] w ∧ maxOutboundPeers < w.process.outboundTracks.size := by
  refine ⟨⟨bobPassesThrough.foldl Watched.deliver (.start []), ?_, ⟨by decide, by decide⟩, rfl, ?_⟩, _, .start, ?_⟩
  · exact ((((Run.start.next rfl).next rfl).next rfl).next rfl).next rfl
  · rintro (⟨existing, _⟩ | ⟨place, stands, _⟩)
    · cases existing
    · have short : place < 5 := stands.lt
      rcases (by omega : place < 2 ∨ place = 2 ∨ place = 3 ∨ place = 4) with early | rfl | rfl | rfl
      · exact stands.2 2 early rfl
      · cases stands.1
      · cases stands.1
      · cases stands.1
  · decide +kernel

end Burble.Media
