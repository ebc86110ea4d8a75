import Mathlib.Data.UInt
import Burble.Runs
import Burble.E2EE.FrameCryptor

namespace Burble.E2EE

namespace ReplayWindow
variable {w : ReplayWindow} {opened : List Nat}

/-- The window against the counters it was ever handed, whether it took them or not. -/
structure Tracks (w : ReplayWindow) (opened : List Nat) : Prop where
  seen : ∀ counter ∈ w.seen, counter ∈ opened
  kept : ∀ counter ∈ opened, counter ∈ w.seen ∨ w.width ≤ w.highest - counter
  below : ∀ counter ∈ opened, (counter : Int) ≤ w.highest
  reached : w.highest = -1 ∨ ∃ counter ∈ opened, w.highest = counter

theorem wouldAccept_iff {counter : Nat} :
    w.wouldAccept counter = true ↔ counter ∉ w.seen ∧ w.highest - counter < w.width := by
  rw [wouldAccept, Bool.and_eq_true, decide_eq_true_iff, decide_eq_true_iff]

theorem create_tracks {size : Nat} (created : create size = .ok w) : w.width = size ∧ w.Tracks [] := by
  unfold create at created
  split at created
  next => cases created
  next =>
    cases created
    refine ⟨rfl, ⟨?_, ?_, ?_, .inl rfl⟩⟩
    all_goals intro counter member; cases member

/-- A counter is accepted unless it, or one a whole window ahead of it, was opened. -/
theorem Tracks.wouldAccept_iff (tracks : w.Tracks opened) (counter : Nat) :
    w.wouldAccept counter = true ↔ ∀ other ∈ opened, other ≠ counter ∧ other < counter + w.width := by
  rw [ReplayWindow.wouldAccept_iff]
  constructor
  · rintro ⟨unseen, inside⟩ other member
    have low := tracks.below other member
    refine ⟨?_, by omega⟩
    rintro rfl
    rcases tracks.kept other member with seen | behind
    · exact unseen seen
    · omega
  · intro clear
    refine ⟨fun seen => (clear counter (tracks.seen counter seen)).1 rfl, ?_⟩
    rcases tracks.reached with none | ⟨top, member, atTop⟩
    · omega
    · have ahead := (clear top member).2
      omega

theorem accept_width (counter : Nat) : (w.accept counter).1.width = w.width := by
  unfold accept
  split
  · split <;> rfl
  · rfl

theorem Tracks.accept (tracks : w.Tracks opened) (counter : Nat) :
    (w.accept counter).1.Tracks (opened ++ [counter]) := by
  have old {other : Nat} (member : other ∈ opened) : other ∈ opened ++ [counter] := List.mem_append_left _ member
  have new : counter ∈ opened ++ [counter] := List.mem_append_right _ (List.mem_singleton.mpr rfl)
  unfold ReplayWindow.accept
  by_cases accepted : w.wouldAccept counter = true
  · rw [if_pos accepted]
    by_cases higher : w.highest < counter
    · -- the window slides: what falls out of it is a whole window behind the new top
      rw [if_pos higher]
      refine ⟨fun other seen => ?_, fun other member => ?_, fun other member => ?_, .inr ⟨counter, new, rfl⟩⟩
      · rcases List.mem_cons.mp (List.mem_filter.mp seen).1 with rfl | before
        · exact new
        · exact old (tracks.seen other before)
      · have present : other ∈ counter :: w.seen ∨ w.width ≤ w.highest - other := by
          rcases List.mem_append.mp member with before | same
          · exact (tracks.kept other before).imp_left (List.mem_cons_of_mem _)
          · exact .inl (List.mem_singleton.mp same ▸ List.mem_cons_self)
        rcases present with seen | behind
        · by_cases inside : (counter : Int) - w.width + 1 ≤ other
          · exact .inl (List.mem_filter.mpr ⟨seen, decide_eq_true inside⟩)
          · exact .inr (by simp only; omega)
        · exact .inr (by simp only; omega)
      · rcases List.mem_append.mp member with before | same
        · have low := tracks.below other before
          simp only
          omega
        · rw [List.mem_singleton.mp same]
    · rw [if_neg higher]
      refine ⟨fun other seen => ?_, fun other member => ?_, fun other member => ?_, ?_⟩
      · rcases List.mem_cons.mp seen with rfl | before
        · exact new
        · exact old (tracks.seen other before)
      · rcases List.mem_append.mp member with before | same
        · exact (tracks.kept other before).imp_left (List.mem_cons_of_mem _)
        · exact .inl (List.mem_singleton.mp same ▸ List.mem_cons_self)
      · rcases List.mem_append.mp member with before | same
        · exact tracks.below other before
        · rw [List.mem_singleton.mp same]
          exact not_lt.mp higher
      · exact tracks.reached.imp_right fun ⟨top, member, atTop⟩ => ⟨top, old member, atTop⟩
  · -- it was recorded by another call meanwhile, or fell behind
    rw [if_neg accepted]
    have late : counter ∈ w.seen ∨ w.width ≤ w.highest - counter := by
      by_contra neither
      rw [not_or, not_le] at neither
      exact accepted (ReplayWindow.wouldAccept_iff.mpr neither)
    refine ⟨fun other seen => old (tracks.seen other seen), fun other member => ?_, fun other member => ?_,
      tracks.reached.imp_right fun ⟨top, member, atTop⟩ => ⟨top, old member, atTop⟩⟩
    · rcases List.mem_append.mp member with before | same
      · exact tracks.kept other before
      · rw [List.mem_singleton.mp same]
        exact late
    · rcases List.mem_append.mp member with before | same
      · exact tracks.below other before
      · rw [List.mem_singleton.mp same]
        rcases late with seen | behind
        · exact tracks.below counter (tracks.seen counter seen)
        · show (counter : Int) ≤ w.highest
          omega

end ReplayWindow

variable {Key FrameKey : Type} {crypto : WebCrypto Key FrameKey} {epochs : KeyEpoch Key}

namespace FrameCryptor
variable {cryptor after : FrameCryptor} {wire : List UInt8} {expectedSender : Option String}

/-- Nothing changes but for the fresh window of a sender heard for the first time. -/
def Heard (cryptor after : FrameCryptor) : Prop :=
  after = cryptor ∨ ∃ senderId window, cryptor.windows.lookup senderId = none ∧
    ReplayWindow.create cryptor.windowSize = .ok window ∧
    after = { cryptor with windows := cryptor.windows.insert senderId window }

theorem Heard.roomId (heard : cryptor.Heard after) : after.roomId = cryptor.roomId := by
  rcases heard with rfl | ⟨_, _, _, _, rfl⟩ <;> rfl

theorem spend_roomId (cryptor : FrameCryptor) (opening : Opening FrameKey) :
    (cryptor.spend opening).roomId = cryptor.roomId := by
  unfold spend
  split <;> rfl

theorem windowFor_spec {senderId : String} {window : ReplayWindow}
    (found : cryptor.windowFor senderId = .ok (window, after)) :
    cryptor.Heard after ∧ after.windows.lookup senderId = some window := by
  unfold windowFor at found
  split at found
  next present =>
    cases found
    exact ⟨.inl rfl, present⟩
  next absent =>
    split at found
    next created =>
      cases found
      exact ⟨.inr ⟨senderId, window, absent, created, rfl⟩, AList.lookup_insert _⟩
    next => cases found

/-- What an `open()` that passes all its checks has found. -/
structure Passes (crypto : WebCrypto Key FrameKey) (cryptor : FrameCryptor) (epochs : KeyEpoch Key)
    (wire : List UInt8) (expectedSender : Option String) (after : FrameCryptor) (opening : Opening FrameKey) where
  header : FrameHeader
  window : ReplayWindow
  roomKey : Key
  decodes : decodeFrameHeader crypto wire = .ok header
  current : header.epoch = epochs.epoch
  named : header.senderId = some opening.senderId
  nonempty : opening.senderId ≠ ""
  expected : ∀ expected ∈ expectedSender, opening.senderId = expected
  found : cryptor.windowFor opening.senderId = .ok (window, after)
  fresh : window.wouldAccept header.counter = true
  keyed : epochs.roomKey = some roomKey
  locals : opening = ⟨.frameKey, opening.senderId, header.epoch, header.counter, header.body,
    deriveSenderFrameKey crypto roomKey epochs.epoch opening.senderId header.counter⟩

theorem beginOpen_cases (crypto : WebCrypto Key FrameKey) (cryptor : FrameCryptor) (epochs : KeyEpoch Key) (wire : List UInt8)
    (expectedSender : Option String) :
    (∃ reason after, cryptor.beginOpen crypto epochs wire expectedSender = (after, .error reason) ∧
      cryptor.Heard after) ∨
    ∃ after opening, cryptor.beginOpen crypto epochs wire expectedSender = (after, .ok opening) ∧
      Nonempty (cryptor.Passes crypto epochs wire expectedSender after opening) := by
  unfold beginOpen
  split
  next => exact .inl ⟨_, _, rfl, .inl rfl⟩
  next header decodes =>
  split
  next => exact .inl ⟨_, _, rfl, .inl rfl⟩
  next current =>
  split
  next => exact .inl ⟨_, _, rfl, .inl rfl⟩
  next senderId named =>
  split
  next => exact .inl ⟨_, _, rfl, .inl rfl⟩
  next nonempty =>
  split
  next => exact .inl ⟨_, _, rfl, .inl rfl⟩
  next expected =>
  split
  next => exact .inl ⟨_, _, rfl, .inl rfl⟩
  next window after found =>
  split
  next => exact .inl ⟨_, _, rfl, (windowFor_spec found).1⟩
  next fresh =>
  split
  next => exact .inl ⟨_, _, rfl, (windowFor_spec found).1⟩
  next roomKey keyed =>
  refine .inr ⟨_, _, rfl, ⟨header, window, roomKey, decodes, not_not.mp current, named, nonempty, ?_, found, ?_,
    keyed, rfl⟩⟩
  · intro other member
    by_contra different
    exact expected ⟨other, member, different⟩
  · simpa only [Bool.not_eq_false] using fresh

theorem Passes.beginOpen {opening : Opening FrameKey}
    (passes : cryptor.Passes crypto epochs wire expectedSender after opening) :
    cryptor.beginOpen crypto epochs wire expectedSender = (after, .ok opening) := by
  have pinned : ¬ ∃ expected ∈ expectedSender, opening.senderId ≠ expected := by
    rintro ⟨expected, member, different⟩
    exact different (passes.expected expected member)
  unfold FrameCryptor.beginOpen
  simp only [passes.decodes, passes.current, ne_eq, not_true_eq_false, if_false, passes.named, passes.nonempty,
    pinned, passes.found, passes.fresh, Bool.true_eq_false, passes.keyed]
  have locals := passes.locals
  rw [passes.current] at locals
  exact Prod.ext rfl (congrArg Except.ok locals.symm)

end FrameCryptor

namespace CryptorRun
variable {run after : CryptorRun Key FrameKey}

/-- The counters of a sender whose frames were opened, in that order. -/
def counters (run : CryptorRun Key FrameKey) (senderId : String) : List Nat :=
  (run.opened.filter fun frame => frame.senderId = senderId).map Opened.counter

theorem mem_counters {senderId : String} {counter : Nat} :
    counter ∈ run.counters senderId ↔ ∃ frame ∈ run.opened, frame.senderId = senderId ∧ frame.counter = counter := by
  simp only [counters, List.mem_map, List.mem_filter, decide_eq_true_iff, and_assoc]

/-- Each sender's window follows the frames opened for it, over all epochs. -/
structure Tracked (run : CryptorRun Key FrameKey) : Prop where
  windows : ∀ senderId window, run.cryptor.windows.lookup senderId = some window →
    window.width = run.cryptor.windowSize ∧ window.Tracks (run.counters senderId)
  unheard : ∀ senderId, run.cryptor.windows.lookup senderId = none → run.counters senderId = []
  heard : ∀ call opening, run.opening.lookup call = some opening → opening.senderId ∈ run.cryptor.windows

theorem create_tracked (cryptor : FrameCryptor) (unheard : cryptor.windows = ∅) :
    (create cryptor : CryptorRun Key FrameKey).Tracked := by
  refine ⟨fun senderId window found => ?_, fun _ _ => rfl, fun call opening found => by cases found⟩
  rw [create, unheard] at found
  cases found

/-- Tracking reads the windows, what was opened and what is being opened. -/
theorem Tracked.agree (tracked : run.Tracked) (windows : after.cryptor.windows = run.cryptor.windows)
    (size : after.cryptor.windowSize = run.cryptor.windowSize) (opened : after.opened = run.opened)
    (opening : after.opening = run.opening) : after.Tracked := by
  have counters (senderId : String) : after.counters senderId = run.counters senderId := by
    rw [CryptorRun.counters, CryptorRun.counters, opened]
  refine ⟨fun senderId window found => ?_, fun senderId missing => ?_, fun call waiting found => ?_⟩
  · rw [size, counters]
    exact tracked.windows senderId window (windows ▸ found)
  · rw [counters]
    exact tracked.unheard senderId (windows ▸ missing)
  · rw [windows]
    exact tracked.heard call waiting (opening ▸ found)

theorem Tracked.hear (tracked : run.Tracked) {cryptor : FrameCryptor} (heard : run.cryptor.Heard cryptor) :
    { run with cryptor }.Tracked := by
  rcases heard with rfl | ⟨senderId, window, absent, created, rfl⟩
  · exact tracked
  · have none := tracked.unheard senderId absent
    obtain ⟨width, tracks⟩ := ReplayWindow.create_tracks created
    refine ⟨fun other found at_ => ?_, fun other missing => ?_, fun call opening found => ?_⟩
    · simp only [FiniteMap.lookup_insert_if] at at_
      split at at_
      next same =>
        cases at_
        refine ⟨width, ?_⟩
        rw [same]
        exact none ▸ tracks
      next => exact tracked.windows other found at_
    · simp only [FiniteMap.lookup_insert_if] at missing
      split at missing
      next => cases missing
      next => exact tracked.unheard other missing
    · exact (AList.mem_insert _).mpr (.inr (tracked.heard call opening found))

theorem Tracked.await (tracked : run.Tracked) {opening : Opening FrameKey} (call : Nat)
    (heard : opening.senderId ∈ run.cryptor.windows) :
    { run with opening := run.opening.insert call opening }.Tracked := by
  refine ⟨tracked.windows, tracked.unheard, fun other found at_ => ?_⟩
  simp only [FiniteMap.lookup_insert_if] at at_
  split at at_
  next => cases at_; exact heard
  next => exact tracked.heard other found at_

theorem Tracked.forget (tracked : run.Tracked) (call : Nat) :
    { run with opening := run.opening.erase call }.Tracked := by
  refine ⟨tracked.windows, tracked.unheard, fun other found at_ => ?_⟩
  simp only [FiniteMap.lookup_erase_if] at at_
  split at at_
  next => cases at_
  next => exact tracked.heard other found at_

theorem counters_append (run : CryptorRun Key FrameKey) {frame : Opened} (opened : after.opened = run.opened ++ [frame]) (senderId : String) :
    after.counters senderId =
      run.counters senderId ++ if frame.senderId = senderId then [frame.counter] else [] := by
  simp only [counters, opened, List.filter_append, List.map_append]
  by_cases same : frame.senderId = senderId <;> simp [same]

/-- A returned plaintext is recorded as `accept` records its counter. -/
theorem Tracked.spend (tracked : run.Tracked) {opening : Opening FrameKey} (plaintext : List UInt8)
    (heard : opening.senderId ∈ run.cryptor.windows) :
    { run with
      cryptor := run.cryptor.spend opening
      opened := run.opened ++
        [Opened.mk opening.senderId opening.epoch opening.counter plaintext] }.Tracked := by
  obtain ⟨window, atWindow⟩ := Option.isSome_iff_exists.mp (AList.lookup_isSome.mpr heard)
  obtain ⟨width, tracks⟩ := tracked.windows _ window atWindow
  unfold FrameCryptor.spend
  simp only [atWindow]
  refine ⟨fun other found at_ => ?_, fun other missing => ?_, fun call waiting found => ?_⟩
  · rw [counters_append run rfl other]
    simp only [FiniteMap.lookup_insert_if] at at_
    split at at_
    next same =>
      cases at_
      subst same
      rw [if_pos rfl, show (window.accept opening.counter).1.width = _ from ReplayWindow.accept_width _]
      exact And.intro width (tracks.accept _)
    next different =>
      rw [if_neg (Ne.symm different), List.append_nil]
      exact tracked.windows other found at_
  · rw [counters_append run rfl other]
    simp only [FiniteMap.lookup_insert_if] at missing
    split at missing
    next => cases missing
    next different =>
      rw [if_neg (Ne.symm different), List.append_nil]
      exact tracked.unheard other missing
  · exact (AList.mem_insert _).mpr (.inr (tracked.heard call waiting found))

/-- What a step does to a cryptor and to the frames it opens. -/
inductive Moves (crypto : WebCrypto Key FrameKey) (run : CryptorRun Key FrameKey) (epochs : KeyEpoch Key) :
    CryptorEvent → CryptorRun Key FrameKey → Prop
  | refused {wire expectedSender cryptor} :
      run.cryptor.Heard cryptor → Moves crypto run epochs (.openFrame wire expectedSender) { run with cryptor }
  | passed {wire expectedSender cryptor opening} :
      run.cryptor.beginOpen crypto epochs wire expectedSender = (cryptor, .ok opening) →
      run.cryptor.Passes crypto epochs wire expectedSender cryptor opening →
      Moves crypto run epochs (.openFrame wire expectedSender)
        { run with cryptor, opening := run.opening.insert run.nextCall opening, nextCall := run.nextCall + 1 }
  -- A frame that is sealed only moves the counter.
  | aside {event counter sealing nextCall} :
      Moves crypto run epochs event { run with cryptor := { run.cryptor with counter }, sealing, nextCall }
  | opens {call opening} :
      run.opening.lookup call = some opening → Moves crypto run epochs (.opens call) (run.opens crypto call opening)
  | rejects {call} :
      Moves crypto run epochs (.rejects call)
        { run with opening := run.opening.erase call, sealing := run.sealing.erase call }

theorem step_moves {event : CryptorEvent} (taken : run.step crypto epochs event = some after) :
    run.Moves crypto epochs event after := by
  cases event with
  | openFrame wire expectedSender =>
    rcases FrameCryptor.beginOpen_cases crypto run.cryptor epochs wire expectedSender with
      ⟨reason, cryptor, refused, heard⟩ | ⟨cryptor, opening, passed, ⟨passes⟩⟩
    · rw [CryptorRun.step, refused] at taken
      cases taken
      exact .refused heard
    · have made := passed
      rw [CryptorRun.step, passed] at taken
      cases taken
      exact .passed made passes
  | sealFrame plaintext =>
    simp only [CryptorRun.step, FrameCryptor.beginSeal] at taken
    by_cases exhausted : uint32Max < run.cryptor.counter
    · rw [if_pos exhausted] at taken
      cases taken
      exact .aside
    · rw [if_neg exhausted] at taken
      cases atKey : epochs.roomKey <;>
        · rw [atKey] at taken
          cases taken
          exact .aside
  | opens call =>
    obtain ⟨opening, found, rfl⟩ := Option.map_eq_some_iff.mp taken
    exact .opens found
  | rejects call =>
    cases taken
    exact .rejects
  | seals call iv =>
    obtain ⟨_, _, rfl⟩ := Option.map_eq_some_iff.mp taken
    exact .aside

theorem Tracked.step (tracked : run.Tracked) {event : CryptorEvent}
    (taken : run.step crypto epochs event = some after) : after.Tracked := by
  cases step_moves taken with
  | refused heard => exact tracked.hear heard
  | passed _ passes =>
    obtain ⟨heard, present⟩ := FrameCryptor.windowFor_spec passes.found
    have known := AList.lookup_isSome.mp (Option.isSome_of_eq_some present)
    exact ((tracked.hear heard).await run.nextCall known).agree rfl rfl rfl rfl
  | aside => exact tracked.agree rfl rfl rfl rfl
  | @opens call opening found =>
    have heard := tracked.heard call opening found
    unfold CryptorRun.opens
    split
    · exact tracked.await call heard
    · split
      · exact tracked.forget call
      · exact (tracked.forget call).spend _ heard
  | @rejects call => exact (tracked.forget call).agree rfl rfl rfl rfl

/-- A counter that passes the window was not opened before, in whichever epoch. -/
theorem Tracked.fresh (tracked : run.Tracked) {cryptor : FrameCryptor} {senderId : String} {window : ReplayWindow}
    (found : run.cryptor.windowFor senderId = .ok (window, cryptor)) (counter : Nat) :
    window.wouldAccept counter = true ↔
      ∀ other ∈ run.counters senderId, other ≠ counter ∧ other < counter + run.cryptor.windowSize := by
  obtain ⟨heard, present⟩ := FrameCryptor.windowFor_spec found
  obtain ⟨width, tracks⟩ := (tracked.hear heard).windows senderId window present
  have size : cryptor.windowSize = run.cryptor.windowSize := by
    rcases heard with rfl | ⟨_, _, _, _, rfl⟩ <;> rfl
  rw [tracks.wouldAccept_iff, width, size]
  rfl

/-- Whether a frame under way is going to decrypt. -/
def authentic (crypto : WebCrypto Key FrameKey) (run : CryptorRun Key FrameKey) (opening : Opening FrameKey) : Bool :=
  (run.cryptor.decrypted crypto opening).isOk

theorem authentic_eq (room : after.cryptor.roomId = run.cryptor.roomId) (opening : Opening FrameKey) :
    after.authentic crypto opening = run.authentic crypto opening := by
  rw [authentic, authentic, FrameCryptor.decrypted, FrameCryptor.decrypted, room]

/-- No two frames under way that will decrypt, and none under way and one opened, have the
same sender and counter. -/
structure Unspent (crypto : WebCrypto Key FrameKey) (run : CryptorRun Key FrameKey) : Prop where
  apart : ∀ call other first second, run.opening.lookup call = some first → run.opening.lookup other = some second →
    run.authentic crypto first = true → run.authentic crypto second = true →
    first.senderId = second.senderId → first.counter = second.counter → call = other
  unopened : ∀ call opening, run.opening.lookup call = some opening → run.authentic crypto opening = true →
    opening.counter ∉ run.counters opening.senderId
  once : (run.opened.map fun frame => (frame.senderId, frame.counter)).Nodup

/-- An `open()` that passes its checks does not repeat one under way. -/
def Unrepeated (crypto : WebCrypto Key FrameKey) (run : CryptorRun Key FrameKey) (epochs : KeyEpoch Key) :
    CryptorEvent → Prop
  | .openFrame wire expectedSender =>
    ∀ opening ∈ (run.cryptor.beginOpen crypto epochs wire expectedSender).2.toOption,
      run.authentic crypto opening = true → ∀ entry ∈ run.opening.toList,
        run.authentic crypto entry.2 = true →
          ¬ (entry.2.senderId = opening.senderId ∧ entry.2.counter = opening.counter)
  | _ => True

instance (crypto : WebCrypto Key FrameKey) (run : CryptorRun Key FrameKey) (epochs : KeyEpoch Key)
    (event : CryptorEvent) : Decidable (run.Unrepeated crypto epochs event) :=
  match event with
  | .openFrame wire expectedSender =>
    inferInstanceAs (Decidable (∀ opening ∈ (run.cryptor.beginOpen crypto epochs wire expectedSender).2.toOption,
      run.authentic crypto opening = true → ∀ entry ∈ run.opening.toList, run.authentic crypto entry.2 = true →
        ¬ (entry.2.senderId = opening.senderId ∧ entry.2.counter = opening.counter)))
  | .sealFrame _ | .opens _ | .rejects _ | .seals _ _ => isTrue trivial

theorem create_unspent (cryptor : FrameCryptor) : (create cryptor : CryptorRun Key FrameKey).Unspent crypto := by
  refine ⟨fun _ _ _ _ found => ?_, fun _ _ found => ?_, List.nodup_nil⟩ <;> cases found

theorem Unspent.agree (unspent : run.Unspent crypto) (room : after.cryptor.roomId = run.cryptor.roomId)
    (opened : after.opened = run.opened)
    (fewer : ∀ call opening, after.opening.lookup call = some opening → run.opening.lookup call = some opening) :
    after.Unspent crypto := by
  refine ⟨fun call other first second atFirst atSecond => ?_, fun call opening found => ?_, ?_⟩
  · rw [authentic_eq room, authentic_eq room]
    exact unspent.apart call other first second (fewer _ _ atFirst) (fewer _ _ atSecond)
  · rw [authentic_eq room, counters, opened]
    exact unspent.unopened call opening (fewer _ _ found)
  · rw [opened]
    exact unspent.once

theorem Unspent.forget (unspent : run.Unspent crypto) (call : Nat) :
    { run with opening := run.opening.erase call }.Unspent crypto := by
  refine unspent.agree rfl rfl fun other opening found => ?_
  simp only [FiniteMap.lookup_erase_if, Option.ite_none_left_eq_some] at found
  exact found.2

/-- A frame joins those under way, or one of them awaits its next promise. -/
theorem Unspent.await (unspent : run.Unspent crypto) {opening : Opening FrameKey} (call : Nat)
    (apart : run.authentic crypto opening = true → ∀ other waiting, run.opening.lookup other = some waiting →
      other ≠ call → run.authentic crypto waiting = true →
      ¬ (waiting.senderId = opening.senderId ∧ waiting.counter = opening.counter))
    (unopened : run.authentic crypto opening = true → opening.counter ∉ run.counters opening.senderId) :
    { run with opening := run.opening.insert call opening }.Unspent crypto := by
  have room : { run with opening := run.opening.insert call opening }.cryptor.roomId = run.cryptor.roomId := rfl
  refine ⟨fun one other first second atFirst atSecond => ?_, fun one waiting found => ?_, unspent.once⟩
  · rw [authentic_eq room, authentic_eq room]
    intro firstAuthentic secondAuthentic sender counter
    simp only [FiniteMap.lookup_insert_if] at atFirst atSecond
    split at atFirst <;> split at atSecond
    next here there => rw [here, there]
    next here there =>
      cases atFirst
      exact absurd ⟨sender.symm, counter.symm⟩ (apart firstAuthentic other second atSecond there secondAuthentic)
    next here there =>
      cases atSecond
      exact absurd ⟨sender, counter⟩ (apart secondAuthentic one first atFirst here firstAuthentic)
    next => exact unspent.apart one other first second atFirst atSecond firstAuthentic secondAuthentic sender counter
  · rw [authentic_eq room]
    simp only [FiniteMap.lookup_insert_if] at found
    split at found
    next => cases found; exact unopened
    next => exact unspent.unopened one waiting found

/-- A frame is opened: none under way has its sender and counter. -/
theorem Unspent.spend (unspent : run.Unspent crypto) {call : Nat} {opening : Opening FrameKey}
    (found : run.opening.lookup call = some opening) {plaintext : List UInt8}
    (decrypts : run.cryptor.decrypted crypto opening = .ok plaintext)
    (room : after.cryptor.roomId = run.cryptor.roomId) (waiting : after.opening = run.opening.erase call)
    (opened : after.opened = run.opened ++ [⟨opening.senderId, opening.epoch, opening.counter, plaintext⟩]) :
    after.Unspent crypto := by
  have genuine : run.authentic crypto opening = true := by rw [authentic, decrypts]; rfl
  have kept {other : Nat} {left : Opening FrameKey} (present : after.opening.lookup other = some left) :
      other ≠ call ∧ run.opening.lookup other = some left := by
    simpa only [waiting, FiniteMap.lookup_erase_if, Option.ite_none_left_eq_some] using present
  refine ⟨fun one other first second atFirst atSecond => ?_, fun other left present => ?_, ?_⟩
  · rw [authentic_eq room, authentic_eq room]
    exact unspent.apart one other first second (kept atFirst).2 (kept atSecond).2
  · rw [authentic_eq room, counters_append run opened]
    intro authentic member
    obtain ⟨different, before⟩ := kept present
    rcases List.mem_append.mp member with old | new
    · exact unspent.unopened other left before authentic old
    · split at new
      next same =>
        exact different (unspent.apart other call left opening before found authentic genuine same.symm
          (List.mem_singleton.mp new))
      next => cases new
  · rw [opened, List.map_append, List.nodup_append]
    refine ⟨unspent.once, List.nodup_singleton _, fun pair old new member => ?_⟩
    rw [List.map_singleton, List.mem_singleton] at member
    rintro rfl
    obtain ⟨frame, among, same⟩ := List.mem_map.mp old
    rw [member, Prod.mk.injEq] at same
    exact unspent.unopened call opening found genuine (mem_counters.mpr ⟨frame, among, same⟩)

theorem Unspent.step (unspent : run.Unspent crypto) (tracked : run.Tracked) {event : CryptorEvent}
    (unrepeated : run.Unrepeated crypto epochs event) (taken : run.step crypto epochs event = some after) :
    after.Unspent crypto := by
  cases step_moves taken with
  | refused heard => exact unspent.agree heard.roomId rfl fun _ _ found => found
  | @passed wire expectedSender cryptor opening passed passes =>
    simp only [CryptorRun.Unrepeated, passed] at unrepeated
    have heard := (FrameCryptor.windowFor_spec passes.found).1
    have fresh := (tracked.fresh passes.found passes.header.counter).mp passes.fresh
    have counter : opening.counter = passes.header.counter := congrArg Opening.counter passes.locals
    have started : { run with opening := run.opening.insert run.nextCall opening }.Unspent crypto := by
      refine unspent.await run.nextCall (fun genuine other waiting found _ => ?_) fun _ member => ?_
      · exact unrepeated opening rfl genuine (other, waiting) (FiniteMap.mem_toList.mpr found)
      · exact (fresh opening.counter member).1 counter
    exact started.agree heard.roomId rfl fun _ _ found => found
  | aside => exact unspent.agree rfl rfl fun _ _ found => found
  | @opens call opening found =>
    unfold CryptorRun.opens
    split
    · refine unspent.await call (fun genuine other waiting present different => ?_) fun genuine => ?_
      · intro genuine' same
        exact different (unspent.apart other call waiting opening present found genuine' genuine same.1 same.2)
      · exact unspent.unopened call opening found genuine
    · split
      next => exact unspent.forget call
      next plaintext decrypts => exact unspent.spend found decrypts (FrameCryptor.spend_roomId ..) rfl rfl
  | @rejects call => exact (unspent.forget call).agree rfl rfl fun _ _ found => found

end CryptorRun

/-- One cryptor and the key tracker it reads, while the room stays at an epoch. -/
structure ReplayState (Key FrameKey : Type) where
  epochs : KeyEpoch Key
  run : CryptorRun Key FrameKey

inductive ReplayEvent (Key : Type)
  | cryptor (event : CryptorEvent)
  /-- a sealed key is opened within the epoch -/
  | setRoomKey (key : Key)

namespace ReplayState

def create (epochs : KeyEpoch Key) (roomId localId : String) (remoteId : Option String) (windowSize : Nat) :
    ReplayState Key FrameKey :=
  ⟨epochs, .create (.create roomId localId remoteId windowSize)⟩

def step (crypto : WebCrypto Key FrameKey) (s : ReplayState Key FrameKey) :
    ReplayEvent Key → Option (ReplayState Key FrameKey)
  | .cryptor event => (s.run.step crypto s.epochs event).map fun run => { s with run }
  | .setRoomKey key => some { s with epochs := s.epochs.setRoomKey key }

/-- No `open()` that passes its checks repeats one under way. -/
def Unrepeated (crypto : WebCrypto Key FrameKey) (s : ReplayState Key FrameKey) : ReplayEvent Key → Prop
  | .cryptor event => s.run.Unrepeated crypto s.epochs event
  | .setRoomKey _ => True

instance (crypto : WebCrypto Key FrameKey) (s : ReplayState Key FrameKey) (label : ReplayEvent Key) :
    Decidable (s.Unrepeated crypto label) :=
  match label with
  | .cryptor event => inferInstanceAs (Decidable (s.run.Unrepeated crypto s.epochs event))
  | .setRoomKey _ => isTrue trivial

/-- Each sender and counter had its plaintext returned at most once. -/
def OpenedOnce (s : ReplayState Key FrameKey) : Prop :=
  (s.run.opened.map fun frame => (frame.senderId, frame.counter)).Nodup

instance (s : ReplayState Key FrameKey) : Decidable s.OpenedOnce := inferInstanceAs (Decidable (List.Nodup _))

end ReplayState

def ReplayStep (crypto : WebCrypto Key FrameKey) (before : ReplayState Key FrameKey) (label : ReplayEvent Key)
    (after : ReplayState Key FrameKey) : Prop :=
  before.step crypto label = some after

theorem ReplayStep.kept {before after : ReplayState Key FrameKey} {label : ReplayEvent Key}
    (sound : before.run.Tracked ∧ before.run.Unspent crypto)
    (taken : Guarded (ReplayState.Unrepeated crypto) (ReplayStep crypto) before label after) :
    after.run.Tracked ∧ after.run.Unspent crypto := by
  obtain ⟨unrepeated, taken⟩ := taken
  cases label with
  | cryptor event =>
    obtain ⟨next, moved, rfl⟩ := Option.map_eq_some_iff.mp taken
    exact ⟨sound.1.step moved, sound.2.step sound.1 unrepeated moved⟩
  | setRoomKey key =>
    cases taken
    exact sound

/-- However the calls interleave, no plaintext is returned twice, as long as no frame is
opened beside a copy of itself. -/
theorem opened_once_of_unrepeated {roomId localId : String} {remoteId : Option String} {windowSize : Nat}
    {labels : List (ReplayEvent Key)} {last : ReplayState Key FrameKey}
    (run : Run (Guarded (ReplayState.Unrepeated crypto) (ReplayStep crypto))
      (.create epochs roomId localId remoteId windowSize) labels last) : last.OpenedOnce := by
  have kept : last.run.Tracked ∧ last.run.Unspent crypto := by
    induction run with
    | start => exact ⟨CryptorRun.create_tracked _ rfl, CryptorRun.create_unspent _⟩
    | next _ taken ih => exact ReplayStep.kept ih taken
  exact kept.2.once

/-- A cipher that only checks a sum over its key, IV and additional data. -/
def checksumCrypto : WebCrypto Nat (Nat × List UInt8 × List UInt8) where
  sha256 bytes := bytes
  hkdf key salt info := (key, salt, info)
  encrypt key iv additionalData plaintext :=
    plaintext ++ List.replicate tagBytes (key.1.toUInt8 + (key.2.1 ++ key.2.2 ++ iv ++ additionalData).sum)
  decrypt key iv additionalData sealedBytes :=
    let size := sealedBytes.length - tagBytes
    if sealedBytes.drop size =
        List.replicate tagBytes (key.1.toUInt8 + (key.2.1 ++ key.2.2 ++ iv ++ additionalData).sum) then
      some (sealedBytes.take size)
    else none
  replaceMalformed _ := "\uFFFD"

theorem checksumCrypto_lawful : checksumCrypto.Lawful where
  tagged key iv additionalData plaintext := by simp [checksumCrypto]
  opens key iv additionalData plaintext := by simp [checksumCrypto]

def zeroIv : Iv := ⟨List.replicate ivBytes 0, rfl⟩

/-- Bob's first frame at epoch 0. -/
def bobsFrame : List UInt8 :=
  ((FrameCryptor.create "r" "bob" (some "alice") 256).sealed checksumCrypto ⟨0, 0, 7, [1, 2, 3]⟩ zeroIv).toOption.getD []

/-- Two receivers hand Alice's cryptor the same frame before either has decrypted it. -/
def besideItself : List (ReplayEvent Nat) :=
  [.openFrame bobsFrame (some "bob"), .openFrame bobsFrame (some "bob"), .opens 0, .opens 1, .opens 0,
    .opens 1].map .cryptor

theorem frame_opened_twice : ¬ ∀ (labels : List (ReplayEvent Nat)) last,
    Run (ReplayStep checksumCrypto) (.create ⟨0, some 7⟩ "r" "alice" (some "bob") 256) labels last →
      last.OpenedOnce := by
  have twice : ((play (ReplayState.step checksumCrypto) besideItself
      (.create ⟨0, some 7⟩ "r" "alice" (some "bob") 256)).any fun last => !decide last.OpenedOnce) = true := by
    decide +kernel
  intro always
  obtain ⟨last, played, repeated⟩ := (Option.any_eq_true ..).mp twice
  exact of_decide_eq_false ((Bool.not_eq_true' _).mp repeated) (always besideItself last (play_run played))

/-- One after the other, the second copy is refused. -/
def afterItself : List (ReplayEvent Nat) :=
  [.openFrame bobsFrame (some "bob"), .opens 0, .opens 0, .openFrame bobsFrame (some "bob")].map .cryptor

theorem opened_once_of_unrepeated_bob : ∃ last : ReplayState Nat (Nat × List UInt8 × List UInt8),
    Run (Guarded (ReplayState.Unrepeated checksumCrypto) (ReplayStep checksumCrypto))
      (.create ⟨0, some 7⟩ "r" "alice" (some "bob") 256) afterItself last ∧
    last.run.opened = [⟨"bob", 0, 0, [1, 2, 3]⟩] ∧ last.OpenedOnce := by
  have once : ((play (fun s : ReplayState Nat (Nat × List UInt8 × List UInt8) => fun label =>
      if s.Unrepeated checksumCrypto label then s.step checksumCrypto label else none) afterItself
      (.create ⟨0, some 7⟩ "r" "alice" (some "bob") 256)).any fun last =>
        decide (last.run.opened = [⟨"bob", 0, 0, [1, 2, 3]⟩])) = true := by decide +kernel
  obtain ⟨last, played, opened⟩ := (Option.any_eq_true ..).mp once
  have run := play_run_guarded played
  exact ⟨last, run, of_decide_eq_true opened, opened_once_of_unrepeated run⟩

end Burble.E2EE
