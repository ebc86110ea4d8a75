import Burble.Fallible
import Burble.Runs
import Burble.Signaling.CurrentLives

namespace Burble.Signaling

/-- Rooms that no reader tells apart. -/
def Room.Alike (room other : Room) : Prop := room.created = other.created ∧ ∀ type, room.shows type = other.shows type

/-- Relays that are the same but for rooms that have expired. -/
structure Relay.Alike (s t : Relay) : Prop where
  now : s.now = t.now
  readers : s.readers = t.readers
  rooms : ∀ name, Option.Rel Room.Alike (s.live name) (t.live name)

section Alike
variable {config : RelayConfig} {s t s' t' : Relay} {name : String}

theorem Room.Alike.written {room other : Room} (alike : room.Alike other) (type : Blob) (body : String) (now : Nat) :
    (room.written type body now).Alike (other.written type body now) :=
  ⟨rfl, fun blob => by rw [written_shows, written_shows, alike.2 blob]⟩

theorem sweep_lookup (s : Relay) (name : String) : s.sweep.rooms.lookup name = s.live name :=
  FiniteMap.lookup_filterValues _ _ _

theorem Relay.Alike.liveRooms (alike : s.Alike t) : s.liveRooms = t.liveRooms := by
  refine FiniteMap.size_congr fun name => ?_
  rw [sweep_lookup, sweep_lookup]
  rcases Fallible.rel_cases (alike.rooms name) with ⟨none, none'⟩ | ⟨_, _, some, some', -⟩
  · exact iff_of_true none none'
  · exact iff_of_false (by rw [some]; nofun) (by rw [some']; nofun)

theorem Relay.Alike.sweep_left (alike : s.Alike t) : s.sweep.Alike t :=
  ⟨alike.now, alike.readers, fun name => (live_sweep s name).symm ▸ alike.rooms name⟩

theorem Relay.Alike.sweep_right (alike : s.Alike t) : s.Alike t.sweep :=
  ⟨alike.now, alike.readers, fun name => (live_sweep t name).symm ▸ alike.rooms name⟩

/-- As time passes, rooms that are live may expire, and no other comes to live. -/
theorem live_tick (s : Relay) (elapsed : Nat) (name : String) :
    Relay.live { s with now := s.now + elapsed } name =
      (s.live name).filter fun room => ¬ Relay.isExpired (s.now + elapsed) room := by
  rw [Relay.live, Relay.live, Option.filter_filter]
  congr 1
  funext room
  rw [Bool.eq_iff_iff, Bool.and_eq_true, decide_eq_true_eq, decide_eq_true_eq, not_expired, not_expired]
  dsimp only
  omega

theorem Relay.Alike.tick (alike : s.Alike t) (elapsed : Nat) :
    Relay.Alike { s with now := s.now + elapsed } { t with now := t.now + elapsed } := by
  refine ⟨congrArg (· + elapsed) alike.now, alike.readers, fun name => ?_⟩
  rw [live_tick, live_tick, ← alike.now]
  rcases Fallible.rel_cases (alike.rooms name) with ⟨none, none'⟩ | ⟨one, other, some, some', same⟩
  · rw [none, none']
    exact .none
  · rw [some, some']
    have expired : Relay.isExpired (s.now + elapsed) one = Relay.isExpired (s.now + elapsed) other := by
      rw [Relay.isExpired, Relay.isExpired, same.1]
    simp only [Option.filter_some, expired]
    split
    · exact .some same
    · exact .none

theorem Relay.Alike.insert (alike : s.Alike t) {room other : Room} (same : room.Alike other)
    (fresh : Relay.isExpired s.now room = false) (name : String) :
    Relay.Alike { s with rooms := s.rooms.insert name room } { t with rooms := t.rooms.insert name other } := by
  have fresh' : Relay.isExpired t.now other = false := by rw [Relay.isExpired, ← alike.now, ← same.1]; exact fresh
  refine ⟨alike.now, alike.readers, fun place => ?_⟩
  rw [live_insert s name fresh, live_insert t name fresh']
  split
  · exact .some same
  · exact alike.rooms place

theorem put_large {type : Blob} {declared : Nat} {body : String}
    (large : ¬ (declared ≤ config.maxBodyBytes ∧ (utf8 body).length ≤ config.maxBodyBytes)) :
    s.put config name type declared body = (.tooLarge, s) := by
  rcases put_cases config s name type declared body with ⟨-, done⟩ | ⟨fits, -⟩
  · exact done
  · exact absurd fits large

theorem put_live {type : Blob} {declared : Nat} {body : String} {room : Room}
    (fits : declared ≤ config.maxBodyBytes ∧ (utf8 body).length ≤ config.maxBodyBytes) (live : s.live name = some room) :
    s.put config name type declared body =
      (.stored, { s with rooms := s.rooms.insert name (room.written type body s.now) }) := by
  have found := (live_eq_some.mp live).1
  rcases put_cases config s name type declared body with ⟨large, -⟩ | ⟨-, ⟨kept, there, done⟩ | ⟨missing, -⟩ | ⟨missing, -⟩⟩
  · exact absurd fits large
  · cases found.symm.trans there
    exact done
  · cases found.symm.trans missing
  · cases found.symm.trans missing

/-- A clear PUT to a room that does not live begins its life anew, if there is space for it among those that live. -/
theorem put_gone {type : Blob} {declared : Nat} {body : String} (clear : s.Clear config (.put name type declared body))
    (fits : declared ≤ config.maxBodyBytes ∧ (utf8 body).length ≤ config.maxBodyBytes) (gone : s.live name = none) :
    (s.liveRooms < config.maxRooms ∧ ∃ room : Room, room.shows type.other = none ∧ s.put config name type declared body =
        (.stored, { s with rooms := s.rooms.insert name (room.written type body s.now) })) ∨
      config.maxRooms ≤ s.liveRooms ∧ s.put config name type declared body = (.tooManyRooms, s) := by
  obtain ⟨lingers, crowded⟩ := clear fits.1 fits.2
  rcases put_cases config s name type declared body with ⟨large, -⟩ | ⟨-, ⟨room, found, done⟩ | ⟨-, space, done⟩ | ⟨missing, full, done⟩⟩
  · exact absurd fits large
  · obtain ⟨empty, space⟩ := lingers room found (live_eq_none.mp gone room found)
    exact .inl ⟨space, room, empty, done⟩
  · have fewer : s.liveRooms ≤ s.rooms.size := FiniteMap.size_filterValues_le _ _
    exact .inl ⟨by omega, ⟨s.now, none, none⟩, by cases type <;> rfl, done⟩
  · exact .inr ⟨crowded missing full, done⟩

theorem Blob.eq_other {type blob : Blob} (different : blob ≠ type) : blob = type.other := by
  cases type <;> cases blob <;> first | rfl | exact absurd rfl different

theorem Relay.Alike.put (alike : s.Alike t) {type : Blob} {declared : Nat} {body : String}
    (clear : s.Clear config (.put name type declared body)) (clear' : t.Clear config (.put name type declared body)) :
    (s.put config name type declared body).1 = (t.put config name type declared body).1 ∧
      (s.put config name type declared body).2.Alike (t.put config name type declared body).2 := by
  have written {room other : Room} (same : room.shows type.other = other.shows type.other) :
      Relay.Alike { s with rooms := s.rooms.insert name (room.written type body s.now) }
        { t with rooms := t.rooms.insert name (other.written type body t.now) } := by
    refine alike.insert ⟨alike.now, fun blob => ?_⟩ (written_fresh room type body s.now) name
    rw [written_shows, written_shows]
    split
    next => rfl
    next different => rw [Blob.eq_other different, same]
  by_cases fits : declared ≤ config.maxBodyBytes ∧ (utf8 body).length ≤ config.maxBodyBytes
  · rcases Fallible.rel_cases (alike.rooms name) with ⟨gone, gone'⟩ | ⟨room, room', live, live', same⟩
    · have count := alike.liveRooms
      rcases put_gone clear fits gone with ⟨space, room, empty, done⟩ | ⟨full, done⟩ <;>
        rcases put_gone clear' fits gone' with ⟨space', room', empty', done'⟩ | ⟨full', done'⟩
      · rw [done, done']
        exact ⟨rfl, written (empty.trans empty'.symm)⟩
      · omega
      · omega
      · rw [done, done']
        exact ⟨rfl, alike⟩
    · rw [put_live fits live, put_live fits live']
      exact ⟨rfl, written (same.2 _)⟩
  · rw [put_large fits, put_large fits]
    exact ⟨rfl, alike⟩

theorem look_empty {type : Blob} (clear : ∀ room ∈ s.rooms.lookup name, ¬ Relay.isExpired s.now room)
    (empty : ∀ room, s.live name = some room → room.shows type = none) : s.look name type = (none, s) := by
  rcases look_cases s name type with ⟨room, found, late, -⟩ | ⟨room, data, live, shown, -⟩ | ⟨-, -, done⟩
  · exact absurd late (clear room found)
  · cases shown.symm.trans (empty room live)
  · exact done

theorem look_shown {type : Blob} {room : Room} {data : String} (live : s.live name = some room) :
    room.shows type = some data → s.look name type = (some (.blob data), match type with
      | .answer => { s with rooms := s.rooms.insert name { room with answer := none } }
      | .offer => s) := by
  intro shown
  obtain ⟨found, fresh⟩ := live_eq_some.mp live
  rcases look_cases s name type with ⟨other, there, late, -⟩ | ⟨other, data', there, shown', done⟩ | ⟨empty, -, -⟩
  · cases found.symm.trans there
    exact absurd late fresh
  · cases live.symm.trans there
    cases shown.symm.trans shown'
    exact done
  · cases shown.symm.trans (empty room live)

/-- A look at a room that does not linger answers by what the room shows. -/
theorem Relay.Alike.look (alike : s.Alike t) (type : Blob) (clear : ∀ room ∈ s.rooms.lookup name, ¬ Relay.isExpired s.now room)
    (clear' : ∀ room ∈ t.rooms.lookup name, ¬ Relay.isExpired t.now room) :
    (s.look name type).1 = (t.look name type).1 ∧ (s.look name type).2.Alike (t.look name type).2 := by
  rcases Fallible.rel_cases (alike.rooms name) with ⟨gone, gone'⟩ | ⟨room, room', live, live', same⟩
  · rw [look_empty clear fun room live => by cases gone.symm.trans live]
    rw [look_empty clear' fun room live => by cases gone'.symm.trans live]
    exact ⟨rfl, alike⟩
  · cases shown : room.shows type with
    | none =>
      have shown' := (same.2 type).symm.trans shown
      rw [look_empty clear fun other there => by cases live.symm.trans there; exact shown]
      rw [look_empty clear' fun other there => by cases live'.symm.trans there; exact shown']
      exact ⟨rfl, alike⟩
    | some data =>
      rw [look_shown live shown, look_shown live' ((same.2 type).symm.trans shown)]
      refine ⟨rfl, ?_⟩
      cases type with
      | offer => exact alike
      | answer =>
        have fresh : Relay.isExpired s.now { room with answer := none } = false := Bool.not_eq_true _ ▸ (live_eq_some.mp live).2
        have kept : Room.Alike { room with answer := none } { room' with answer := none } := by
          refine ⟨same.1, fun blob => ?_⟩
          cases blob with
          | offer => exact same.2 .offer
          | answer => rfl
        exact alike.insert kept fresh name

theorem Relay.Alike.with_readers (alike : s.Alike t) (change : FiniteMap Nat Reader → FiniteMap Nat Reader) :
    Relay.Alike { s with readers := change s.readers } { t with readers := change t.readers } :=
  ⟨alike.now, congrArg change alike.readers, alike.rooms⟩

theorem Relay.Alike.poll (alike : s.Alike t) (id : Nat) (reader : Reader)
    (clear : s.now < reader.deadline → ∀ room ∈ s.rooms.lookup reader.name, ¬ Relay.isExpired s.now room)
    (clear' : t.now < reader.deadline → ∀ room ∈ t.rooms.lookup reader.name, ¬ Relay.isExpired t.now room) :
    (s.poll id reader).1 = (t.poll id reader).1 ∧ (s.poll id reader).2.Alike (t.poll id reader).2 := by
  unfold Relay.poll
  by_cases early : s.now < reader.deadline
  · have early' : t.now < reader.deadline := alike.now ▸ early
    obtain ⟨same, agree⟩ := alike.look reader.type (clear early) (clear' early')
    rw [if_pos early, if_pos early']
    generalize s.look reader.name reader.type = looked at same agree
    generalize t.look reader.name reader.type = looked' at same agree
    obtain ⟨_ | response, next⟩ := looked <;> obtain ⟨_ | response', next'⟩ := looked' <;> cases same
    · have clock : next.now = next'.now := agree.now
      have waiting := agree.with_readers fun readers => readers.insert id { reader with wakes := next.now + pollMs }
      refine ⟨rfl, waiting.now, waiting.readers.trans ?_, waiting.rooms⟩
      rw [clock]
    · exact ⟨rfl, agree.with_readers _⟩
  · rw [if_neg early, if_neg (alike.now ▸ early)]
    exact ⟨rfl, alike.with_readers _⟩

/-- Relays that are the same but for rooms that have expired serve clear events alike. -/
theorem Relay.Alike.serve (alike : s.Alike t) {event : Event} {reply reply' : Option Response} (clear : s.Clear config event)
    (clear' : t.Clear config event) (served : s.serve config event = some (reply, s'))
    (served' : t.serve config event = some (reply', t')) : reply = reply' ∧ s'.Alike t' := by
  cases event with
  | tick elapsed =>
    cases served
    cases served'
    exact ⟨rfl, alike.tick elapsed⟩
  | sweep =>
    cases served
    cases served'
    exact ⟨rfl, alike.sweep_left.sweep_right⟩
  | put name type declared body =>
    obtain ⟨same, agree⟩ := alike.put clear clear'
    cases served
    cases served'
    exact ⟨congrArg some same, agree⟩
  | get id name type =>
    rw [Relay.serve] at served served'
    split at served
    next => cases served
    next =>
      split at served'
      next => cases served'
      next =>
        obtain ⟨same, agree⟩ := alike.poll id ⟨name, type, s.now + longPollMs, s.now⟩ (fun _ => clear) (fun _ => clear')
        rw [Option.some.inj served] at same agree
        rw [alike.now] at same agree
        rw [Option.some.inj served'] at same agree
        exact ⟨same, agree⟩
  | wake id =>
    rw [Relay.serve] at served served'
    rw [← alike.readers, ← alike.now] at served'
    cases waits : s.readers.lookup id with
    | none =>
      rw [waits] at served
      cases served
    | some reader =>
      rw [waits] at served served'
      by_cases due : reader.wakes ≤ s.now
      · obtain ⟨same, agree⟩ := alike.poll id reader (clear reader waits) (clear' reader (alike.readers ▸ waits))
        rw [Option.some.inj ((if_pos due).symm.trans served), Option.some.inj ((if_pos due).symm.trans served')] at same agree
        exact ⟨same, agree⟩
      · cases (if_neg due).symm.trans served

theorem Relay.Alike.request (alike : s.Alike t) (event : Event) : s.request event = t.request event := by
  cases event <;> first | rfl | simp only [Relay.request, alike.readers]

end Alike

/-- What was served, without the sweeps. -/
def unswept (history : List Served) : List Served := history.filter fun e => e.event ≠ .sweep

section Runs
variable {config : RelayConfig} {history history' : List Served} {last last' : Relay}

theorem Serves.swept {s after : Relay} {e : Served} (taken : Serves config s e after) (event : e.event = .sweep) :
    after = s.sweep := by
  have served := taken.1
  rw [event] at served
  exact (Prod.mk.inj (Option.some.inj served)).2.symm

/-- Sweeps go unnoticed in clear runs. -/
theorem unswept_eq (run : Run (Guarded (fun s e => s.Clear config e.event) (Serves config)) .init history last)
    (run' : Run (Guarded (fun s e => s.Clear config e.event) (Serves config)) .init history' last')
    (same : (unswept history).map Served.event = (unswept history').map Served.event) : unswept history = unswept history' := by
  have start : Relay.init.Alike .init := ⟨rfl, rfl, fun name => .none⟩
  have seen : List.Forall₂ (fun e e' : Served => e.event = e'.event) (unswept history) (unswept history') := by
    rw [← List.forall₂_eq_eq_eq, List.forall₂_map_left_iff, List.forall₂_map_right_iff] at same
    exact same
  rw [← List.forall₂_eq_eq_eq]
  refine (Run.alike (fun e : Served => e.event ≠ .sweep) Relay.Alike (fun e e' => e.event = e'.event) Eq ?_ ?_ ?_
    start run run' seen).2
  · intro s t e after alike hidden taken
    rw [taken.2.swept (by simpa using hidden)]
    exact alike.sweep_left
  · intro s t e after alike hidden taken
    rw [taken.2.swept (by simpa using hidden)]
    exact alike.sweep_right
  · rintro s t ⟨event, time, request, reply⟩ ⟨event', time', request', reply'⟩ after after' alike - same
      ⟨clear, served, clock, asked⟩ ⟨clear', served', clock', asked'⟩
    dsimp only at same clear served clock asked clear' served' clock' asked'
    subst same
    obtain ⟨same, agree⟩ := alike.serve clear clear' served served'
    refine ⟨agree, ?_⟩
    rw [clock, clock', asked, asked', same, alike.now, alike.request]

/-- Each of the events is guarded where it is served. -/
def allGuarded (guard : Relay → Event → Bool) (config : RelayConfig) : List Event → Relay → Bool
  | [], _ => true
  | event :: rest, s =>
    guard s event && ((s.serve config event).map fun served => allGuarded guard config rest served.2).getD true

theorem serveAll_run (guard : Relay → Event → Bool) {events : List Event} {s : Relay} (guarded : allGuarded guard config events s)
    (served : serveAll config events s = some (history, last)) :
    Run (Guarded (fun s e => guard s e.event) (Serves config)) s history last := by
  induction events generalizing s history with
  | nil =>
    cases served
    exact .start
  | cons event rest ih =>
    obtain ⟨⟨reply, after⟩, taken, onward⟩ := Option.bind_eq_some_iff.mp served
    obtain ⟨⟨later, final⟩, restServed, done⟩ := Option.bind_eq_some_iff.mp onward
    cases done
    rw [allGuarded, Bool.and_eq_true, taken, Option.map_some, Option.getD_some] at guarded
    exact Run.cons_iff.mpr ⟨after, ⟨guarded.1, taken, rfl, rfl⟩, ih guarded.2 restServed⟩

end Runs

/-- A room is made, answered, read twice, and made anew after a sweep. -/
def pairing : List Event :=
  [.put "r" .offer 5 "offer", .get 1 "r" .offer, .get 2 "r" .answer, .put "r" .answer 6 "answer", .tick 500, .wake 2,
    .tick 61000, .sweep, .put "r" .offer 3 "new", .get 3 "r" .offer]

/-- An offer is put, its room expires, and an answer is put. -/
def lingering : List Event := [.put "r" .offer 5 "offer", .tick 61000, .put "r" .answer 6 "answer", .get 1 "r" .offer]

/-- The same with a sweep before the answer. -/
def tidied : List Event := [.put "r" .offer 5 "offer", .tick 61000, .sweep, .put "r" .answer 6 "answer", .get 1 "r" .offer]

end Burble.Signaling
