import Burble.Signaling.Relay

namespace Burble.Signaling

/-- A write to a room. -/
structure Write where
  time : Nat
  type : Blob
  body : String
  deriving DecidableEq

def Served.write (name : String) (e : Served) : Option Write :=
  match e.event, e.reply with
  | .put other type _ body, some .stored => if other = name then some ⟨e.time, type, body⟩ else none
  | _, _ => none

/-- The writes to a room, the latest first. -/
def writes (name : String) (history : List Served) : List Write := (history.filterMap (Served.write name)).reverse

/-- The writes of a room's current life: none of them, nor now, is more than 60 seconds after the one before. -/
def life (now : Nat) : List Write → List Write
  | [] => []
  | w :: older => if now - w.time ≤ ttlMs then w :: life w.time older else []

/-- The body that was last written for a blob of a room in the room's current life. -/
def lastPut (history : List Served) (name : String) (type : Blob) (now : Nat) : Option String :=
  ((life now (writes name history)).find? fun w => w.type = type).map Write.body

/-- What a room shows was last written in its current life, and a room that is not there has none. -/
structure Tracks (history : List Served) (s : Relay) (name : String) : Prop where
  gone : s.live name = none → life s.now (writes name history) = []
  there : ∀ room, s.live name = some room → ∃ w older, writes name history = w :: older ∧ w.time = room.created ∧
    ∀ type data, room.shows type = some data → ((w :: life w.time older).find? fun w => w.type = type).map Write.body = some data

section Lives
variable {config : RelayConfig} {s after : Relay} {e : Served} {history : List Served} {name : String} {room : Room} {now : Nat}

theorem writes_snoc : writes name (history ++ [e]) = (e.write name).toList ++ writes name history := by
  rw [writes, List.filterMap_append, List.reverse_append]
  congr 1
  rw [List.filterMap_cons]
  cases e.write name <;> rfl

theorem writes_quiet (quiet : e.write name = none) : writes name (history ++ [e]) = writes name history := by
  rw [writes_snoc, quiet]
  rfl

/-- A life that is over stays over. -/
theorem life_over {later : Nat} {older : List Write} (ended : life now older = []) (order : now ≤ later) : life later older = [] := by
  cases older with
  | nil => rfl
  | cons w rest =>
    rw [life] at ended ⊢
    split at ended
    next => cases ended
    next late => exact if_neg (by omega)

theorem life_now {w : Write} {older : List Write} (fresh : ¬ ttlMs < now - w.time) :
    life now (w :: older) = w :: life w.time older := if_pos (by omega)

theorem not_expired : ¬ Relay.isExpired now room ↔ ¬ ttlMs < now - room.created := by
  rw [Relay.isExpired, decide_eq_true_eq]

theorem Tracks.lastPut (tracks : Tracks history s name) (live : s.live name = some room) {type : Blob} {data : String}
    (shown : room.shows type = some data) : lastPut history name type s.now = some data := by
  obtain ⟨w, older, split, time, shows⟩ := tracks.there room live
  have fresh := not_expired.mp (live_eq_some.mp live).2
  rw [Signaling.lastPut, split, life_now (by rw [time]; exact fresh)]
  exact shows type data shown

/-- A room may come to show less. -/
def Room.Lesser (room other : Room) : Prop :=
  room.created = other.created ∧ ∀ type data, room.shows type = some data → other.shows type = some data

theorem Tracks.mono (tracks : Tracks history s name) (clock : after.now = s.now) (quiet : e.write name = none)
    (gone : after.live name = none → s.live name = none)
    (there : ∀ room, after.live name = some room → ∃ other, s.live name = some other ∧ room.Lesser other) :
    Tracks (history ++ [e]) after name := by
  refine ⟨fun none => ?_, fun room live => ?_⟩
  · rw [writes_quiet quiet, clock]
    exact tracks.gone (gone none)
  · obtain ⟨other, before, created, less⟩ := there room live
    obtain ⟨w, older, split, time, shows⟩ := tracks.there other before
    exact ⟨w, older, (writes_quiet quiet).trans split, time.trans created.symm, fun type data shown => shows type data (less type data shown)⟩

theorem Tracks.tick (tracks : Tracks history s name) (elapsed : Nat) (quiet : e.write name = none) :
    Tracks (history ++ [e]) { s with now := s.now + elapsed } name := by
  refine ⟨fun none => ?_, fun room live => ?_⟩
  · rw [writes_quiet quiet]
    cases before : s.live name with
    | none => exact life_over (tracks.gone before) (Nat.le_add_right _ _)
    | some room =>
      obtain ⟨w, older, split, time, -⟩ := tracks.there room before
      have late := live_eq_none.mp none room (live_eq_some.mp before).1
      rw [Relay.isExpired, decide_eq_true_eq] at late
      rw [split]
      exact if_neg (by rw [time]; omega)
  · obtain ⟨found, fresh⟩ := live_eq_some.mp live
    have before : s.live name = some room := by
      refine live_eq_some.mpr ⟨found, ?_⟩
      rw [not_expired] at fresh ⊢
      dsimp only at fresh
      omega
    rw [writes_quiet quiet]
    exact tracks.there room before

/-- A PUT that finds nothing of an earlier life begins a new one or goes on with the current. -/
theorem Tracks.written (tracks : Tracks history s name) {type : Blob} {body : String}
    (wrote : e.write name = some ⟨s.now, type, body⟩)
    (kept : ∀ data, room.shows type.other = some data → s.live name = some room) :
    Tracks (history ++ [e]) { s with rooms := s.rooms.insert name (room.written type body s.now) } name := by
  have live := live_insert s name (written_fresh room type body s.now) name
  rw [if_pos rfl] at live
  refine ⟨(fun none => by cases live.symm.trans none), fun other there => ?_⟩
  cases live.symm.trans there
  refine ⟨⟨s.now, type, body⟩, writes name history, by rw [writes_snoc, wrote]; rfl, rfl, fun blob data shown => ?_⟩
  rw [written_shows] at shown
  by_cases same : blob = type
  · rw [if_pos same, Option.filter_eq_some_iff] at shown
    rw [List.find?_cons_of_pos (by simp [same]), Option.map_some, shown.1]
  · have opposite : blob = type.other := by cases blob <;> cases type <;> first | rfl | exact absurd rfl same
    rw [if_neg same] at shown
    have before := tracks.lastPut (kept data (opposite ▸ shown)) shown
    rw [List.find?_cons_of_neg (by simp [Ne.symm same])]
    exact before

theorem look_live (s : Relay) (name : String) (type : Blob) (other : String) :
    ((s.look name type).2.live other = none → s.live other = none) ∧
      ∀ room, (s.look name type).2.live other = some room → ∃ before, s.live other = some before ∧ room.Lesser before := by
  rcases look_cases s name type with ⟨room, found, late, look⟩ | ⟨room, data, live, -, look⟩ | ⟨-, -, look⟩
  · have same := live_erase (live_eq_none.mpr fun other there => by cases found.symm.trans there; exact late) other
    rw [look]
    exact ⟨fun none => same.symm.trans none, fun room here => ⟨room, same.symm.trans here, rfl, fun _ _ shown => shown⟩⟩
  · rw [look]
    cases type with
    | offer => exact ⟨id, fun room here => ⟨room, here, rfl, fun _ _ shown => shown⟩⟩
    | answer =>
      have fresh : Relay.isExpired s.now { room with answer := none } = false := Bool.not_eq_true _ ▸ (live_eq_some.mp live).2
      have after := live_insert s name fresh other
      refine ⟨fun none => ?_, fun kept here => ?_⟩
      · rw [after] at none
        split at none
        next => cases none
        next => exact none
      · rw [after] at here
        split at here
        next same =>
          cases here
          refine ⟨room, same ▸ live, rfl, fun type data shown => ?_⟩
          cases type with
          | offer => exact shown
          | answer => cases shown
        next => exact ⟨kept, here, rfl, fun _ _ shown => shown⟩
  · rw [look]
    exact ⟨id, fun room here => ⟨room, here, rfl, fun _ _ shown => shown⟩⟩

/-- A clear step keeps what the rooms show to what was last written in their lives. -/
theorem Serves.tracks (taken : Serves config s e after) (clear : s.Clear config e.event) (tracks : Tracks history s name) :
    Tracks (history ++ [e]) after name := by
  have time := taken.2.1
  rcases taken.cases with ⟨silent, -, ⟨elapsed, event, rfl⟩ | ⟨event, rfl⟩⟩ | ⟨other, type, declared, body, response, event, -, reply, put⟩ |
    ⟨id, reader, -, polled, notPut, -⟩
  · exact tracks.tick elapsed (by rw [Served.write, event])
  · refine tracks.mono rfl (by rw [Served.write, event]) (fun none => (live_sweep s name).symm.trans none) fun room live => ?_
    exact ⟨room, (live_sweep s name).symm.trans live, rfl, fun _ _ shown => shown⟩
  · have unwritten (refused : response ≠ .stored) (same : after = s) : Tracks (history ++ [e]) after name := by
      subst same
      refine tracks.mono rfl ?_ id fun room live => ⟨room, live, rfl, fun _ _ shown => shown⟩
      rw [Served.write, event, reply]
      cases response <;> first | rfl | exact absurd rfl refused
    have stored (room : Room) (done : response = .stored)
        (rooms : after = { s with rooms := s.rooms.insert other (room.written type body s.now) })
        (kept : ∀ data, room.shows type.other = some data → s.live other = some room) : Tracks (history ++ [e]) after name := by
      have write : e.write name = if other = name then some ⟨s.now, type, body⟩ else none := by
        rw [Served.write, event, reply, done, time]
      subst rooms
      by_cases same : other = name
      · subst same
        exact tracks.written (write.trans (if_pos rfl)) kept
      · have live := live_insert s other (written_fresh room type body s.now) name
        rw [if_neg (Ne.symm same)] at live
        refine tracks.mono rfl (write.trans (if_neg same)) (fun none => live.symm.trans none) fun room here => ?_
        exact ⟨room, live.symm.trans here, rfl, fun _ _ shown => shown⟩
    rw [event] at clear
    rcases put_cases config s other type declared body with ⟨-, done⟩ | ⟨fits, ⟨room, found, done⟩ | ⟨-, -, done⟩ | ⟨-, -, done⟩⟩
    · cases put.symm.trans done
      exact unwritten nofun rfl
    · cases put.symm.trans done
      refine stored room rfl rfl fun data shown => live_eq_some.mpr ⟨found, fun late => ?_⟩
      cases shown.symm.trans ((clear fits.1 fits.2).1 room found late).1
    · cases put.symm.trans done
      exact stored ⟨s.now, none, none⟩ rfl rfl fun data shown => by cases type <;> cases shown
    · cases put.symm.trans done
      exact unwritten nofun rfl
  · have after_eq : (s.poll id reader).2 = after := by rw [polled]
    have quiet : e.write name = none := by
      rw [Served.write]
      split
      next event _ => exact absurd event (notPut _ _ _ _)
      next => rfl
    have liveOf (relay : Relay) (rooms : after.rooms = relay.rooms) (clock : after.now = relay.now) : after.live name = relay.live name := by
      rw [Relay.live, Relay.live, rooms, clock]
    rw [← after_eq] at liveOf ⊢
    rcases poll_cases s id reader with ⟨-, -, looked, clock⟩ | ⟨-, -, looked, clock⟩
    · have same := liveOf _ looked (clock.trans (look_now s reader.name reader.type).symm)
      obtain ⟨gone, there⟩ := look_live s reader.name reader.type name
      exact tracks.mono clock quiet (fun none => gone (same.symm.trans none)) fun room live => there room (same.symm.trans live)
    · have same := liveOf s looked clock
      exact tracks.mono clock quiet (fun none => same.symm.trans none) fun room live => ⟨room, same.symm.trans live, rfl, fun _ _ shown => shown⟩

theorem Serves.returned (taken : Serves config s e after) {type : Blob} {data : String} (returns : e.Returns name type data) :
    ∃ room, s.live name = some room ∧ room.shows type = some data := by
  rcases taken.cases with ⟨silent, -, -⟩ | ⟨other, kind, declared, body, response, -, -, reply, put⟩ | ⟨id, reader, request, polled, -, -⟩
  · cases silent.symm.trans returns.2
  · cases Option.some.inj (reply.symm.trans returns.2)
    rcases put_cases config s other kind declared body with ⟨-, done⟩ | ⟨-, ⟨_, -, done⟩ | ⟨-, -, done⟩ | ⟨-, -, done⟩⟩ <;>
      cases put.symm.trans done
  · cases request.symm.trans returns.1
    have reply : (s.poll id reader).1 = some (.blob data) := by rw [polled, returns.2]
    rcases poll_cases s id reader with ⟨-, looked, -⟩ | ⟨-, timeout, -⟩
    · rcases look_cases s reader.name reader.type with ⟨_, -, -, look⟩ | ⟨room, found, live, shown, look⟩ | ⟨-, -, look⟩
      · rw [look] at looked
        cases reply.symm.trans looked
      · rw [look] at looked
        cases reply.symm.trans looked
        exact ⟨room, live, shown⟩
      · rw [look] at looked
        cases reply.symm.trans looked
    · cases reply.symm.trans timeout

theorem Relay.init_tracks (name : String) : Tracks [] .init name :=
  ⟨fun _ => rfl, fun room live => by cases (live_eq_some.mp live).1⟩

theorem run_tracks (run : Run (Guarded (fun s e => s.Clear config e.event) (Serves config)) .init history s) : Tracks history s name := by
  induction run with
  | start => exact Relay.init_tracks name
  | next _ taken ih => exact taken.2.tracks taken.1 ih

/-- What a GET returns was last written for its room and blob in the room's current life. -/
theorem returned_lastPut {past later : List Served} {type : Blob} {data : String}
    (run : Run (Guarded (fun s e => s.Clear config e.event) (Serves config)) .init (past ++ e :: later) s)
    (returns : e.Returns name type data) : lastPut past name type e.time = some data := by
  obtain ⟨before, front, back⟩ := run.split
  obtain ⟨_, taken, -⟩ := Run.cons_iff.mp back
  obtain ⟨room, live, shown⟩ := taken.2.returned returns
  rw [taken.2.2.1]
  exact (run_tracks front).lastPut live shown

end Lives

end Burble.Signaling
