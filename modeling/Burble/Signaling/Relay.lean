import Burble.Bytes
import Burble.FiniteMap
import Burble.Runs

namespace Burble.Signaling

/-- Rooms expire after 60 seconds; times are in milliseconds. -/
def ttlMs : Nat := 60000
def pollMs : Nat := 500
def longPollMs : Nat := 30000

structure RelayConfig where
  maxBodyBytes : Nat
  maxRooms : Nat

/-- What a room may hold. -/
inductive Blob
  | offer
  | answer
  deriving DecidableEq, Repr

def Blob.other : Blob → Blob
  | .offer => .answer
  | .answer => .offer

structure Room where
  created : Nat
  offer : Option String
  answer : Option String
  deriving DecidableEq

namespace Room

def blob (room : Room) : Blob → Option String
  | .offer => room.offer
  | .answer => room.answer

def put (room : Room) (type : Blob) (body : String) : Room :=
  match type with
  | .offer => { room with offer := some body }
  | .answer => { room with answer := some body }

/-- `room?.[type]`, where an empty text counts as none. -/
def shows (room : Room) (type : Blob) : Option String := (room.blob type).filter fun data => data ≠ ""

end Room

/-- The locals of a GET that waits. -/
structure Reader where
  name : String
  type : Blob
  deadline : Nat
  wakes : Nat
  deriving DecidableEq

/-- The answers, with status 200, 413, 503, 200, 410 and 408. -/
inductive Response
  | stored
  | tooLarge
  | tooManyRooms
  | blob (data : String)
  | expired
  | timeout
  deriving DecidableEq, Repr

structure Relay where
  now : Nat
  rooms : FiniteMap String Room
  readers : FiniteMap Nat Reader

def Relay.init : Relay := ⟨0, ∅, ∅⟩

/-- What happens between two awaits: time passes, the interval fires, the body of a PUT is there, a GET
arrives, or the timer of one that waits fires. -/
inductive Event
  | tick (elapsed : Nat)
  | sweep
  | put (name : String) (type : Blob) (declared : Nat) (body : String)
  | get (id : Nat) (name : String) (type : Blob)
  | wake (id : Nat)
  deriving DecidableEq

namespace Relay
variable (config : RelayConfig) (s : Relay)

def isExpired (now : Nat) (room : Room) : Bool := ttlMs < now - room.created

def sweep : Relay := { s with rooms := s.rooms.filterValues fun room => ¬ isExpired s.now room }

def put (name : String) (type : Blob) (declared : Nat) (body : String) : Response × Relay :=
  if config.maxBodyBytes < declared then (.tooLarge, s)
  else if config.maxBodyBytes < (utf8 body).length then (.tooLarge, s)
  else
    match s.rooms.lookup name with
    | some room => (.stored, { s with rooms := s.rooms.insert name { room.put type body with created := s.now } })
    | none =>
      if config.maxRooms ≤ s.rooms.size then (.tooManyRooms, s)
      else
        let room : Room := ⟨s.now, none, none⟩
        (.stored, { s with rooms := s.rooms.insert name { room.put type body with created := s.now } })

/-- One look of a GET at its room. -/
def look (name : String) (type : Blob) : Option Response × Relay :=
  match s.rooms.lookup name with
  | some room =>
    if isExpired s.now room then (some .expired, { s with rooms := s.rooms.erase name })
    else
      match room.shows type with
      | some data =>
        match type with
        | .answer => (some (.blob data), { s with rooms := s.rooms.insert name { room with answer := none } })
        | .offer => (some (.blob data), s)
      | none => (none, s)
  | none => (none, s)

/-- The loop of a GET up to its next await. -/
def poll (id : Nat) (reader : Reader) : Option Response × Relay :=
  if s.now < reader.deadline then
    match s.look reader.name reader.type with
    | (some response, s) => (some response, { s with readers := s.readers.erase id })
    | (none, s) => (none, { s with readers := s.readers.insert id { reader with wakes := s.now + pollMs } })
  else (some .timeout, { s with readers := s.readers.erase id })

/-- One event with what is answered, and nothing where it cannot occur. -/
def serve : Event → Option (Option Response × Relay)
  | .tick elapsed => some (none, { s with now := s.now + elapsed })
  | .sweep => some (none, s.sweep)
  | .put name type declared body =>
    let (response, s) := s.put config name type declared body
    some (some response, s)
  | .get id name type => if id ∈ s.readers then none else some (s.poll id ⟨name, type, s.now + longPollMs, s.now⟩)
  | .wake id =>
    match s.readers.lookup id with
    | some reader => if reader.wakes ≤ s.now then some (s.poll id reader) else none
    | none => none

/-- The room and the blob that an event asks for or stores. -/
def request : Event → Option (String × Blob)
  | .tick _ => none
  | .sweep => none
  | .put name type _ _ => some (name, type)
  | .get _ name type => some (name, type)
  | .wake id => (s.readers.lookup id).map fun reader => (reader.name, reader.type)

end Relay

/-- An event that was served, when, for which room and blob, and what it was answered. -/
structure Served where
  event : Event
  time : Nat
  request : Option (String × Blob)
  reply : Option Response
  deriving DecidableEq

/-- Steps of the relay. -/
def Serves (config : RelayConfig) (s : Relay) (e : Served) (after : Relay) : Prop :=
  s.serve config e.event = some (e.reply, after) ∧ e.time = s.now ∧ e.request = s.request e.event

/-- Serve events in turn, with what each was answered. -/
def serveAll (config : RelayConfig) : List Event → Relay → Option (List Served × Relay)
  | [], s => some ([], s)
  | event :: rest, s => do
    let (reply, after) ← s.serve config event
    let (served, last) ← serveAll config rest after
    some (⟨event, s.now, s.request event, reply⟩ :: served, last)

end Burble.Signaling

namespace Burble.Signaling

namespace Relay
variable (config : RelayConfig) (s : Relay)

/-- A room that has not expired. -/
def live (name : String) : Option Room := (s.rooms.lookup name).filter fun room => ¬ isExpired s.now room

/-- The rooms that have not expired. -/
def liveRooms : Nat := s.sweep.rooms.size

/-- No GET looks at a room that lingers; a PUT to one finds no other blob in it, and could make it anew;
and rooms that linger elsewhere do not keep a new one out. -/
def Clear : Event → Prop
  | .tick _ => True
  | .sweep => True
  | .put name type declared body => declared ≤ config.maxBodyBytes → (utf8 body).length ≤ config.maxBodyBytes →
    (∀ room ∈ s.rooms.lookup name, isExpired s.now room → room.shows type.other = none ∧ s.liveRooms < config.maxRooms) ∧
    (s.rooms.lookup name = none → config.maxRooms ≤ s.rooms.size → config.maxRooms ≤ s.liveRooms)
  | .get _ name _ => ∀ room ∈ s.rooms.lookup name, ¬ isExpired s.now room
  | .wake id => ∀ reader ∈ s.readers.lookup id, s.now < reader.deadline →
    ∀ room ∈ s.rooms.lookup reader.name, ¬ isExpired s.now room

instance : ∀ event, Decidable (s.Clear config event)
  | .tick _ => .isTrue trivial
  | .sweep => .isTrue trivial
  | .put _ _ _ _ => inferInstanceAs (Decidable (_ → _ → _ ∧ _))
  | .get _ name _ => inferInstanceAs (Decidable (∀ room ∈ s.rooms.lookup name, ¬ isExpired s.now room))
  | .wake id => inferInstanceAs (Decidable (∀ reader ∈ s.readers.lookup id, s.now < reader.deadline →
      ∀ room ∈ s.rooms.lookup reader.name, ¬ isExpired s.now room))

end Relay

section Rooms
variable {config : RelayConfig} {s : Relay} {name : String} {type : Blob} {room : Room}

theorem live_eq_some : s.live name = some room ↔ s.rooms.lookup name = some room ∧ ¬ Relay.isExpired s.now room := by
  rw [Relay.live, Option.filter_eq_some_iff, decide_eq_true_eq]

theorem live_eq_none : s.live name = none ↔ ∀ room ∈ s.rooms.lookup name, Relay.isExpired s.now room := by
  rw [Relay.live, Option.filter_eq_none_iff]
  simp only [decide_eq_true_eq, not_not, Option.mem_def]

/-- A room whose blob was written now. -/
def Room.written (room : Room) (type : Blob) (body : String) (now : Nat) : Room := { room.put type body with created := now }

theorem written_shows (room : Room) (type : Blob) (body : String) (now : Nat) (other : Blob) :
    (room.written type body now).shows other = if other = type then (some body).filter fun data => data ≠ "" else room.shows other := by
  cases type <;> cases other <;> rfl

theorem written_created (room : Room) (type : Blob) (body : String) (now : Nat) : (room.written type body now).created = now := rfl

theorem written_fresh (room : Room) (type : Blob) (body : String) (now : Nat) :
    Relay.isExpired now (room.written type body now) = false := by
  rw [Relay.isExpired, written_created, Nat.sub_self]
  rfl

/-- A PUT is refused, or writes to its room, or to a new one where there is room for it. -/
theorem put_cases (config : RelayConfig) (s : Relay) (name : String) (type : Blob) (declared : Nat) (body : String) :
    (¬ (declared ≤ config.maxBodyBytes ∧ (utf8 body).length ≤ config.maxBodyBytes) ∧ s.put config name type declared body = (.tooLarge, s)) ∨
    (declared ≤ config.maxBodyBytes ∧ (utf8 body).length ≤ config.maxBodyBytes) ∧
      ((∃ room, s.rooms.lookup name = some room ∧ s.put config name type declared body =
          (.stored, { s with rooms := s.rooms.insert name (room.written type body s.now) })) ∨
        s.rooms.lookup name = none ∧ s.rooms.size < config.maxRooms ∧ s.put config name type declared body =
          (.stored, { s with rooms := s.rooms.insert name (Room.written ⟨s.now, none, none⟩ type body s.now) }) ∨
        s.rooms.lookup name = none ∧ config.maxRooms ≤ s.rooms.size ∧ s.put config name type declared body = (.tooManyRooms, s)) := by
  unfold Relay.put
  by_cases large : config.maxBodyBytes < declared
  · exact .inl ⟨fun fits => by omega, if_pos large⟩
  rw [if_neg large]
  by_cases long : config.maxBodyBytes < (utf8 body).length
  · exact .inl ⟨fun fits => by omega, if_pos long⟩
  rw [if_neg long]
  refine .inr ⟨⟨by omega, by omega⟩, ?_⟩
  cases found : s.rooms.lookup name with
  | some room => exact .inl ⟨room, rfl, rfl⟩
  | none =>
    by_cases full : config.maxRooms ≤ s.rooms.size
    · exact .inr (.inr ⟨rfl, full, if_pos full⟩)
    · exact .inr (.inl ⟨rfl, not_le.mp full, if_neg full⟩)

/-- What a look finds: nothing, a room that has expired, or a blob, which it takes if it is an answer. -/
theorem look_cases (s : Relay) (name : String) (type : Blob) :
    (∃ room, s.rooms.lookup name = some room ∧ Relay.isExpired s.now room ∧
      s.look name type = (some .expired, { s with rooms := s.rooms.erase name })) ∨
    (∃ room data, s.live name = some room ∧ room.shows type = some data ∧
      s.look name type = (some (.blob data), match type with
        | .answer => { s with rooms := s.rooms.insert name { room with answer := none } }
        | .offer => s)) ∨
    (∀ room, s.live name = some room → room.shows type = none) ∧ (s.live name = none → s.rooms.lookup name = none) ∧
      s.look name type = (none, s) := by
  unfold Relay.look
  cases found : s.rooms.lookup name with
  | none =>
    refine .inr (.inr ⟨fun room live => ?_, fun _ => rfl, rfl⟩)
    cases found.symm.trans (live_eq_some.mp live).1
  | some room =>
    by_cases late : Relay.isExpired s.now room
    · exact .inl ⟨room, rfl, late, if_pos late⟩
    · have live : s.live name = some room := live_eq_some.mpr ⟨found, late⟩
      dsimp only
      rw [if_neg late]
      cases shown : room.shows type with
      | none =>
        refine .inr (.inr ⟨fun other here => ?_, fun gone => ?_, rfl⟩)
        · cases live.symm.trans here
          exact shown
        · cases live.symm.trans gone
      | some data => exact .inr (.inl ⟨room, data, live, shown, by cases type <;> rfl⟩)

variable (s name) in
theorem live_insert {kept : Room} (fresh : Relay.isExpired s.now kept = false) (other : String) :
    Relay.live { s with rooms := s.rooms.insert name kept } other = if other = name then some kept else s.live other := by
  rw [Relay.live, FiniteMap.lookup_insert_if]
  split
  · exact Option.filter_some_pos (by simp [fresh])
  · rfl

theorem live_erase (late : s.live name = none) (other : String) :
    Relay.live { s with rooms := s.rooms.erase name } other = s.live other := by
  rw [Relay.live, FiniteMap.lookup_erase_if]
  split
  next same => rw [same, late]; rfl
  next => rfl

theorem live_sweep (s : Relay) (name : String) : s.sweep.live name = s.live name := by
  rw [Relay.live, Relay.sweep, FiniteMap.lookup_filterValues, Relay.live, Option.filter_filter]
  congr 1
  funext room
  simp

end Rooms

/-- The event stored a blob of a room. -/
def Served.Stores (e : Served) (name : String) (type : Blob) : Prop :=
  (∃ declared body, e.event = .put name type declared body) ∧ e.reply = some .stored

/-- The event returned a blob of a room. -/
def Served.Returns (e : Served) (name : String) (type : Blob) (data : String) : Prop :=
  e.request = some (name, type) ∧ e.reply = some (.blob data)

section Steps
variable {config : RelayConfig} {s after : Relay} {e : Served} {name : String}

theorem look_now (s : Relay) (name : String) (type : Blob) : (s.look name type).2.now = s.now := by
  rcases look_cases s name type with ⟨room, -, -, looked⟩ | ⟨room, data, -, -, looked⟩ | ⟨-, -, looked⟩
  · rw [looked]
  · rw [looked]
    cases type <;> rfl
  · rw [looked]

theorem poll_cases (s : Relay) (id : Nat) (reader : Reader) :
    (s.now < reader.deadline ∧ (s.poll id reader).1 = (s.look reader.name reader.type).1 ∧
      (s.poll id reader).2.rooms = (s.look reader.name reader.type).2.rooms ∧ (s.poll id reader).2.now = s.now) ∨
    (¬ s.now < reader.deadline ∧ (s.poll id reader).1 = some .timeout ∧ (s.poll id reader).2.rooms = s.rooms ∧
      (s.poll id reader).2.now = s.now) := by
  have clock := look_now s reader.name reader.type
  unfold Relay.poll
  by_cases early : s.now < reader.deadline
  · rw [if_pos early]
    refine .inl ⟨early, ?_⟩
    generalize s.look reader.name reader.type = looked at clock
    obtain ⟨_ | response, next⟩ := looked
    · exact ⟨rfl, rfl, clock⟩
    · exact ⟨rfl, rfl, clock⟩
  · rw [if_neg early]
    exact .inr ⟨early, rfl, rfl, rfl⟩

/-- A step lets time pass, sweeps, writes, or looks at a room for a reader. -/
theorem Serves.cases (taken : Serves config s e after) :
    (e.reply = none ∧ e.request = none ∧ ((∃ elapsed, e.event = .tick elapsed ∧ after = { s with now := s.now + elapsed }) ∨
      e.event = .sweep ∧ after = s.sweep)) ∨
    (∃ name type declared body response, e.event = .put name type declared body ∧ e.request = some (name, type) ∧
      e.reply = some response ∧ s.put config name type declared body = (response, after)) ∨
    ∃ id reader, e.request = some (reader.name, reader.type) ∧ s.poll id reader = (e.reply, after) ∧
      (∀ name type declared body, e.event ≠ .put name type declared body) ∧
      (s.Clear config e.event → s.now < reader.deadline → ∀ room ∈ s.rooms.lookup reader.name, ¬ Relay.isExpired s.now room) := by
  obtain ⟨served, -, request⟩ := taken
  obtain ⟨event, time, asked, reply⟩ := e
  dsimp only at served request ⊢
  cases event with
  | tick elapsed =>
    cases served
    exact .inl ⟨rfl, request, .inl ⟨elapsed, rfl, rfl⟩⟩
  | sweep =>
    cases served
    exact .inl ⟨rfl, request, .inr ⟨rfl, rfl⟩⟩
  | put name type declared body =>
    cases served
    exact .inr (.inl ⟨name, type, declared, body, _, rfl, request, rfl, rfl⟩)
  | get id name type =>
    rw [Relay.serve] at served
    split at served
    next => cases served
    next =>
      refine .inr (.inr ⟨id, ⟨name, type, s.now + longPollMs, s.now⟩, request, Option.some.inj served, nofun, ?_⟩)
      exact fun clear _ => clear
  | wake id =>
    rw [Relay.serve] at served
    split at served
    next reader found =>
      split at served
      next =>
        refine .inr (.inr ⟨id, reader, ?_, Option.some.inj served, nofun, ?_⟩)
        · rw [request, Relay.request, found]
          rfl
        · exact fun clear early => clear reader found early
      next => cases served
    next => cases served

/-- The rooms never get more than there may be. -/
theorem Serves.bounded (taken : Serves config s e after) (bound : s.rooms.size ≤ config.maxRooms) :
    after.rooms.size ≤ config.maxRooms := by
  rcases taken.cases with ⟨-, -, ⟨elapsed, -, rfl⟩ | ⟨-, rfl⟩⟩ | ⟨name, type, declared, body, response, -, -, -, put⟩ |
    ⟨id, reader, -, polled, -⟩
  · exact bound
  · exact (FiniteMap.size_filterValues_le _ _).trans bound
  · rcases put_cases config s name type declared body with ⟨-, refused⟩ | ⟨-, ⟨room, found, wrote⟩ | ⟨-, space, wrote⟩ | ⟨-, -, refused⟩⟩
    · cases put.symm.trans refused
      exact bound
    · cases put.symm.trans wrote
      exact (FiniteMap.size_insert_of_found found _).le.trans bound
    · cases put.symm.trans wrote
      exact (FiniteMap.size_insert_le _ _ _).trans space
    · cases put.symm.trans refused
      exact bound
  · have rooms : after.rooms = (s.poll id reader).2.rooms := by rw [polled]
    rw [rooms]
    rcases poll_cases s id reader with ⟨-, -, same, -⟩ | ⟨-, -, same, -⟩
    · rw [same]
      rcases look_cases s reader.name reader.type with ⟨room, -, -, looked⟩ | ⟨room, data, live, -, looked⟩ | ⟨-, -, looked⟩
      · rw [looked]
        exact (FiniteMap.size_erase_le _ _).trans bound
      · rw [looked]
        cases reader.type with
        | offer => exact bound
        | answer => exact (FiniteMap.size_insert_of_found (live_eq_some.mp live).1 _).le.trans bound
      · rw [looked]
        exact bound
    · rw [same]
      exact bound

/-- A room's answer is not there. -/
def AnswerTaken (name : String) (s : Relay) : Prop := ∀ room ∈ s.rooms.lookup name, room.shows .answer = none

/-- An answer that is taken stays away until another is stored, and the one that is returned is taken. -/
theorem Serves.answer (taken : Serves config s e after) :
    (AnswerTaken name s → ¬ e.Stores name .answer → AnswerTaken name after) ∧
    (∀ data, e.Returns name .answer data → ¬ AnswerTaken name s ∧ AnswerTaken name after) := by
  rcases taken.cases with ⟨silent, -, moved⟩ | ⟨other, type, declared, body, response, event, request, reply, put⟩ |
    ⟨id, reader, request, polled, notPut, -⟩
  · have fewer (room : Room) (found : after.rooms.lookup name = some room) : s.rooms.lookup name = some room := by
      rcases moved with ⟨elapsed, -, rfl⟩ | ⟨-, rfl⟩
      · exact found
      · rw [Relay.sweep, FiniteMap.lookup_filterValues] at found
        exact (Option.filter_eq_some_iff.mp found).1
    exact ⟨fun gone _ room found => gone room (fewer room found), fun data returns => by cases silent.symm.trans returns.2⟩
  · have notBlob (data : String) : response ≠ .blob data := by
      rintro rfl
      rcases put_cases config s other type declared body with ⟨-, done⟩ | ⟨-, ⟨_, -, done⟩ | ⟨-, -, done⟩ | ⟨-, -, done⟩⟩ <;>
        cases put.symm.trans done
    refine ⟨fun gone notStored => ?_, fun data returns => absurd (Option.some.inj (reply.symm.trans returns.2)) (notBlob data)⟩
    have written (room : Room) (stored : response = .stored) (none : other = name → room.shows .answer = none)
        (rooms : after.rooms = s.rooms.insert other (room.written type body s.now)) : AnswerTaken name after := by
      intro found there
      rw [rooms, Option.mem_def, FiniteMap.lookup_insert_if] at there
      split at there
      next same =>
        subst same
        have notAnswer : type ≠ .answer := by
          rintro rfl
          exact notStored ⟨⟨declared, body, event⟩, reply.trans (congrArg some stored)⟩
        rw [← Option.some.inj there, written_shows, if_neg notAnswer.symm]
        exact none rfl
      next => exact gone found there
    rcases put_cases config s other type declared body with ⟨-, done⟩ | ⟨-, ⟨room, found, done⟩ | ⟨-, -, done⟩ | ⟨-, -, done⟩⟩
    · cases put.symm.trans done
      exact gone
    · cases put.symm.trans done
      exact written room rfl (fun same => gone room (same ▸ found)) rfl
    · cases put.symm.trans done
      exact written ⟨s.now, none, none⟩ rfl (fun _ => rfl) rfl
    · cases put.symm.trans done
      exact gone
  · have replied : (s.poll id reader).1 = e.reply := by rw [polled]
    have rooms : (s.poll id reader).2.rooms = after.rooms := by rw [polled]
    have same (kept : after.rooms = s.rooms) (gone : AnswerTaken name s) : AnswerTaken name after := by
      intro room found
      exact gone room (kept ▸ found)
    rcases poll_cases s id reader with ⟨-, reply, looked, -⟩ | ⟨-, reply, looked, -⟩
    · rcases look_cases s reader.name reader.type with ⟨room, -, -, look⟩ | ⟨room, data, live, shown, look⟩ | ⟨-, -, look⟩
      · rw [look] at reply looked
        refine ⟨fun gone _ found there => ?_, fun data returns => ?_⟩
        · rw [← rooms, looked, Option.mem_def, FiniteMap.lookup_erase_if] at there
          split at there
          next => cases there
          next => exact gone found there
        · cases (reply.symm.trans (replied.trans returns.2))
      · rw [look] at reply looked
        rw [rooms] at looked
        cases asked : reader.type with
        | offer =>
          rw [asked] at looked request
          refine ⟨fun gone _ => same looked gone, fun data returns => ?_⟩
          cases request.symm.trans returns.1
        | answer =>
          rw [asked] at looked shown request
          have removed (found : Room) (there : found ∈ after.rooms.lookup reader.name) : found.shows .answer = none := by
            rw [looked, Option.mem_def, FiniteMap.lookup_insert_if, if_pos rfl] at there
            rw [← Option.some.inj there]
            rfl
          refine ⟨fun gone _ found there => ?_, fun data returns => ?_⟩
          · by_cases here : name = reader.name
            · subst here
              exact removed found there
            · rw [looked, Option.mem_def, FiniteMap.lookup_insert_if, if_neg here] at there
              exact gone found there
          · cases request.symm.trans returns.1
            refine ⟨fun gone => ?_, fun found there => removed found there⟩
            cases (gone room (live_eq_some.mp live).1).symm.trans shown
      · rw [look] at reply looked
        refine ⟨fun gone _ => same (rooms.symm.trans looked) gone, fun data returns => ?_⟩
        cases (reply.symm.trans (replied.trans returns.2))
    · refine ⟨fun gone _ => same (rooms.symm.trans looked) gone, fun data returns => ?_⟩
      cases (reply.symm.trans (replied.trans returns.2))

theorem run_answer {history : List Served} (run : Run (Serves config) s history after)
    (gone : AnswerTaken name s) (none : ∀ e ∈ history, ¬ e.Stores name .answer) : AnswerTaken name after := by
  induction run with
  | start => exact gone
  | next _ taken ih =>
    exact taken.answer.1 (ih fun e member => none e (List.mem_append_left _ member)) (none _ (by simp))

/-- Between two returns of an answer another is stored. -/
theorem answers_once {first last : Relay} {past between later : List Served} {e' : Served} {data data' : String}
    (run : Run (Serves config) first (past ++ e :: between ++ e' :: later) last) (returns : e.Returns name .answer data)
    (returns' : e'.Returns name .answer data') : ∃ stored ∈ between, stored.Stores name .answer := by
  by_contra none
  obtain ⟨middle', front, back⟩ := run.split
  obtain ⟨before, -, onward⟩ := front.split
  obtain ⟨middle, taken, rest⟩ := Run.cons_iff.mp onward
  obtain ⟨_, taken', -⟩ := Run.cons_iff.mp back
  have gone := (taken.answer.2 data returns).2
  have stays := run_answer rest gone fun stored member stores => none ⟨stored, member, stores⟩
  exact (taken'.answer.2 data' returns').1 stays

end Steps

end Burble.Signaling
