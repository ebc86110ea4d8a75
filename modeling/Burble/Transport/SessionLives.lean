import Burble.Runs
import Burble.Transport.RtspSessions

namespace Burble.Transport

section Counting

def startsOf (sid : SessionId) (history : List SessionEvent) : Nat :=
  history.countP fun event => match event with
    | .started _ other => decide (other = sid)
    | _ => false

def answersOf (sid : SessionId) (history : List SessionEvent) : Nat :=
  history.countP fun event => match event with
    | .answered _ other => decide (other = sid)
    | _ => false

end Counting

/-- How the stored state of a session may go on: it is ready, then playing or torn down, and then gone. -/
inductive Goes : Option SessionState → Option SessionState → Prop
  | stays {state} : Goes state state
  | ready : Goes none (some .ready)
  | playing : Goes (some .ready) (some .playing)
  | teardown {state} : Goes (some state) (some .teardown)
  | gone {state} : Goes (some state) none

namespace RtspSystem

def stateOf (system : RtspSystem) (sid : SessionId) : Option SessionState :=
  (system.sessions.lookup sid).map RtspSession.state

end RtspSystem

def Advances (before after : RtspSystem) : Prop := ∀ sid, Goes (before.stateOf sid) (after.stateOf sid)

/-- A PLAY is answered with 200 after its session's SETUP and not after its end. -/
def Genuine (history : List SessionEvent) : Prop :=
  ∀ past handler sid later, history = past ++ .answered handler sid :: later →
    (∃ opener, .setUp opener sid ∈ past) ∧ .deleted sid ∉ past

/-- Sessions are started once and one PLAY of each is answered with 200, a session that is there; those that have
ended are gone, and those that have not are of connections that are open. -/
structure LifeCycle (system : RtspSystem) : Prop where
  startedOnce : ∀ sid, startsOf sid system.history ≤ 1
  answeredOnce : ∀ sid, answersOf sid system.history ≤ 1
  genuine : Genuine system.history
  gone : ∀ sid, .deleted sid ∈ system.history → system.sessions.lookup sid = none
  held : ∀ sid session, system.sessions.lookup sid = some session → (system.handlers.lookup session.opener).isSome = true

/-- A session that a PLAY sets to playing is still ready, if it is there at all; it is there when the PLAY is answered; and
a connection that ends has no session left. -/
def Settled (system : RtspSystem) : RtspLabel → Prop
  | .act handler =>
    match system.handlers.lookup handler with
    | some (.starting sid) => ∀ session ∈ system.sessions.lookup sid, session.state = .ready
    | some (.answering sid) => (system.sessions.lookup sid).isSome = true
    | _ => True
  | .ends handler => ∀ sid session, system.sessions.lookup sid = some session → session.opener ≠ handler
  | _ => True

abbrev RtspSteps (before : RtspSystem) (label : RtspLabel) (after : RtspSystem) : Prop := before.next label = some after

/-- What holds of a handler in a phase, with or without other connections in between. -/
def PhaseOk (system : RtspSystem) (handler : HandlerId) : Phase → Prop
  | .registering sid _ => sid ∈ system.issued ∧ ∀ event ∈ system.history, event.sid ≠ sid
  | .starting sid => ∃ opener, .setUp opener sid ∈ system.history
  | .answering sid => (∃ opener, .setUp opener sid ∈ system.history) ∧ ((system.sessions.lookup sid).isSome = true →
      system.history.count (.answered handler sid) < system.history.count (.started handler sid))
  | _ => True

/-- What holds in every state of every run. -/
structure Sound (system : RtspSystem) : Prop where
  setUp : ∀ sid session, system.sessions.lookup sid = some session → .setUp session.opener sid ∈ system.history
  drawn : ∀ event ∈ system.history, event.sid ∈ system.issued
  gone : ∀ sid, .deleted sid ∈ system.history → system.sessions.lookup sid = none
  kept : ∀ opener sid, .setUp opener sid ∈ system.history →
    (system.sessions.lookup sid).isSome = true ∨ .deleted sid ∈ system.history
  playing : ∀ sid, system.stateOf sid = some .playing → ∃ handler, .started handler sid ∈ system.history
  unready : ∀ handler sid, .started handler sid ∈ system.history → system.stateOf sid ≠ some .ready
  paid : ∀ handler sid, (system.sessions.lookup sid).isSome = true →
    system.history.count (.answered handler sid) ≤ system.history.count (.started handler sid)
  phases : ∀ handler phase, system.handlers.lookup handler = some phase → PhaseOk system handler phase
  alone : ∀ handler other sid path path', system.handlers.lookup handler = some (.registering sid path) →
    system.handlers.lookup other = some (.registering sid path') → other = handler

section Soundness
variable {system after : RtspSystem} {handler : HandlerId} {phase : Phase}

theorem lookup_transition (sessions : SessionTable) (sid other : SessionId) (newState : SessionState) :
    (transitionSession sessions sid newState).lookup other =
      if other = sid then (sessions.lookup sid).map fun session => { session with state := newState }
      else sessions.lookup other := by
  rw [transitionSession]
  split
  next missing =>
    split
    next same => rw [same, missing]; rfl
    next => rfl
  next session found => rw [FiniteMap.lookup_insert_if, found]; rfl

theorem Sound.start : Sound .start where
  setUp _ _ found := by cases found
  drawn _ member := absurd member List.not_mem_nil
  gone _ _ := rfl
  kept _ _ member := absurd member List.not_mem_nil
  playing _ state := by cases state
  unready _ _ member := absurd member List.not_mem_nil
  paid _ _ there := by cases there
  phases _ _ found := by cases found
  alone _ _ _ _ _ found := by cases found

theorem stateOf_transition (sid other : SessionId) (newState : SessionState) :
    ({ system with sessions := transitionSession system.sessions sid newState } : RtspSystem).stateOf other =
      if other = sid then (system.stateOf sid).map fun _ => newState else system.stateOf other := by
  rw [RtspSystem.stateOf, lookup_transition]
  split
  · rw [RtspSystem.stateOf, Option.map_map, Option.map_map]
    rfl
  · rfl

theorem isSome_transition (sessions : SessionTable) (sid other : SessionId) (newState : SessionState) :
    ((transitionSession sessions sid newState).lookup other).isSome = (sessions.lookup other).isSome := by
  rw [lookup_transition]
  split
  next same => rw [same, Option.isSome_map]
  next => rfl

/-- What a handler's step can change: its phase, the ids that are drawn, and some events about ids that it knows. -/
structure Grows (system after : RtspSystem) (handler : HandlerId) (phase : Phase) (events : List SessionEvent) : Prop where
  handlers : after.handlers = AList.insert handler phase system.handlers
  issued : ∀ sid ∈ system.issued, sid ∈ after.issued
  history : after.history = system.history ++ events
  known : ∀ event ∈ events, (∃ past ∈ system.history, past.sid = event.sid) ∨
    ∃ path, system.handlers.lookup handler = some (.registering event.sid path)
  there : ∀ sid, (after.sessions.lookup sid).isSome = true →
    (system.sessions.lookup sid).isSome = true ∨ ∀ event ∈ system.history, event.sid ≠ sid
  answers : ∀ other sid, .answered other sid ∈ events → other = handler

namespace Grows
variable {events : List SessionEvent}

theorem past (grows : Grows system after handler phase events) {event : SessionEvent} (member : event ∈ system.history) :
    event ∈ after.history := by
  rw [grows.history]
  exact List.mem_append_left events member

/-- The other handlers stand as they stood. -/
theorem other_ok (grows : Grows system after handler phase events) (sound : Sound system) {other : HandlerId} {found : Phase}
    (ne : other ≠ handler) (there : system.handlers.lookup other = some found) : PhaseOk after other found := by
  have ok := sound.phases other found there
  cases found with
  | registering sid path =>
    refine ⟨grows.issued sid ok.1, fun event member => ?_⟩
    rw [grows.history] at member
    rcases List.mem_append.mp member with old | new
    · exact ok.2 event old
    · intro same
      rcases grows.known event new with ⟨past, member, about⟩ | ⟨path', mine⟩
      · exact ok.2 past member (about.trans same)
      · rw [same] at mine
        exact ne (sound.alone handler other sid path' path mine there)
  | starting sid =>
    obtain ⟨opener, member⟩ := ok
    exact ⟨opener, grows.past member⟩
  | answering sid =>
    obtain ⟨⟨opener, member⟩, fewer⟩ := ok
    refine ⟨⟨opener, grows.past member⟩, fun present => ?_⟩
    have none : events.count (.answered other sid) = 0 :=
      List.count_eq_zero.mpr fun answered => ne (grows.answers other sid answered)
    rw [grows.history, List.count_append, List.count_append, none, Nat.add_zero]
    rcases grows.there sid present with before | unheard
    · exact Nat.lt_of_lt_of_le (fewer before) (Nat.le_add_right ..)
    · exact absurd rfl (unheard _ member)
  | waiting | looking | tearing | deleting | closed => trivial

theorem phases (grows : Grows system after handler phase events) (sound : Sound system) (own : PhaseOk after handler phase)
    (other : HandlerId) (found : Phase) (there : after.handlers.lookup other = some found) : PhaseOk after other found := by
  rw [grows.handlers, FiniteMap.lookup_insert_if] at there
  split at there
  next same =>
    cases there
    rw [same]
    exact own
  next ne => exact grows.other_ok sound ne there

theorem alone (grows : Grows system after handler phase events) (sound : Sound system)
    (old : ∀ sid path, phase = .registering sid path → sid ∉ system.issued) (one other : HandlerId) (sid : SessionId)
    (path path' : String) (first : after.handlers.lookup one = some (.registering sid path))
    (second : after.handlers.lookup other = some (.registering sid path')) : other = one := by
  rw [grows.handlers, FiniteMap.lookup_insert_if] at first second
  split at first
  next same =>
    split at second
    next again => rw [same, again]
    next => exact absurd (sound.phases other _ second).1 (old sid path (Option.some.inj first))
  next =>
    split at second
    next => exact absurd (sound.phases one _ first).1 (old sid path' (Option.some.inj second))
    next => exact sound.alone one other sid path path' first second

end Grows

/-- Only a handler's phase changes, to one that asks for nothing new. -/
theorem Sound.quiet (sound : Sound system) (phase : Phase) (sessions : after.sessions = system.sessions) (issued : after.issued = system.issued)
    (history : after.history = system.history) (handlers : after.handlers = AList.insert handler phase system.handlers)
    (calm : PhaseOk system handler phase) (old : ∀ sid path, phase ≠ .registering sid path) : Sound after := by
  have grows : Grows system after handler phase [] := {
    handlers := handlers
    issued := fun sid member => issued ▸ member
    history := by rw [history, List.append_nil]
    known := fun event member => absurd member List.not_mem_nil
    there := fun sid present => .inl (sessions ▸ present)
    answers := fun other sid member => absurd member List.not_mem_nil }
  obtain ⟨afterSessions, afterHandlers, next, afterIssued, afterHistory⟩ := after
  dsimp only at sessions issued history
  subst sessions issued history
  refine { sound with phases := grows.phases sound ?_, alone := grows.alone sound fun sid path registering => ?_ }
  · cases phase <;> exact calm
  · exact absurd registering (old sid path)

/-- A SETUP draws an id that is new. -/
theorem Sound.draw (sound : Sound system) {sid : SessionId} (path : String) (new : sid ∉ system.issued) :
    Sound (({ system with issued := system.issued ++ [sid] } : RtspSystem).setPhase handler (.registering sid path)) := by
  have grows : Grows system (({ system with issued := system.issued ++ [sid] } : RtspSystem).setPhase handler
      (.registering sid path)) handler (.registering sid path) [] := {
    handlers := rfl
    issued := fun sid member => List.mem_append_left _ member
    history := (List.append_nil _).symm
    known := fun event member => absurd member List.not_mem_nil
    there := fun sid present => .inl present
    answers := fun other sid member => absurd member List.not_mem_nil }
  have own : PhaseOk (({ system with issued := system.issued ++ [sid] } : RtspSystem).setPhase handler (.registering sid path))
      handler (.registering sid path) :=
    ⟨List.mem_append_right _ (List.mem_singleton_self sid),
      fun event member same => new (same ▸ sound.drawn event member)⟩
  refine { sound with drawn := fun event member => ?_, phases := grows.phases sound own, alone := grows.alone sound ?_ }
  · exact List.mem_append_left _ (sound.drawn event member)
  · intro other path' registering
    cases registering
    exact new

theorem Sound.unheard (sound : Sound system) {sid : SessionId} (unheard : ∀ event ∈ system.history, event.sid ≠ sid) :
    system.sessions.lookup sid = none := by
  cases found : system.sessions.lookup sid with
  | none => rfl
  | some session => exact absurd rfl (unheard _ (sound.setUp sid session found))

theorem Sound.register (sound : Sound system) {sid : SessionId} {path : String}
    (found : system.handlers.lookup handler = some (.registering sid path))
    (taken : system.act handler (.registering sid path) = some after) : Sound after := by
  obtain ⟨drawn, unheard⟩ := sound.phases handler _ found
  have stored (other : SessionId) : after.sessions.lookup other =
      if other = sid then some ⟨sid, path, .ready, handler⟩ else system.sessions.lookup other := by
    cases taken
    exact FiniteMap.lookup_insert_if system.sessions sid other ⟨sid, path, .ready, handler⟩
  have same {other : SessionId} (ne : other ≠ sid) : after.sessions.lookup other = system.sessions.lookup other := by
    rw [stored, if_neg ne]
  have history : after.history = system.history ++ [.setUp handler sid] := by cases taken; rfl
  have grows : Grows system after handler (.waiting (some sid)) [.setUp handler sid] := {
    handlers := by cases taken; rfl
    issued := by cases taken; exact fun _ member => member
    history := history
    known := fun event member => .inr ⟨path, by rw [List.mem_singleton.mp member]; exact found⟩
    there := by
      intro other present
      by_cases mine : other = sid
      · exact .inr fun event member about => unheard event member (about.trans mine)
      · exact .inl (by rwa [← same mine])
    answers := by simp }
  have old {event : SessionEvent} (member : event ∈ after.history) (ne : event ≠ .setUp handler sid) :
      event ∈ system.history ∧ event.sid ≠ sid := by
    rw [history] at member
    rcases List.mem_append.mp member with old | new
    · exact ⟨old, unheard event old⟩
    · exact absurd (List.mem_singleton.mp new) ne
  refine { setUp := ?_, drawn := ?_, gone := ?_, kept := ?_, playing := ?_, unready := ?_, paid := ?_,
           phases := grows.phases sound trivial, alone := grows.alone sound (by simp) }
  · intro other session there
    by_cases mine : other = sid
    · rw [mine, stored, if_pos rfl] at there
      cases there
      rw [mine, history]
      exact List.mem_append_right _ (List.mem_singleton_self _)
    · exact grows.past (sound.setUp other session (same mine ▸ there))
  · intro event member
    rw [history] at member
    refine grows.issued _ ?_
    rcases List.mem_append.mp member with old | new
    · exact sound.drawn event old
    · rw [List.mem_singleton.mp new]
      exact drawn
  · intro other member
    obtain ⟨before, ne⟩ := old member (by simp)
    exact (same ne).trans (sound.gone other before)
  · intro opener other member
    by_cases mine : other = sid
    · rw [stored, if_pos mine]
      exact .inl rfl
    · rw [same mine]
      obtain ⟨before, -⟩ := old member (by rintro ⟨⟩; exact mine rfl)
      exact (sound.kept opener other before).imp_right grows.past
  · intro other state
    rw [RtspSystem.stateOf] at state
    by_cases mine : other = sid
    · rw [stored, if_pos mine] at state
      cases state
    · rw [same mine] at state
      obtain ⟨starter, member⟩ := sound.playing other state
      exact ⟨starter, grows.past member⟩
  · intro starter other member
    obtain ⟨before, ne⟩ := old member (by simp)
    have here : after.stateOf other = system.stateOf other := congrArg (Option.map RtspSession.state) (same ne)
    rw [here]
    exact sound.unready starter other before
  · intro other asked present
    rw [history, List.count_append, List.count_append]
    by_cases mine : asked = sid
    · have none : system.history.count (.answered other asked) = 0 :=
        List.count_eq_zero.mpr fun member => unheard _ member mine
      simp [none]
    · rw [same mine] at present
      simpa using sound.paid other asked present

/-- A step about an id that a SETUP has registered: no session comes, and one that goes has been deleted. -/
theorem Sound.continues {events : List SessionEvent} (sound : Sound system) (grows : Grows system after handler phase events)
    (own : PhaseOk after handler phase) (old : ∀ sid path, phase ≠ .registering sid path)
    (heard : ∀ event ∈ events, ∃ past ∈ system.history, past.sid = event.sid) (setUps : ∀ opener sid, .setUp opener sid ∉ events)
    (openers : ∀ sid session, after.sessions.lookup sid = some session →
      ∃ before, system.sessions.lookup sid = some before ∧ before.opener = session.opener)
    (lost : ∀ sid, (system.sessions.lookup sid).isSome = true →
      (after.sessions.lookup sid).isSome = true ∨ .deleted sid ∈ events)
    (deleted : ∀ sid, .deleted sid ∈ events → after.sessions.lookup sid = none)
    (playing : ∀ sid, after.stateOf sid = some .playing → ∃ handler, .started handler sid ∈ after.history)
    (unready : ∀ handler sid, .started handler sid ∈ after.history → after.stateOf sid ≠ some .ready)
    (paid : ∀ handler sid, (after.sessions.lookup sid).isSome = true →
      after.history.count (.answered handler sid) ≤ after.history.count (.started handler sid)) : Sound after := by
  refine { setUp := fun sid session there => ?_, drawn := fun event member => ?_, gone := fun sid member => ?_,
           kept := fun opener sid member => ?_, playing := playing, unready := unready, paid := paid,
           phases := grows.phases sound own, alone := grows.alone sound fun sid path same => absurd same (old sid path) }
  · obtain ⟨before, found, same⟩ := openers sid session there
    rw [← same]
    exact grows.past (sound.setUp sid before found)
  · apply grows.issued
    rw [grows.history] at member
    rcases List.mem_append.mp member with past | new
    · exact sound.drawn event past
    · obtain ⟨past, earlier, same⟩ := heard event new
      exact same ▸ sound.drawn past earlier
  · rw [grows.history] at member
    rcases List.mem_append.mp member with past | new
    · cases found : after.sessions.lookup sid with
      | none => rfl
      | some session =>
        obtain ⟨before, there, -⟩ := openers sid session found
        rw [sound.gone sid past] at there
        cases there
    · exact deleted sid new
  · rw [grows.history] at member
    rcases List.mem_append.mp member with past | new
    · rcases sound.kept opener sid past with there | ended
      · refine (lost sid there).imp_right fun now => ?_
        rw [grows.history]
        exact List.mem_append_right _ now
      · exact .inr (grows.past ended)
    · exact absurd new (setUps opener sid)

theorem openers_transition {sessions : SessionTable} {sid other : SessionId} {newState : SessionState} {session : RtspSession}
    (found : (transitionSession sessions sid newState).lookup other = some session) :
    ∃ before, sessions.lookup other = some before ∧ before.opener = session.opener := by
  rw [lookup_transition] at found
  split at found
  next same =>
    obtain ⟨before, there, rfl⟩ := Option.map_eq_some_iff.mp found
    exact ⟨before, same ▸ there, rfl⟩
  next => exact ⟨session, found, rfl⟩

theorem Sound.play (sound : Sound system) {sid : SessionId} (found : system.handlers.lookup handler = some (.starting sid))
    (taken : system.act handler (.starting sid) = some after) : Sound after := by
  obtain ⟨opener, setUp⟩ := sound.phases handler _ found
  rw [RtspSystem.act] at taken
  split at taken
  next session there =>
    have history : after.history = system.history ++ [.started handler sid] := by cases taken; rfl
    have sessions : after.sessions = transitionSession system.sessions sid .playing := by cases taken; rfl
    have state (other : SessionId) : after.stateOf other =
        if other = sid then (system.stateOf sid).map fun _ => .playing else system.stateOf other := by
      rw [← stateOf_transition, RtspSystem.stateOf, sessions, RtspSystem.stateOf]
    have counted (asked : HandlerId) (other : SessionId) :
        after.history.count (.answered asked other) = system.history.count (.answered asked other) ∧
          system.history.count (.started asked other) ≤ after.history.count (.started asked other) := by
      simp [history, List.count_append]
    have grows : Grows system after handler (.answering sid) [.started handler sid] := {
      handlers := by cases taken; rfl
      issued := by cases taken; exact fun _ member => member
      history := history
      known := fun event member => .inl ⟨_, setUp, by rw [List.mem_singleton.mp member]; rfl⟩
      there := fun other present => .inl (by rwa [sessions, isSome_transition] at present)
      answers := by simp }
    have paid (asked : HandlerId) (other : SessionId) (present : (after.sessions.lookup other).isSome = true) :
        after.history.count (.answered asked other) ≤ after.history.count (.started asked other) := by
      rw [sessions, isSome_transition] at present
      rw [(counted asked other).1]
      exact Nat.le_trans (sound.paid asked other present) (counted asked other).2
    refine sound.continues grows ⟨⟨opener, grows.past setUp⟩, fun present => ?_⟩ (by simp) (fun event member => ⟨_, setUp, ?_⟩)
      (by simp) (fun other session present => openers_transition (sessions ▸ present)) (fun other present => .inl ?_) (by simp)
      (fun other playing => ?_) (fun starter other member => ?_) paid
    · have fewer := sound.paid handler sid (by rw [there]; rfl)
      rw [(counted handler sid).1, history, List.count_append, List.count_singleton_self]
      exact Nat.lt_succ_of_le fewer
    · rw [List.mem_singleton.mp member]
      rfl
    · rwa [sessions, isSome_transition]
    · rw [state] at playing
      split at playing
      next same =>
        rw [same, history]
        exact ⟨handler, List.mem_append_right _ (List.mem_singleton_self _)⟩
      next =>
        obtain ⟨starter, member⟩ := sound.playing other playing
        exact ⟨starter, grows.past member⟩
    · rw [state]
      split
      next => simp
      next ne =>
        rw [history] at member
        rcases List.mem_append.mp member with past | new
        · exact sound.unready starter other past
        · cases List.mem_singleton.mp new
          exact absurd rfl ne
  next missing =>
    have same : transitionSession system.sessions sid .playing = system.sessions := by rw [transitionSession, missing]
    cases taken
    refine sound.quiet (.answering sid) same rfl rfl rfl ⟨⟨opener, setUp⟩, fun present => ?_⟩ (by simp)
    rw [missing] at present
    cases present

theorem Sound.answer (sound : Sound system) {sid : SessionId} (found : system.handlers.lookup handler = some (.answering sid))
    (taken : system.act handler (.answering sid) = some after) : Sound after := by
  obtain ⟨⟨opener, setUp⟩, fewer⟩ := sound.phases handler _ found
  have history : after.history = system.history ++ [.answered handler sid] := by cases taken; rfl
  have sessions : after.sessions = system.sessions := by cases taken; rfl
  have state (other : SessionId) : after.stateOf other = system.stateOf other := by
    rw [RtspSystem.stateOf, sessions, RtspSystem.stateOf]
  have grows : Grows system after handler (.waiting (some sid)) [.answered handler sid] := {
    handlers := by cases taken; rfl
    issued := by cases taken; exact fun _ member => member
    history := history
    known := fun event member => .inl ⟨_, setUp, by rw [List.mem_singleton.mp member]; rfl⟩
    there := fun other present => .inl (sessions ▸ present)
    answers := by simp +contextual }
  refine sound.continues grows trivial (by simp) (fun event member => ⟨_, setUp, ?_⟩) (by simp)
    (fun other session present => ⟨session, sessions ▸ present, rfl⟩) (fun other present => .inl (sessions ▸ present)) (by simp)
    (fun other playing => ?_) (fun starter other member => ?_) (fun asked other present => ?_)
  · rw [List.mem_singleton.mp member]
    rfl
  · obtain ⟨starter, member⟩ := sound.playing other (state other ▸ playing)
    exact ⟨starter, grows.past member⟩
  · rw [state]
    exact sound.unready starter other (by simpa [history] using member)
  · rw [sessions] at present
    rw [history, List.count_append, List.count_append]
    by_cases mine : asked = handler ∧ other = sid
    · obtain ⟨rfl, rfl⟩ := mine
      simpa [Nat.succ_le_iff] using fewer present
    · have apart : SessionEvent.answered handler sid ≠ .answered asked other := by
        rintro ⟨⟩
        exact mine ⟨rfl, rfl⟩
      simpa [List.count_singleton, apart] using sound.paid asked other present

theorem Sound.tear (sound : Sound system) {sid : SessionId} (taken : system.act handler (.tearing sid) = some after) :
    Sound after := by
  have history : after.history = system.history := by cases taken; rfl
  have sessions : after.sessions = transitionSession system.sessions sid .teardown := by cases taken; rfl
  have state (other : SessionId) : after.stateOf other =
      if other = sid then (system.stateOf sid).map fun _ => .teardown else system.stateOf other := by
    rw [← stateOf_transition, RtspSystem.stateOf, sessions, RtspSystem.stateOf]
  have grows : Grows system after handler (.deleting sid) [] := {
    handlers := by cases taken; rfl
    issued := by cases taken; exact fun _ member => member
    history := by rw [history, List.append_nil]
    known := by simp
    there := fun other present => .inl (by rwa [sessions, isSome_transition] at present)
    answers := by simp }
  refine sound.continues grows trivial (by simp) (by simp) (by simp) (fun other session present =>
    openers_transition (sessions ▸ present)) (fun other present => .inl ?_) (by simp) (fun other playing => ?_)
    (fun starter other member => ?_) (fun asked other present => ?_)
  · rwa [sessions, isSome_transition]
  · rw [state] at playing
    split at playing
    next => simp at playing
    next => exact history ▸ sound.playing other playing
  · rw [state]
    split
    next => simp
    next => exact sound.unready starter other (history ▸ member)
  · rw [sessions, isSome_transition] at present
    rw [history]
    exact sound.paid asked other present

theorem Sound.delete (sound : Sound system) {sid : SessionId} (taken : system.act handler (.deleting sid) = some after) :
    Sound after := by
  rw [RtspSystem.act] at taken
  split at taken
  next session there =>
    have history : after.history = system.history ++ [.deleted sid] := by cases taken; rfl
    have stored (other : SessionId) : after.sessions.lookup other = if other = sid then none else system.sessions.lookup other := by
      cases taken
      exact FiniteMap.lookup_erase_if system.sessions sid other
    have known : SessionEvent.setUp session.opener sid ∈ system.history := sound.setUp sid session there
    have kept {other : SessionId} {found : RtspSession} (present : after.sessions.lookup other = some found) :
        other ≠ sid ∧ system.sessions.lookup other = some found := by
      rw [stored] at present
      split at present
      next => cases present
      next ne => exact ⟨ne, present⟩
    have counted (event : SessionEvent) (ne : event ≠ .deleted sid) :
        after.history.count event = system.history.count event := by
      simp [history, List.count_append, ne.symm]
    have grows : Grows system after handler .closed [.deleted sid] := {
      handlers := by cases taken; rfl
      issued := by cases taken; exact fun _ member => member
      history := history
      known := fun event member => .inl ⟨_, known, by rw [List.mem_singleton.mp member]; rfl⟩
      there := fun other present => by
        obtain ⟨found, present⟩ := Option.isSome_iff_exists.mp present
        exact .inl (Option.isSome_iff_exists.mpr ⟨found, (kept present).2⟩)
      answers := by simp }
    refine sound.continues grows trivial (by simp) (fun event member => ⟨_, known, ?_⟩) (by simp)
      (fun other found present => ⟨found, (kept present).2, rfl⟩) (fun other present => ?_) (fun other member => ?_)
      (fun other playing => ?_) (fun starter other member ready => ?_) (fun asked other present => ?_)
    · rw [List.mem_singleton.mp member]
      rfl
    · by_cases mine : other = sid
      · exact .inr (by simp [mine])
      · exact .inl (by rwa [stored, if_neg mine])
    · cases List.mem_singleton.mp member
      rw [stored, if_pos rfl]
    · obtain ⟨found, present, playing⟩ := Option.map_eq_some_iff.mp playing
      obtain ⟨starter, member⟩ := sound.playing other (Option.map_eq_some_iff.mpr ⟨found, (kept present).2, playing⟩)
      exact ⟨starter, grows.past member⟩
    · obtain ⟨found, present, ready⟩ := Option.map_eq_some_iff.mp ready
      exact sound.unready starter other (by simpa [history] using member)
        (Option.map_eq_some_iff.mpr ⟨found, (kept present).2, ready⟩)
    · obtain ⟨found, present⟩ := Option.isSome_iff_exists.mp present
      rw [counted _ (by simp), counted _ (by simp)]
      exact sound.paid asked other (Option.isSome_iff_exists.mpr ⟨found, (kept present).2⟩)
  next missing =>
    have same : deleteSession system.sessions sid = system.sessions :=
      AList.ext (List.kerase_of_notMem_keys (List.dlookup_eq_none.mp missing))
    cases taken
    exact sound.quiet .closed same rfl rfl rfl trivial (by simp)

/-- A phase that another step of the handler may come to at any time. -/
structure Calm (system : RtspSystem) (handler : HandlerId) (phase : Phase) : Prop where
  ok : PhaseOk system handler phase
  old : ∀ sid path, phase ≠ .registering sid path

theorem Sound.calm (sound : Sound system) (calm : Calm system handler phase) : Sound (system.setPhase handler phase) :=
  sound.quiet phase rfl rfl rfl rfl calm.ok calm.old

theorem look_cases (sound : Sound system) {sid : SessionId} (taken : system.act handler (.looking sid) = some after) :
    ∃ phase, after = system.setPhase handler phase ∧ Calm system handler phase := by
  rw [RtspSystem.act] at taken
  split at taken
  next session there =>
    split at taken
    next => exact ⟨_, (Option.some.inj taken).symm, ⟨session.opener, sound.setUp sid session there⟩, by simp⟩
    next => exact ⟨_, (Option.some.inj taken).symm, trivial, by simp⟩
  next => exact ⟨_, (Option.some.inj taken).symm, trivial, by simp⟩

/-- A request draws a new id, or changes the handler's phase only. -/
theorem request_cases {method : RtspMethod} {path : String} {sessionHeader sessionId : Option SessionId}
    (taken : system.handleRtspMethod handler path sessionHeader sessionId method = some after) :
    (∃ phase, after = system.setPhase handler phase ∧ Calm system handler phase) ∨ ∃ sid, sid ∉ system.issued ∧
      after = ({ system with issued := system.issued ++ [sid] } : RtspSystem).setPhase handler (.registering sid path) := by
  cases method with
  | options | describe | other => exact .inl ⟨_, (Option.some.inj taken).symm, trivial, by simp⟩
  | setup sid =>
    rw [RtspSystem.handleRtspMethod] at taken
    split at taken
    next => cases taken
    next new => exact .inr ⟨sid, new, (Option.some.inj taken).symm⟩
  | play | teardown =>
    rw [RtspSystem.handleRtspMethod] at taken
    split at taken <;> exact .inl ⟨_, (Option.some.inj taken).symm, trivial, by simp⟩

theorem Sound.act (sound : Sound system) (found : system.handlers.lookup handler = some phase)
    (taken : system.act handler phase = some after) : Sound after := by
  cases phase with
  | waiting | closed => cases taken
  | registering => exact sound.register found taken
  | looking =>
    obtain ⟨phase, rfl, calm⟩ := look_cases sound taken
    exact sound.calm calm
  | starting => exact sound.play found taken
  | answering => exact sound.answer found taken
  | tearing => exact sound.tear taken
  | deleting => exact sound.delete taken

theorem Sound.request (sound : Sound system) {method : RtspMethod} {path : String} {sessionHeader sessionId : Option SessionId}
    (taken : system.handleRtspMethod handler path sessionHeader sessionId method = some after) : Sound after := by
  rcases request_cases taken with ⟨phase, rfl, calm⟩ | ⟨sid, new, rfl⟩
  · exact sound.calm calm
  · exact sound.draw path new

/-- A handler that ends asks for nothing any more. -/
theorem Sound.ends (sound : Sound system) : Sound { system with handlers := AList.erase handler system.handlers } := by
  have kept {other : HandlerId} {found : Phase} (there : (AList.erase handler system.handlers).lookup other = some found) :
      system.handlers.lookup other = some found := by
    rw [FiniteMap.lookup_erase_if] at there
    split at there
    next => cases there
    next => exact there
  exact { sound with
    phases := fun other found there => by
      have ok := sound.phases other found (kept there)
      cases found <;> exact ok
    alone := fun one other sid path path' first second => sound.alone one other sid path path' (kept first) (kept second) }

theorem Sound.next {label : RtspLabel} (sound : Sound system) (taken : RtspSteps system label after) : Sound after := by
  cases label with
  | connect =>
    cases taken
    exact sound.quiet (.waiting none) rfl rfl rfl rfl trivial (by simp)
  | request handler method path sessionHeader =>
    rw [RtspSteps, RtspSystem.next] at taken
    split at taken
    next => exact sound.request taken
    next => cases taken
  | act handler =>
    obtain ⟨phase, found, taken⟩ := Option.bind_eq_some_iff.mp taken
    exact sound.act found taken
  | ends handler =>
    rw [RtspSteps, RtspSystem.next] at taken
    split at taken
    next => cases taken; exact sound.ends
    next => cases taken; exact sound.ends
    next => cases taken

end Soundness

end Burble.Transport
