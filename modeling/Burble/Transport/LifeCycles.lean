import Burble.Transport.SessionLives

namespace Burble.Transport

section Counting
variable {handler other : HandlerId} {sid : SessionId} {history : List SessionEvent}

theorem startsOf_append (later : List SessionEvent) :
    startsOf sid (history ++ later) = startsOf sid history + startsOf sid later := List.countP_append

theorem answersOf_append (later : List SessionEvent) :
    answersOf sid (history ++ later) = answersOf sid history + answersOf sid later := List.countP_append

theorem answersOf_eq_zero (history : List SessionEvent) (none : ∀ handler, .answered handler sid ∉ history) : answersOf sid history = 0 := by
  refine List.countP_eq_zero.mpr fun event member => ?_
  cases event with
  | answered handler found =>
    rintro same
    exact none handler (of_decide_eq_true same ▸ member)
  | setUp | started | deleted => exact Bool.false_ne_true

theorem startsOf_eq_zero (history : List SessionEvent) (none : ∀ handler, .started handler sid ∉ history) : startsOf sid history = 0 := by
  refine List.countP_eq_zero.mpr fun event member => ?_
  cases event with
  | started handler found =>
    rintro same
    exact none handler (of_decide_eq_true same ▸ member)
  | setUp | answered | deleted => exact Bool.false_ne_true

theorem startsOf_pos (member : .started handler sid ∈ history) : 0 < startsOf sid history :=
  List.countP_pos_iff.mpr ⟨_, member, decide_eq_true rfl⟩

/-- What two handlers have started counts together. -/
theorem count_add_le_startsOf (ne : handler ≠ other) (sid : SessionId) (history : List SessionEvent) :
    history.count (.started handler sid) + history.count (.started other sid) ≤ startsOf sid history := by
  induction history with
  | nil => exact Nat.le_refl 0
  | cons event rest ih =>
    rw [← List.singleton_append, List.count_append, List.count_append, startsOf_append]
    have one : [event].count (.started handler sid) + [event].count (.started other sid) ≤ startsOf sid [event] := by
      cases event with
      | started starter found =>
        by_cases about : found = sid
        · subst about
          by_cases first : starter = handler
          · subst first
            simp [startsOf, ne]
          · by_cases second : starter = other <;> simp [startsOf, first, second, ne.symm]
        · simp [startsOf, about]
      | setUp | answered | deleted => simp [startsOf]
    omega

theorem count_le_startsOf (handler : HandlerId) (sid : SessionId) (history : List SessionEvent) :
    history.count (.started handler sid) ≤ startsOf sid history :=
  Nat.le_trans (Nat.le_add_right ..) (count_add_le_startsOf (Nat.ne_of_lt (Nat.lt_succ_self handler)) sid history)

theorem genuine_snoc_iff {event : SessionEvent} : Genuine (history ++ [event]) ↔ Genuine history ∧
    ∀ handler sid, event = .answered handler sid → (∃ opener, .setUp opener sid ∈ history) ∧ .deleted sid ∉ history := by
  constructor
  · intro genuine
    constructor
    · rintro past handler sid later rfl
      exact genuine past handler sid (later ++ [event]) (by simp)
    · rintro handler sid rfl
      exact genuine history handler sid [] rfl
  · rintro ⟨genuine, now⟩ past handler sid later joined
    rcases List.eq_nil_or_concat later with rfl | ⟨front, final, rfl⟩
    · obtain ⟨rfl, same⟩ := List.append_inj' joined rfl
      exact now handler sid (List.cons.inj same).1
    · rw [List.concat_eq_append, ← List.cons_append, ← List.append_assoc] at joined
      obtain ⟨rfl, -⟩ := List.append_inj' joined rfl
      exact genuine past handler sid front rfl

end Counting

section Steps
variable {system after : RtspSystem} {handler : HandlerId} {sid : SessionId} {phase : Phase}

theorem Advances.same (sessions : after.sessions = system.sessions) : Advances system after := by
  intro sid
  rw [RtspSystem.stateOf, RtspSystem.stateOf, sessions]
  exact .stays

/-- A step whose events start and answer nothing leaves the rest to the table. -/
theorem LifeCycle.silent (life : LifeCycle system) (events : List SessionEvent) (sound : Sound after)
    (history : after.history = system.history ++ events) (genuine : Genuine after.history)
    (none : ∀ handler sid, .started handler sid ∉ events ∧ .answered handler sid ∉ events)
    (held : ∀ sid session, after.sessions.lookup sid = some session →
      (after.handlers.lookup session.opener).isSome = true) : LifeCycle after where
  startedOnce sid := by
    rw [history, startsOf_append, startsOf_eq_zero _ fun handler => (none handler sid).1]
    exact life.startedOnce sid
  answeredOnce sid := by
    rw [history, answersOf_append, answersOf_eq_zero _ fun handler => (none handler sid).2]
    exact life.answeredOnce sid
  genuine := genuine
  gone := sound.gone
  held := held

theorem isSome_insert (handlers : FiniteMap HandlerId Phase) (other : HandlerId) (there : (handlers.lookup other).isSome = true) :
    ((AList.insert handler phase handlers).lookup other).isSome = true := by
  rw [FiniteMap.lookup_insert_if]
  split
  next => rfl
  next => exact there

/-- A step that changes a phase only. -/
theorem LifeCycle.quiet (life : LifeCycle system) (phase : Phase) (sound : Sound after) (sessions : after.sessions = system.sessions)
    (history : after.history = system.history) (handlers : after.handlers = AList.insert handler phase system.handlers) :
    Advances system after ∧ LifeCycle after := by
  refine ⟨.same sessions, life.silent [] sound ?_ ?_ (by simp) fun sid session there => ?_⟩
  · rw [history, List.append_nil]
  · rw [history]
    exact life.genuine
  · rw [handlers]
    exact isSome_insert _ _ (life.held sid session (sessions ▸ there))

theorem LifeCycle.register (life : LifeCycle system) (before : Sound system) (sound : Sound after) {path : String}
    (found : system.handlers.lookup handler = some (.registering sid path))
    (taken : system.act handler (.registering sid path) = some after) : Advances system after ∧ LifeCycle after := by
  have missing := before.unheard (before.phases handler _ found).2
  have stored (other : SessionId) : after.sessions.lookup other =
      if other = sid then some ⟨sid, path, .ready, handler⟩ else system.sessions.lookup other := by
    cases taken
    exact FiniteMap.lookup_insert_if system.sessions sid other ⟨sid, path, .ready, handler⟩
  have history : after.history = system.history ++ [.setUp handler sid] := by cases taken; rfl
  have handlers : after.handlers = AList.insert handler (.waiting (some sid)) system.handlers := by cases taken; rfl
  refine ⟨fun other => ?_, life.silent _ sound history ?_ (by simp) fun other session there => ?_⟩
  · rw [RtspSystem.stateOf, RtspSystem.stateOf, stored]
    split
    next same =>
      rw [same, missing]
      exact .ready
    next => exact .stays
  · rw [history]
    exact genuine_snoc_iff.mpr ⟨life.genuine, by simp⟩
  · rw [handlers]
    rw [stored] at there
    split at there
    next =>
      cases there
      rw [FiniteMap.lookup_insert_if, if_pos rfl]
      rfl
    next => exact isSome_insert _ _ (life.held other session there)

/-- A PLAY starts its session as it may exactly where the session, if it is there, is ready. -/
theorem LifeCycle.play_iff (life : LifeCycle system) (before : Sound system) (sound : Sound after)
    (taken : system.act handler (.starting sid) = some after) :
    (∀ session ∈ system.sessions.lookup sid, session.state = .ready) ↔ Advances system after ∧ LifeCycle after := by
  rw [RtspSystem.act] at taken
  split at taken
  next session there =>
    have history : after.history = system.history ++ [.started handler sid] := by cases taken; rfl
    have sessions : after.sessions = transitionSession system.sessions sid .playing := by cases taken; rfl
    have handlers : after.handlers = AList.insert handler (.answering sid) system.handlers := by cases taken; rfl
    have state (other : SessionId) : after.stateOf other =
        if other = sid then (system.stateOf sid).map fun _ => .playing else system.stateOf other := by
      rw [← stateOf_transition, RtspSystem.stateOf, sessions, RtspSystem.stateOf]
    have now : system.stateOf sid = some session.state := by rw [RtspSystem.stateOf, there]; rfl
    constructor
    · intro ready
      have isReady : session.state = .ready := ready session there
      have unstarted : startsOf sid system.history = 0 :=
        startsOf_eq_zero _ fun starter member => before.unready starter sid member (now.trans (congrArg some isReady))
      refine ⟨fun other => ?_, ⟨fun other => ?_, fun other => ?_, ?_, sound.gone, fun other found stored => ?_⟩⟩
      · rw [state]
        split
        next same =>
          rw [same, now, isReady]
          exact .playing
        next => exact .stays
      · rw [history, startsOf_append]
        by_cases same : other = sid
        · rw [same, unstarted, Nat.zero_add]
          exact List.countP_le_length
        · have none : startsOf other [.started handler sid] = 0 := startsOf_eq_zero _ (by simp [same])
          rw [none]
          exact life.startedOnce other
      · rw [history, answersOf_append, answersOf_eq_zero [.started handler sid] (by simp)]
        exact life.answeredOnce other
      · rw [history]
        exact genuine_snoc_iff.mpr ⟨life.genuine, by simp⟩
      · obtain ⟨earlier, was, opener⟩ := openers_transition (sessions ▸ stored)
        rw [handlers, ← opener]
        exact isSome_insert _ _ (life.held other earlier was)
    · rintro ⟨advances, later⟩ found same
      cases Option.some.inj (there.symm.trans same)
      have goes := advances sid
      rw [state, if_pos rfl, now, Option.map_some] at goes
      have once := later.startedOnce sid
      rw [history, startsOf_append] at once
      have counted : startsOf sid [.started handler sid] = 1 := by simp [startsOf]
      cases isState : session.state with
      | ready => rfl
      | playing =>
        obtain ⟨starter, member⟩ := before.playing sid (now.trans (congrArg some isState))
        have started := startsOf_pos member
        omega
      | teardown =>
        rw [isState] at goes
        cases goes
  next missing =>
    have same : transitionSession system.sessions sid .playing = system.sessions := by rw [transitionSession, missing]
    cases taken
    exact iff_of_true (fun session found => by rw [missing] at found; cases found)
      (life.quiet (.answering sid) sound same rfl rfl)

/-- A PLAY is answered as it may be exactly where its session is still in the table. -/
theorem LifeCycle.answer_iff (life : LifeCycle system) (before : Sound system) (sound : Sound after)
    (found : system.handlers.lookup handler = some (.answering sid))
    (taken : system.act handler (.answering sid) = some after) :
    (system.sessions.lookup sid).isSome = true ↔ Advances system after ∧ LifeCycle after := by
  have history : after.history = system.history ++ [.answered handler sid] := by cases taken; rfl
  have sessions : after.sessions = system.sessions := by cases taken; rfl
  have handlers : after.handlers = AList.insert handler (.waiting (some sid)) system.handlers := by cases taken; rfl
  obtain ⟨⟨opener, setUp⟩, fewer⟩ := before.phases handler _ found
  constructor
  · intro there
    -- this handler has started the session and not yet answered, so no other has started it
    have unanswered : answersOf sid system.history = 0 := by
      refine answersOf_eq_zero _ fun other member => ?_
      have answered : 0 < system.history.count (.answered other sid) := List.count_pos_iff.mpr member
      have mine := fewer there
      have paid := before.paid other sid there
      have once := life.startedOnce sid
      by_cases same : other = handler
      · subst same
        have all := count_le_startsOf other sid system.history
        omega
      · have all := count_add_le_startsOf same sid system.history
        omega
    refine ⟨.same sessions, ⟨fun other => ?_, fun other => ?_, ?_, sound.gone, fun other session stored => ?_⟩⟩
    · rw [history, startsOf_append, startsOf_eq_zero [.answered handler sid] (by simp)]
      exact life.startedOnce other
    · rw [history, answersOf_append]
      by_cases same : other = sid
      · rw [same, unanswered, Nat.zero_add]
        exact List.countP_le_length
      · have none : answersOf other [.answered handler sid] = 0 := answersOf_eq_zero _ (by simp [same])
        rw [none]
        exact life.answeredOnce other
    · rw [history]
      refine genuine_snoc_iff.mpr ⟨life.genuine, fun other found same => ?_⟩
      cases same
      refine ⟨⟨opener, setUp⟩, fun deleted => ?_⟩
      rw [before.gone sid deleted] at there
      cases there
    · rw [handlers]
      exact isSome_insert _ _ (life.held other session (sessions ▸ stored))
  · rintro ⟨-, later⟩
    have genuine := later.genuine
    rw [history] at genuine
    exact (before.kept opener sid setUp).resolve_right ((genuine_snoc_iff.mp genuine).2 handler sid rfl).2

theorem LifeCycle.tear (life : LifeCycle system) (sound : Sound after) (taken : system.act handler (.tearing sid) = some after) :
    Advances system after ∧ LifeCycle after := by
  have history : after.history = system.history := by cases taken; rfl
  have sessions : after.sessions = transitionSession system.sessions sid .teardown := by cases taken; rfl
  have handlers : after.handlers = AList.insert handler (.deleting sid) system.handlers := by cases taken; rfl
  refine ⟨fun other => ?_, life.silent [] sound ?_ ?_ (by simp) fun other session there => ?_⟩
  · have state : after.stateOf other =
        if other = sid then (system.stateOf sid).map fun _ => .teardown else system.stateOf other := by
      rw [← stateOf_transition, RtspSystem.stateOf, sessions, RtspSystem.stateOf]
    rw [state]
    split
    next same =>
      rw [same]
      cases system.stateOf sid with
      | none => exact .stays
      | some => exact .teardown
    next => exact .stays
  · rw [history, List.append_nil]
  · rw [history]
    exact life.genuine
  · obtain ⟨before, was, opener⟩ := openers_transition (sessions ▸ there)
    rw [handlers, ← opener]
    exact isSome_insert _ _ (life.held other before was)

theorem LifeCycle.delete (life : LifeCycle system) (sound : Sound after)
    (taken : system.act handler (.deleting sid) = some after) : Advances system after ∧ LifeCycle after := by
  rw [RtspSystem.act] at taken
  split at taken
  next session there =>
    have history : after.history = system.history ++ [.deleted sid] := by cases taken; rfl
    have handlers : after.handlers = AList.insert handler .closed system.handlers := by cases taken; rfl
    have stored (other : SessionId) : after.sessions.lookup other = if other = sid then none else system.sessions.lookup other := by
      cases taken
      exact FiniteMap.lookup_erase_if system.sessions sid other
    refine ⟨fun other => ?_, life.silent _ sound history ?_ (by simp) fun other found present => ?_⟩
    · rw [RtspSystem.stateOf, RtspSystem.stateOf, stored]
      split
      next same =>
        rw [same, there]
        exact .gone
      next => exact .stays
    · rw [history]
      exact genuine_snoc_iff.mpr ⟨life.genuine, by simp⟩
    · rw [stored] at present
      rw [handlers]
      split at present
      next => cases present
      next => exact isSome_insert _ _ (life.held other found present)
  next missing =>
    have same : deleteSession system.sessions sid = system.sessions :=
      AList.ext (List.kerase_of_notMem_keys (List.dlookup_eq_none.mp missing))
    cases taken
    exact life.quiet .closed sound same rfl rfl

theorem LifeCycle.act_iff (life : LifeCycle system) (before : Sound system) (taken : RtspSteps system (.act handler) after) :
    Settled system (.act handler) ↔ Advances system after ∧ LifeCycle after := by
  have sound := before.next taken
  obtain ⟨phase, found, acted⟩ := Option.bind_eq_some_iff.mp taken
  rw [Settled, found]
  cases phase with
  | waiting | closed => cases acted
  | registering => exact iff_of_true trivial (life.register before sound found acted)
  | looking sid =>
    obtain ⟨phase, rfl, -⟩ := look_cases before acted
    exact iff_of_true trivial (life.quiet phase sound rfl rfl rfl)
  | starting => exact life.play_iff before sound acted
  | answering => exact life.answer_iff before sound found acted
  | tearing => exact iff_of_true trivial (life.tear sound acted)
  | deleting => exact iff_of_true trivial (life.delete sound acted)

theorem LifeCycle.request (life : LifeCycle system) (sound : Sound after) {method : RtspMethod} {path : String}
    {sessionHeader sessionId : Option SessionId}
    (taken : system.handleRtspMethod handler path sessionHeader sessionId method = some after) :
    Advances system after ∧ LifeCycle after := by
  rcases request_cases taken with ⟨phase, rfl, -⟩ | ⟨sid, -, rfl⟩
  · exact life.quiet phase sound rfl rfl rfl
  · exact life.quiet (.registering sid path) sound rfl rfl rfl

/-- A handler ends as it may exactly where no session in the table is its own. -/
theorem LifeCycle.ends_iff (life : LifeCycle system)
    (sound : Sound { system with handlers := AList.erase handler system.handlers }) :
    Settled system (.ends handler) ↔ Advances system { system with handlers := AList.erase handler system.handlers } ∧
      LifeCycle { system with handlers := AList.erase handler system.handlers } := by
  have left (other : HandlerId) : ((AList.erase handler system.handlers).lookup other).isSome = true ↔
      other ≠ handler ∧ (system.handlers.lookup other).isSome = true := by
    rw [FiniteMap.lookup_erase_if]
    split
    next same => simp [same]
    next ne => simp [ne]
  constructor
  · intro settled
    exact ⟨.same rfl, life.silent [] sound (List.append_nil _).symm life.genuine (by simp) fun sid session there =>
      (left _).mpr ⟨settled sid session there, life.held sid session there⟩⟩
  · rintro ⟨-, later⟩ sid session there
    exact ((left _).mp (later.held sid session there)).1

theorem LifeCycle.step_iff (life : LifeCycle system) (before : Sound system) {label : RtspLabel}
    (taken : RtspSteps system label after) : Settled system label ↔ Advances system after ∧ LifeCycle after := by
  have sound := before.next taken
  cases label with
  | connect =>
    cases taken
    exact iff_of_true trivial (life.quiet (.waiting none) sound rfl rfl rfl)
  | request handler method path sessionHeader =>
    rw [RtspSteps, RtspSystem.next] at taken
    split at taken
    next => exact iff_of_true trivial (life.request sound taken)
    next => cases taken
  | act handler => exact life.act_iff before taken
  | ends handler =>
    rw [RtspSteps, RtspSystem.next] at taken
    split at taken
    next => cases taken; exact life.ends_iff sound
    next => cases taken; exact life.ends_iff sound
    next => cases taken

end Steps

theorem LifeCycle.start : LifeCycle .start where
  startedOnce _ := Nat.zero_le _
  answeredOnce _ := Nat.zero_le _
  genuine past handler sid later joined := absurd joined (by simp [RtspSystem.start])
  gone _ _ := rfl
  held _ _ found := by cases found

/-- In a run every session goes through its life as it should exactly where each PLAY that sets one to playing finds it still
ready, or gone, and finds it in the table as it answers, and connections end only without a session. -/
theorem session_life_iff (labels : List RtspLabel) (last : RtspSystem) :
    Run (fun before label after => RtspSteps before label after ∧ Advances before after ∧ LifeCycle after) .start labels last ↔
      Run (Guarded Settled RtspSteps) .start labels last :=
  (Run.guarded_iff Sound ⟨.start, .start⟩ Sound.next fun sound life taken => life.step_iff sound taken).symm

/-- A connection sets a session up. -/
def oneSetup : List RtspLabel := [.connect, .request 0 (.setup "a") "/live/room-r/speaker" none, .act 0]

/-- Two connections play it at the same time, each looking it up before either sets it to playing. -/
def twoPlays : List RtspLabel :=
  oneSetup ++ [.connect, .request 0 .play "/live/room-r/speaker" none, .act 0,
    .request 1 .play "/live/room-r/speaker" (some "a"), .act 1, .act 0, .act 0, .act 1, .act 1]

/-- Both are answered with 200; and a session stays in the table when its connection has closed. -/
theorem session_played_twice :
    (∃ last, Run RtspSteps .start twoPlays last ∧ answersOf "a" last.history = 2) ∧
      ∃ last, Run RtspSteps .start (oneSetup ++ [.ends 0]) last ∧
        last.stateOf "a" = some .ready ∧ last.handlers.lookup 0 = none :=
  ⟨⟨_, play_run rfl, rfl⟩, _, play_run rfl, rfl, rfl⟩

end Burble.Transport
