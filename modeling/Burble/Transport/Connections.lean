import Burble.Transport.Rtsp
import Mathlib.Data.Set.Card

namespace Burble.Transport

def maxConcurrentConnections : Nat := 100

def maxConnectionsPerIp : Nat := 10

/-- The server with the processes that serve its connections. -/
structure ConnectionServer (Pid : Type) where
  rtsp : Rtsp Pid
  listener : Bool
  activeHandlers : MapSet Pid
  perIpConnections : FiniteMap String Nat

/-- What happens to connections: a socket is closed at once, a handler is spawned for one, the next is waited for, and a
handler's exit is reported. -/
inductive ConnectionEvent (Pid : Type)
  | rejected (clientIp : String)
  | admitted (handlerPid : Pid) (clientIp : String)
  | accepting
  | exited (handlerPid : Pid) (clientIp : String)
  deriving DecidableEq

namespace ConnectionServer
variable {Pid : Type} [DecidableEq Pid]

def spawnAcceptor (state : ConnectionServer Pid) : List (ConnectionEvent Pid) := if state.listener then [.accepting] else []

/-- A connection from an address, where the socket tells it, and the process that is spawned for it, if one is. The server
owns the socket, so that it can hand it on. -/
def rtspConnection (state : ConnectionServer Pid) (peername : Option String) (handlerPid : Pid) :
    List (ConnectionEvent Pid) × ConnectionServer Pid :=
  let activeCount := state.activeHandlers.size
  let clientIp := peername.getD "unknown"
  let ipCount := (state.perIpConnections.lookup clientIp).getD 0
  if activeCount ≥ maxConcurrentConnections then (.rejected clientIp :: state.spawnAcceptor, state)
  else if ipCount ≥ maxConnectionsPerIp then (.rejected clientIp :: state.spawnAcceptor, state)
  else
    let updatedState := { state with
      activeHandlers := state.activeHandlers.put handlerPid
      perIpConnections := match state.perIpConnections.lookup clientIp with
        | none => AList.insert clientIp 1 state.perIpConnections
        | some count => AList.insert clientIp (count + 1) state.perIpConnections }
    (.admitted handlerPid clientIp :: state.spawnAcceptor, updatedState)

def rtspHandlerExit (state : ConnectionServer Pid) (handlerPid : Pid) (clientIp : String) : ConnectionServer Pid :=
  let n := (state.perIpConnections.lookup clientIp).getD 0
  { state with
    activeHandlers := state.activeHandlers.delete handlerPid
    perIpConnections :=
      if n ≤ 1 then AList.erase clientIp state.perIpConnections
      else AList.insert clientIp (n - 1) state.perIpConnections }

end ConnectionServer
end Burble.Transport

namespace Burble.Transport
variable {Pid : Type}

/-- A handler has been admitted, and its exit has not been reported. -/
def Unreported (history : List (ConnectionEvent Pid)) (handlerPid : Pid) (clientIp : String) : Prop :=
  .admitted handlerPid clientIp ∈ history ∧ .exited handlerPid clientIp ∉ history

instance [DecidableEq Pid] (history : List (ConnectionEvent Pid)) (handlerPid : Pid) (clientIp : String) :
    Decidable (Unreported history handlerPid clientIp) := inferInstanceAs (Decidable (_ ∧ _))

/-- The process of an admitted connection. -/
def ConnectionEvent.handler : ConnectionEvent Pid → Option Pid
  | admitted handlerPid _ => some handlerPid
  | _ => none

/-- The server, with all that has happened to its connections. -/
structure Connections (Pid : Type) where
  state : ConnectionServer Pid
  history : List (ConnectionEvent Pid)

/-- What the server is told: a connection, with the id of the process that would be spawned for it, the exit of a handler,
with the address that this has been given, and anything else. -/
inductive ConnectionLabel (Pid : Type)
  | connection (peername : Option String) (handlerPid : Pid)
  | handlerExit (handlerPid : Pid) (clientIp : String)
  | request (request : Request Pid)

namespace Connections

def start (listener : Bool) (maxMountpoints maxSubscribersPerMount : Nat) : Connections Pid :=
  ⟨⟨.init maxMountpoints maxSubscribersPerMount, listener, ∅, ∅⟩, []⟩

variable [DecidableEq Pid]

/-- A process has an id of its own, and reports its exit once. -/
def next (connections : Connections Pid) : ConnectionLabel Pid → Option (Connections Pid)
  | .connection peername handlerPid =>
    if some handlerPid ∈ connections.history.map ConnectionEvent.handler then none
    else
      let (events, state) := connections.state.rtspConnection peername handlerPid
      some ⟨state, connections.history ++ events⟩
  | .handlerExit handlerPid clientIp =>
    if Unreported connections.history handlerPid clientIp then
      some ⟨connections.state.rtspHandlerExit handlerPid clientIp, connections.history ++ [.exited handlerPid clientIp]⟩
    else none
  | .request request => do
    let (_, _, rtsp) ← connections.state.rtsp.handle request
    return { connections with state := { connections.state with rtsp } }

end Connections

/-- The handlers that count for an address. -/
def handlersFrom (history : List (ConnectionEvent Pid)) (clientIp : String) : Set Pid :=
  { handlerPid | Unreported history handlerPid clientIp }

/-- The two counts are those of the handlers that have not exited yet, as far as has been reported. -/
structure Accounted (connections : Connections Pid) : Prop where
  active : ∀ handlerPid, handlerPid ∈ connections.state.activeHandlers ↔
    ∃ clientIp, Unreported connections.history handlerPid clientIp
  perIp : ∀ clientIp, (handlersFrom connections.history clientIp).encard =
    ((connections.state.perIpConnections.lookup clientIp).getD 0 : Nat)
  noZero : ∀ clientIp, connections.state.perIpConnections.lookup clientIp ≠ some 0
  total : connections.state.activeHandlers.size ≤ maxConcurrentConnections
  each : ∀ clientIp, (handlersFrom connections.history clientIp).encard ≤ maxConnectionsPerIp

/-- Each handler has one address, and is admitted before it exits. -/
structure OncePerHandler (history : List (ConnectionEvent Pid)) : Prop where
  oneIp : ∀ handlerPid clientIp other, .admitted handlerPid clientIp ∈ history → .admitted handlerPid other ∈ history →
    clientIp = other
  before : ∀ handlerPid clientIp, .exited handlerPid clientIp ∈ history → .admitted handlerPid clientIp ∈ history

section Histories
variable {history more : List (ConnectionEvent Pid)} {handlerPid : Pid} {clientIp : String}

theorem not_admitted_of_new (new : some handlerPid ∉ history.map ConnectionEvent.handler) (clientIp : String) :
    .admitted handlerPid clientIp ∉ history :=
  fun member => new (List.mem_map_of_mem member)

/-- Nothing that counts happens where an acceptor is spawned. -/
def Quiet (events : List (ConnectionEvent Pid)) : Prop :=
  ∀ handlerPid clientIp, .admitted handlerPid clientIp ∉ events ∧ .exited handlerPid clientIp ∉ events

theorem quiet_spawnAcceptor (state : ConnectionServer Pid) : Quiet state.spawnAcceptor := by
  intro handlerPid clientIp
  unfold ConnectionServer.spawnAcceptor
  split <;> simp

theorem unreported_quiet (quiet : Quiet more) (other : Pid) (otherIp : String) :
    Unreported (history ++ more) other otherIp ↔ Unreported history other otherIp := by
  have calm := quiet other otherIp
  simp [Unreported, calm.1, calm.2]

theorem unreported_admitted (once : OncePerHandler history) (new : some handlerPid ∉ history.map ConnectionEvent.handler)
    (quiet : Quiet more) (other : Pid) (otherIp : String) :
    Unreported (history ++ .admitted handlerPid clientIp :: more) other otherIp ↔
      Unreported history other otherIp ∨ other = handlerPid ∧ otherIp = clientIp := by
  have calm := quiet other otherIp
  have running : other = handlerPid → .exited other otherIp ∉ history := by
    rintro rfl exited
    exact not_admitted_of_new new otherIp (once.before _ _ exited)
  simp only [Unreported, List.mem_append, List.mem_cons, ConnectionEvent.admitted.injEq, calm.1, calm.2, or_false,
    reduceCtorEq]
  tauto

theorem unreported_exited (other : Pid) (otherIp : String) :
    Unreported (history ++ [.exited handlerPid clientIp]) other otherIp ↔
      Unreported history other otherIp ∧ ¬ (other = handlerPid ∧ otherIp = clientIp) := by
  simp only [Unreported, List.mem_append, List.mem_singleton, ConnectionEvent.exited.injEq, reduceCtorEq, or_false]
  tauto

theorem OncePerHandler.quiet (once : OncePerHandler history) (calm : Quiet more) : OncePerHandler (history ++ more) where
  oneIp other clientIp otherIp := by
    simp only [List.mem_append, (calm _ _).1, or_false]
    exact once.oneIp other clientIp otherIp
  before other clientIp := by
    simp only [List.mem_append, (calm _ _).1, (calm _ _).2, or_false]
    exact once.before other clientIp

theorem OncePerHandler.admitted (once : OncePerHandler history) (new : some handlerPid ∉ history.map ConnectionEvent.handler)
    (calm : Quiet more) : OncePerHandler (history ++ .admitted handlerPid clientIp :: more) where
  oneIp other one two := by
    have fresh := not_admitted_of_new new
    simp only [List.mem_append, List.mem_cons, ConnectionEvent.admitted.injEq, (calm _ _).1, or_false]
    rintro (first | ⟨rfl, rfl⟩) (second | ⟨same, rfl⟩)
    · exact once.oneIp other one two first second
    · exact absurd (same ▸ first) (fresh one)
    · exact absurd second (fresh two)
    · rfl
  before other otherIp := by
    simp only [List.mem_append, List.mem_cons, (calm _ _).1, (calm _ _).2, or_false, reduceCtorEq]
    exact fun exited => .inl (once.before other otherIp exited)

theorem OncePerHandler.exited (once : OncePerHandler history) (there : Unreported history handlerPid clientIp) :
    OncePerHandler (history ++ [.exited handlerPid clientIp]) where
  oneIp other one two := by
    simp only [List.mem_append, List.mem_singleton, reduceCtorEq, or_false]
    exact once.oneIp other one two
  before other otherIp := by
    simp only [List.mem_append, List.mem_singleton, ConnectionEvent.exited.injEq, reduceCtorEq, or_false]
    rintro (exited | ⟨rfl, rfl⟩)
    · exact once.before other otherIp exited
    · exact there.1

end Histories

section Counts
variable {history more : List (ConnectionEvent Pid)} {handlerPid : Pid} {clientIp : String}

/-- One more handler for an address. -/
theorem handlersFrom_admitted (once : OncePerHandler history) (new : some handlerPid ∉ history.map ConnectionEvent.handler) (quiet : Quiet more)
    (otherIp : String) : (handlersFrom (history ++ .admitted handlerPid clientIp :: more) otherIp).encard =
      (handlersFrom history otherIp).encard + if otherIp = clientIp then 1 else 0 := by
  by_cases same : otherIp = clientIp
  · have one : handlersFrom (history ++ .admitted handlerPid clientIp :: more) otherIp =
        insert handlerPid (handlersFrom history otherIp) := by
      ext other
      simp only [handlersFrom, Set.mem_ofPred_eq, Set.mem_insert_iff, unreported_admitted once new quiet, same, and_true]
      exact or_comm
    have outside : handlerPid ∉ handlersFrom history otherIp := fun there => not_admitted_of_new new otherIp there.1
    rw [one, Set.encard_insert_of_notMem outside, if_pos same]
  · have none : handlersFrom (history ++ .admitted handlerPid clientIp :: more) otherIp = handlersFrom history otherIp := by
      ext other
      simp only [handlersFrom, Set.mem_ofPred_eq, unreported_admitted once new quiet, same, and_false, or_false]
    rw [none, if_neg same, add_zero]

/-- One less. -/
theorem handlersFrom_exited (there : Unreported history handlerPid clientIp) (otherIp : String) :
    (handlersFrom history otherIp).encard =
      (handlersFrom (history ++ [.exited handlerPid clientIp]) otherIp).encard + if otherIp = clientIp then 1 else 0 := by
  by_cases same : otherIp = clientIp
  · subst same
    have one : handlersFrom (history ++ [.exited handlerPid otherIp]) otherIp = handlersFrom history otherIp \ {handlerPid} := by
      ext other
      simp only [handlersFrom, Set.mem_ofPred_eq, Set.mem_sdiff, Set.mem_singleton_iff, unreported_exited, and_true]
    rw [one, if_pos rfl, Set.encard_sdiff_singleton_add_one (show handlerPid ∈ handlersFrom history otherIp from there)]
  · have none : handlersFrom (history ++ [.exited handlerPid clientIp]) otherIp = handlersFrom history otherIp := by
      ext other
      simp only [handlersFrom, Set.mem_ofPred_eq, unreported_exited, same, and_false, not_false_eq_true, and_true]
    rw [none, if_neg same, add_zero]

end Counts

section Steps
variable [DecidableEq Pid] {connections after : Connections Pid} {handlerPid : Pid} {clientIp : String}

/-- A connection is rejected, or there is room for it. -/
theorem rtspConnection_cases (state : ConnectionServer Pid) (peername : Option String) (handlerPid : Pid) :
    state.rtspConnection peername handlerPid = (.rejected (peername.getD "unknown") :: state.spawnAcceptor, state) ∨
      ∃ clientIp, state.activeHandlers.size < maxConcurrentConnections ∧
        (state.perIpConnections.lookup clientIp).getD 0 < maxConnectionsPerIp ∧
        state.rtspConnection peername handlerPid = (.admitted handlerPid clientIp :: state.spawnAcceptor, { state with
          activeHandlers := state.activeHandlers.put handlerPid
          perIpConnections := AList.insert clientIp ((state.perIpConnections.lookup clientIp).getD 0 + 1)
            state.perIpConnections }) := by
  unfold ConnectionServer.rtspConnection
  dsimp only
  split_ifs with full many
  · exact .inl rfl
  · exact .inl rfl
  · refine .inr ⟨_, not_le.mp full, not_le.mp many, ?_⟩
    cases state.perIpConnections.lookup (peername.getD "unknown") <;> rfl

theorem rtspHandlerExit_lookup (state : ConnectionServer Pid) (handlerPid : Pid) (clientIp otherIp : String) :
    (state.rtspHandlerExit handlerPid clientIp).perIpConnections.lookup otherIp =
      if otherIp = clientIp then
        if (state.perIpConnections.lookup clientIp).getD 0 ≤ 1 then none
        else some ((state.perIpConnections.lookup clientIp).getD 0 - 1)
      else state.perIpConnections.lookup otherIp := by
  unfold ConnectionServer.rtspHandlerExit
  dsimp only
  split
  · rw [FiniteMap.lookup_erase_if]
  · rw [FiniteMap.lookup_insert_if]

/-- The counts are right, and the history is as it should be. -/
structure Tallied (connections : Connections Pid) : Prop extends Accounted connections where
  once : OncePerHandler connections.history

omit [DecidableEq Pid] in
theorem tallied_start (listener : Bool) (maxMountpoints maxSubscribersPerMount : Nat) :
    Tallied (.start listener maxMountpoints maxSubscribersPerMount : Connections Pid) := by
  have none (handlerPid : Pid) (clientIp : String) : ¬ Unreported [] handlerPid clientIp := fun both => List.not_mem_nil both.1
  have empty (clientIp : String) : (handlersFrom ([] : List (ConnectionEvent Pid)) clientIp).encard = 0 :=
    Set.encard_eq_zero.mpr (Set.eq_empty_of_forall_notMem fun handlerPid => none handlerPid clientIp)
  exact
    { active := fun handlerPid => iff_of_false (AList.notMem_empty _) fun ⟨clientIp, there⟩ => none handlerPid clientIp there
      perIp := empty
      noZero := nofun
      total := Nat.zero_le _
      each := fun clientIp => (empty clientIp).trans_le zero_le
      once := ⟨nofun, nofun⟩ }

omit [DecidableEq Pid] in
/-- Nothing counts for the handlers in what else happens. -/
theorem Tallied.quiet (tallied : Tallied connections) {more : List (ConnectionEvent Pid)} (calm : Quiet more)
    (active : after.state.activeHandlers = connections.state.activeHandlers)
    (perIp : after.state.perIpConnections = connections.state.perIpConnections)
    (history : after.history = connections.history ++ more) : Tallied after := by
  have same (clientIp : String) : handlersFrom after.history clientIp = handlersFrom connections.history clientIp := by
    ext handlerPid
    rw [handlersFrom, history]
    exact unreported_quiet calm handlerPid clientIp
  exact
    { active := fun handlerPid => by
        simp only [active, history, unreported_quiet calm]
        exact tallied.active handlerPid
      perIp := fun clientIp => by rw [same, perIp]; exact tallied.perIp clientIp
      noZero := fun clientIp => by rw [perIp]; exact tallied.noZero clientIp
      total := by rw [active]; exact tallied.total
      each := fun clientIp => by rw [same]; exact tallied.each clientIp
      once := history ▸ tallied.once.quiet calm }

theorem Tallied.admitted (tallied : Tallied connections) {more : List (ConnectionEvent Pid)} (calm : Quiet more)
    (new : some handlerPid ∉ connections.history.map ConnectionEvent.handler)
    (room : connections.state.activeHandlers.size < maxConcurrentConnections)
    (few : (connections.state.perIpConnections.lookup clientIp).getD 0 < maxConnectionsPerIp) :
    Tallied ⟨{ connections.state with
      activeHandlers := connections.state.activeHandlers.put handlerPid
      perIpConnections := AList.insert clientIp ((connections.state.perIpConnections.lookup clientIp).getD 0 + 1)
        connections.state.perIpConnections }, connections.history ++ .admitted handlerPid clientIp :: more⟩ := by
  have counted (otherIp : String) :
      (handlersFrom (connections.history ++ .admitted handlerPid clientIp :: more) otherIp).encard =
        ((connections.state.perIpConnections.lookup otherIp).getD 0 + if otherIp = clientIp then 1 else 0 : Nat) := by
    rw [handlersFrom_admitted tallied.once new calm, tallied.perIp]
    split <;> norm_cast
  exact
    { active := fun other => by
        simp only [MapSet.mem_put, tallied.active, unreported_admitted tallied.once new calm, exists_or]
        simp [or_comm]
      perIp := fun otherIp => by
        rw [counted, FiniteMap.lookup_insert_if]
        split
        next same => rw [same, Option.getD_some]
        next => rw [Nat.add_zero]
      noZero := fun otherIp => by
        rw [FiniteMap.lookup_insert_if]
        split
        · simp
        · exact tallied.noZero otherIp
      total := (FiniteMap.size_insert_le _ _ _).trans room
      each := fun otherIp => by
        have before := tallied.each otherIp
        rw [tallied.perIp] at before
        rw [counted]
        norm_cast at before ⊢
        split
        next same => rw [same]; exact few
        next => exact before
      once := tallied.once.admitted new calm }

theorem Tallied.exited (tallied : Tallied connections) (there : Unreported connections.history handlerPid clientIp) :
    Tallied ⟨connections.state.rtspHandlerExit handlerPid clientIp, connections.history ++ [.exited handlerPid clientIp]⟩ := by
  have counted (otherIp : String) : ∃ left : Nat,
      (handlersFrom (connections.history ++ [.exited handlerPid clientIp]) otherIp).encard = left ∧
        (connections.state.perIpConnections.lookup otherIp).getD 0 = left + if otherIp = clientIp then 1 else 0 := by
    have before := handlersFrom_exited there otherIp
    rw [tallied.perIp] at before
    obtain ⟨left, leftEq⟩ : ∃ left : Nat, (left : ℕ∞) =
        (handlersFrom (connections.history ++ [.exited handlerPid clientIp]) otherIp).encard :=
      ENat.ne_top_iff_exists.mp fun top => by
        rw [top, top_add] at before
        exact ENat.natCast_ne_top _ before
    rw [← leftEq] at before
    refine ⟨left, leftEq.symm, ?_⟩
    split_ifs at before ⊢ <;> exact_mod_cast before
  exact
    { active := fun other => by
        simp only [ConnectionServer.rtspHandlerExit, MapSet.mem_delete, tallied.active, unreported_exited]
        constructor
        · rintro ⟨different, otherIp, running⟩
          exact ⟨otherIp, running, fun same => different same.1⟩
        · rintro ⟨otherIp, running, different⟩
          refine ⟨?_, otherIp, running⟩
          rintro rfl
          exact different ⟨rfl, tallied.once.oneIp _ _ _ running.1 there.1⟩
      perIp := fun otherIp => by
        obtain ⟨left, leftEq, before⟩ := counted otherIp
        rw [leftEq, rtspHandlerExit_lookup]
        split_ifs at before ⊢ with same last
        · subst same
          rw [Option.getD_none]
          exact congrArg Nat.cast (by omega)
        · subst same
          rw [Option.getD_some]
          exact congrArg Nat.cast (by omega)
        · exact congrArg Nat.cast before.symm
      noZero := fun otherIp => by
        rw [rtspHandlerExit_lookup]
        split_ifs with same last
        · exact Option.some_ne_none 0 |>.symm
        · rw [ne_eq, Option.some.injEq]
          omega
        · exact tallied.noZero otherIp
      total := (FiniteMap.size_erase_le _ _).trans tallied.total
      each := fun otherIp => by
        obtain ⟨left, leftEq, before⟩ := counted otherIp
        have bound := tallied.each otherIp
        rw [tallied.perIp, before] at bound
        rw [leftEq]
        norm_cast at bound ⊢
        omega
      once := tallied.once.exited there }

theorem Tallied.next {label : ConnectionLabel Pid} (tallied : Tallied connections) (taken : connections.next label = some after) :
    Tallied after := by
  cases label with
  | connection peername handlerPid =>
    rw [Connections.next] at taken
    split at taken
    · cases taken
    next new =>
      have calm := quiet_spawnAcceptor connections.state
      rcases rtspConnection_cases connections.state peername handlerPid with rejects | ⟨clientIp, room, few, admits⟩
      · rw [rejects] at taken
        cases taken
        refine tallied.quiet (fun handlerPid clientIp => ?_) rfl rfl rfl
        simp [calm handlerPid clientIp]
      · rw [admits] at taken
        cases taken
        exact tallied.admitted calm new room few
  | handlerExit handlerPid clientIp =>
    rw [Connections.next] at taken
    split at taken
    next there => cases taken; exact tallied.exited there
    next => cases taken
  | request request =>
    obtain ⟨⟨_, _, rtsp⟩, _, done⟩ := Option.bind_eq_some_iff.mp taken
    cases done
    have nothing : Quiet ([] : List (ConnectionEvent Pid)) := fun _ _ => ⟨List.not_mem_nil, List.not_mem_nil⟩
    exact tallied.quiet nothing rfl rfl (List.append_nil _).symm

/-- Over any run, the two counts are those of the admitted handlers whose exits have not been reported, and a connection that
is rejected changes neither. -/
theorem connections_accounted {listener : Bool} {maxMountpoints maxSubscribersPerMount : Nat}
    {labels : List (ConnectionLabel Pid)} {last : Connections Pid}
    (run : Run (fun before label after => before.next label = some after)
      (.start listener maxMountpoints maxSubscribersPerMount) labels last) :
    Accounted last ∧ ∀ peername handlerPid events after, last.state.rtspConnection peername handlerPid = (events, after) →
      (∃ clientIp, .rejected clientIp ∈ events) →
        after.activeHandlers = last.state.activeHandlers ∧ after.perIpConnections = last.state.perIpConnections := by
  have tallied : Tallied last := run.invariant (tallied_start _ _ _) Tallied.next
  refine ⟨tallied.toAccounted, fun peername handlerPid events after handled rejected => ?_⟩
  rcases rtspConnection_cases last.state peername handlerPid with rejects | ⟨clientIp, _, _, admits⟩
  · cases handled.symm.trans rejects
    exact ⟨rfl, rfl⟩
  · cases handled.symm.trans admits
    obtain ⟨otherIp, member⟩ := rejected
    rcases List.mem_cons.mp member with ⟨⟨⟩⟩ | later
    unfold ConnectionServer.spawnAcceptor at later
    split at later <;> simp at later

/-- A connection is served and then left. -/
theorem connection_served : Accounted (⟨⟨.init 500 5000, true, ∅, ∅⟩,
    [.admitted 1 "10.0.0.1", .accepting, .exited 1 "10.0.0.1"]⟩ : Connections Nat) := by
  have run : Run (fun before label after => Connections.next before label = some after) (Connections.start true 500 5000)
      [.connection (some "10.0.0.1") 1, .handlerExit 1 "10.0.0.1"]
      ⟨⟨.init 500 5000, true, ∅, ∅⟩, [.admitted 1 "10.0.0.1", .accepting, .exited 1 "10.0.0.1"]⟩ := play_run rfl
  exact (connections_accounted run).1

end Steps
end Burble.Transport
