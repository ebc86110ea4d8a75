import Burble.Bridges.AiBridge

namespace Burble.Bridges.Ai

/-- No upgrade is asked for while the runtime has yet to open a socket. -/
def OpensFirst (s : Bridge) (served : Served) : Prop :=
  match served.event with
  | .upgrade _ _ _ => ∀ id socket, s.sockets.lookup id = some socket → socket.readyState ≠ .connecting
  | _ => True

/-- A socket that has yet to be opened is connecting and has not been sent a ping. -/
def Socket.Waits (socket : Socket) : Prop :=
  socket.native = .pending → socket.readyState = .connecting ∧ socket.pongTimer = none

/-- A socket that is not closed is the client. -/
structure OneClient (s : Bridge) : Prop where
  waits : ∀ {id : Nat} {socket : Socket}, s.sockets.lookup id = some socket → socket.Waits
  current : ∀ {id : Nat} {socket : Socket}, s.sockets.lookup id = some socket → socket.readyState ≠ .closed →
    s.wsClient = some id

namespace Socket

@[simp] theorem startHeartbeat_readyState (now : Nat) (socket : Socket) :
    (socket.startHeartbeat now).readyState = socket.readyState := by
  rw [startHeartbeat]
  split <;> rfl

@[simp] theorem startHeartbeat_native (now : Nat) (socket : Socket) :
    (socket.startHeartbeat now).native = socket.native := by
  rw [startHeartbeat]
  split <;> rfl

end Socket

section
variable {config : Config} {s after : Bridge} {one : Served}

theorem mem_openClient {id : Nat} : s.openClient = some id ↔
    s.wsClient = some id ∧ ∃ socket, s.sockets.lookup id = some socket ∧ socket.readyState = .«open» := by
  rw [Bridge.openClient, Option.filter_eq_some_iff, Option.any_eq_true]
  simp only [decide_eq_true_eq]

theorem http_cases (config : Config) (s : Bridge) (request : Request) (body sendError : Option String) :
    (s.http config request body sendError).2.sockets = s.sockets ∧
      (s.http config request body sendError).2.wsClient = s.wsClient ∧
      (s.http config request body sendError).2.now = s.now := by
  rw [Bridge.http]
  split
  · exact ⟨rfl, rfl, rfl⟩
  · split_ifs <;> exact ⟨rfl, rfl, rfl⟩

/-- What holds of the other sockets and of the changed one holds of all. -/
theorem forall_setSocket {P : Nat → Socket → Prop} {id : Nat} {socket : Socket} (changed : P id socket)
    (others : ∀ other found, other ≠ id → s.sockets.lookup other = some found → P other found) {other : Nat}
    {found : Socket} (there : (s.setSocket id socket).sockets.lookup other = some found) : P other found := by
  rw [Bridge.setSocket_lookup] at there
  split at there
  next same =>
    cases there
    exact same ▸ changed
  next different => exact others other found different there

namespace OneClient

theorem init : OneClient Bridge.init where
  waits found := by cases found
  current found := by cases found

theorem setSocket (only : OneClient s) {id : Nat} {socket : Socket} (waits : socket.Waits)
    (current : socket.readyState ≠ .closed → s.wsClient = some id) : OneClient (s.setSocket id socket) where
  waits := forall_setSocket (P := fun _ => Socket.Waits) waits fun _ _ _ => only.waits
  current := forall_setSocket (P := fun id socket => socket.readyState ≠ .closed → s.wsClient = some id) current
    fun _ _ _ => only.current

theorem retimed (only : OneClient s) {id : Nat} {socket changed : Socket} (found : s.sockets.lookup id = some socket)
    (waits : changed.Waits) (state : changed.readyState = socket.readyState) : OneClient (s.setSocket id changed) :=
  only.setSocket waits fun notClosed => only.current found (state ▸ notClosed)

/-- A socket is not waiting any more once it is open. -/
theorem not_pending (only : OneClient s) {id : Nat} {socket : Socket} (found : s.sockets.lookup id = some socket)
    (isOpen : socket.readyState = .«open») : socket.native ≠ .pending := by
  intro pending
  rw [(only.waits found pending).1] at isOpen
  cases isOpen

/-- A new client comes when all the others are closed. -/
theorem upgraded (only : OneClient s) {id : Nat} {socket : Socket} (waits : socket.Waits)
    (opens : ∀ other found, s.sockets.lookup other = some found → found.readyState ≠ .connecting)
    (alone : s.openClient = none) : OneClient { s.setSocket id socket with wsClient := some id } where
  waits := forall_setSocket (P := fun _ => Socket.Waits) waits fun _ _ _ => only.waits
  current := by
    refine forall_setSocket (P := fun other socket => socket.readyState ≠ .closed → some id = some other) (fun _ => rfl)
      fun other found _ there notClosed => ?_
    cases state : found.readyState with
    | connecting => exact absurd state (opens other found there)
    | «open» =>
      rw [mem_openClient.mpr ⟨only.current there notClosed, found, there, state⟩] at alone
      cases alone
    | closed => exact absurd state notClosed

theorem onclose (only : OneClient s) (id : Nat) (socket : Socket) : OneClient (s.onclose id socket) where
  waits := forall_setSocket (P := fun _ => Socket.Waits) (fun pending => by cases pending) fun _ _ _ => only.waits
  current := by
    refine forall_setSocket (P := fun other socket => socket.readyState ≠ .closed →
      (if s.wsClient = some id then none else s.wsClient) = some other) (fun notClosed => absurd rfl notClosed)
      fun other found different there notClosed => ?_
    have client := only.current there notClosed
    rw [if_neg (by rw [client]; exact fun same => different (Option.some.inj same)), client]

theorem serves (only : OneClient s) (opens : OpensFirst s one) (taken : Serves config s one after) : OneClient after := by
  cases taken.happens with
  | tick elapsed => exact ⟨only.waits, only.current⟩
  | http request body sendError =>
    obtain ⟨sockets, wsClient, _⟩ := http_cases config s request body sendError
    exact ⟨fun found => only.waits (sockets ▸ found), fun found => wsClient ▸ only.current (sockets ▸ found)⟩
  | refused _ _ _ => exact only
  | @upgraded id request absent gate alone => exact only.upgraded (fun _ => ⟨rfl, rfl⟩) opens alone
  | @opened id socket found pending =>
    refine only.setSocket (fun again => ?_) fun _ => only.current found ?_
    · rw [Socket.startHeartbeat_native] at again
      cases again
    · rw [(only.waits found pending).1]
      decide
  | @message id socket text found live =>
    rw [Bridge.onmessage]
    split
    · exact only.retimed found (fun pending => ⟨(only.waits found pending).1, rfl⟩) rfl
    next payload _ =>
      obtain ⟨_, wsClient, sockets⟩ := s.enqueue_others payload
      exact ⟨fun found => only.waits (sockets ▸ found), fun found => wsClient ▸ only.current (sockets ▸ found)⟩
    · exact only
  | @closed id socket found there => exact only.onclose id socket
  | @pinged id socket due found _ _ isOpen =>
    have opened := only.not_pending found isOpen
    exact only.retimed found (fun pending => absurd pending opened) rfl
  | @unsent id socket due found _ _ isOpen =>
    have opened := only.not_pending found isOpen
    exact only.retimed found (fun pending => absurd pending opened) rfl
  | @idle id socket due throws found _ _ _ =>
    have waits := only.waits found
    exact only.retimed found (fun pending => waits pending) rfl
  | @pongTimeout id socket timer found waiting _ _ =>
    refine only.setSocket (fun pending => ?_) fun notClosed => absurd rfl notClosed
    rw [(only.waits found pending).2] at waiting
    cases waiting

end OneClient

/-- The close of another socket leaves the open client as it is. -/
theorem onclose_openClient {id : Nat} (socket : Socket) (other : s.openClient ≠ some id) :
    (s.onclose id socket).openClient = s.openClient := by
  refine Option.ext fun client => ?_
  rw [mem_openClient, mem_openClient]
  by_cases same : client = id
  · subst same
    refine iff_of_false (fun back => ?_) fun back => other (mem_openClient.mpr back)
    obtain ⟨_, found, there, isOpen⟩ := back
    rw [show (s.onclose client socket).sockets.lookup client = _ from Bridge.setSocket_lookup s client client _,
      if_pos rfl] at there
    cases there
    cases isOpen
  · rw [show (s.onclose id socket).sockets.lookup client = _ from Bridge.setSocket_lookup s id client _, if_neg same]
    refine and_congr_left fun _ => ?_
    rw [Bridge.onclose]
    split
    next closed =>
      rw [closed]
      exact iff_of_false (fun none => by cases none) fun back => same (Option.some.inj back).symm
    next => rfl

theorem upgrade_refused_iff {id : Nat} {request : Request} {accepted : Bool} (gate : config.upgradeGate request = none) :
    (s.upgrade config id request accepted).1 = .of (.text 409 "bridge already has an active client") ↔
      ∃ other, s.openClient = some other := by
  rw [Bridge.upgrade, gate]
  cases s.openClient with
  | some other => exact iff_of_true rfl ⟨other, rfl⟩
  | none =>
    refine iff_of_false (fun back => ?_) (by simp)
    cases accepted <;> cases back

/-- Where the runtime opens each socket before the next upgrade, a socket that is not closed is the client, so that
there is one at most; a page is turned away exactly when there is an open one, and the close of an older socket
leaves it connected. -/
theorem one_client {served : List Served}
    (run : Run (Guarded OpensFirst (Serves config)) Bridge.init served s) :
    (∀ id socket, s.sockets.lookup id = some socket → socket.readyState ≠ .closed → s.wsClient = some id) ∧
      (∀ id request accepted reply after, Serves config s ⟨.upgrade id request accepted, reply⟩ after →
        config.upgradeGate request = none → (reply = .of (.text 409 "bridge already has an active client") ↔
          ∃ other socket, s.sockets.lookup other = some socket ∧ socket.readyState = .«open»)) ∧
      ∀ id reply after, Serves config s ⟨.closed id, reply⟩ after → s.openClient ≠ some id →
        after.openClient = s.openClient := by
  have only : OneClient s := run.invariant .init fun only taken => only.serves taken.1 taken.2
  refine ⟨fun id socket => only.current, ?_, ?_⟩
  · intro id request accepted reply after taken gate
    have replied : reply = (s.upgrade config id request accepted).1 := by
      cases taken.happens with
      | refused => rfl
      | upgraded absent gate alone => rw [Bridge.upgrade, gate, alone]; rfl
    rw [replied, upgrade_refused_iff gate]
    refine exists_congr fun other => ⟨fun client => (mem_openClient.mp client).2, fun client => ?_⟩
    obtain ⟨socket, there, isOpen⟩ := client
    exact mem_openClient.mpr ⟨only.current there (by rw [isOpen]; decide), socket, there, isOpen⟩
  · intro id reply after taken other
    cases taken.happens with
    | closed found there => exact onclose_openClient _ other

end

/-- A page that has connected. -/
theorem one_page : ∃ s : Bridge, s.openClient = some 0 ∧
    (∀ id socket, s.sockets.lookup id = some socket → socket.readyState ≠ .closed → s.wsClient = some id) ∧
      (∀ id request accepted reply after, Serves .plain s ⟨.upgrade id request accepted, reply⟩ after →
        Config.plain.upgradeGate request = none → (reply = .of (.text 409 "bridge already has an active client") ↔
          ∃ other socket, s.sockets.lookup other = some socket ∧ socket.readyState = .«open»)) ∧
      ∀ id reply after, Serves .plain s ⟨.closed id, reply⟩ after → s.openClient ≠ some id →
        after.openClient = s.openClient :=
  ⟨_, rfl, one_client ((Run.start.next (show Guarded OpensFirst (Serves .plain) .init ⟨.upgrade 0 .page true, .of .upgraded⟩ _
    from ⟨(fun _ _ found => by cases found), rfl⟩)).next
    (show Guarded OpensFirst (Serves .plain) _ ⟨.opened 0, .none⟩ _ from ⟨trivial, rfl⟩))⟩

/-- Steps with the time of each. -/
def ServesAt (config : Config) (s : Bridge) (label : Nat × Served) (after : Bridge) : Prop :=
  label.1 = s.now ∧ Serves config s label.2 after

/-- No timer of a socket is due before then. -/
def Socket.NothingDue (before : Nat) (socket : Socket) : Prop :=
  (∀ due, socket.heartbeatTimer = some due → before ≤ due) ∧
    ∀ timer, socket.pongTimer = some timer → timer.fired = false → before ≤ timer.due

/-- Timers fire when they are due, and a ping can be sent. -/
def OnTime (s : Bridge) (label : Nat × Served) : Prop :=
  match label.2.event with
  | .tick elapsed => ∀ id socket, s.sockets.lookup id = some socket → socket.NothingDue (s.now + elapsed)
  | .heartbeat _ throws => throws = false
  | _ => True

/-- A socket is opened or answers a ping. -/
def Hears (config : Config) (id : Nat) (served : Served) : Prop :=
  match served.event with
  | .opened other => other = id
  | .message other text => other = id ∧ config.incoming text = .pong
  | _ => False

/-- A socket that was last heard of at a time: the next ping comes soon enough, or one waits to be answered. -/
inductive Socket.Probed (now time : Nat) (socket : Socket) : Prop
  | quiet {due : Nat} (noTimer : socket.pongTimer = none) (interval : socket.heartbeatTimer = some due)
    (soon : due ≤ time + heartbeatIntervalMs)
  | waiting {due : Nat} {timer : PongTimer} (set : socket.pongTimer = some timer) (pending : timer.fired = false)
    (interval : socket.heartbeatTimer = some due) (ahead : now ≤ timer.due)
    (soon : timer.due ≤ time + heartbeatIntervalMs + heartbeatTimeoutMs)
    (first : timer.due + heartbeatIntervalMs ≤ due + heartbeatTimeoutMs)

/-- What holds of a socket after the steps of a log. -/
structure Attended (config : Config) (now : Nat) (log : List (Nat × Served)) (id : Nat) (socket : Socket) : Prop where
  waits : socket.Waits
  gone : socket.native = .gone → socket.readyState = .closed
  beats : socket.native ≠ .gone →
    ∃ due, socket.heartbeatTimer = some due ∧ now ≤ due ∧ due ≤ now + heartbeatIntervalMs
  heard : socket.readyState = .«open» → ∃ time served, (time, served) ∈ log ∧ Hears config id served ∧
    socket.Probed now time

namespace Attended
variable {config : Config} {now id : Nat} {log : List (Nat × Served)} {socket : Socket} {label : Nat × Served}

theorem later (attended : Attended config now log id socket) : Attended config now (log ++ [label]) id socket where
  waits := attended.waits
  gone := attended.gone
  beats := attended.beats
  heard isOpen := by
    obtain ⟨time, served, member, hears, probed⟩ := attended.heard isOpen
    exact ⟨time, served, List.mem_append_left _ member, hears, probed⟩

theorem tick (attended : Attended config now log id socket) {elapsed : Nat}
    (nothing : socket.NothingDue (now + elapsed)) : Attended config (now + elapsed) log id socket where
  waits := attended.waits
  gone := attended.gone
  beats there := by
    obtain ⟨due, interval, _, bound⟩ := attended.beats there
    exact ⟨due, interval, nothing.1 due interval, by omega⟩
  heard isOpen := by
    obtain ⟨time, served, member, hears, probed⟩ := attended.heard isOpen
    refine ⟨time, served, member, hears, ?_⟩
    cases probed with
    | quiet noTimer interval soon => exact .quiet noTimer interval soon
    | waiting set pending interval ahead soon first =>
      exact .waiting set pending interval (nothing.2 _ set pending) soon first

end Attended

section
variable {config : Config} {s after : Bridge} {log : List (Nat × Served)} {label : Nat × Served}

theorem hears_last {id : Nat} (hears : Hears config id label.2) (socket : Socket) (now : label.1 = s.now)
    (probed : socket.Probed s.now s.now) :
    ∃ time served, (time, served) ∈ log ++ [label] ∧ Hears config id served ∧ socket.Probed s.now time :=
  ⟨label.1, label.2, List.mem_append_right log List.mem_cons_self, hears, now ▸ probed⟩

/-- Every socket is attended to. -/
def AllAttended (config : Config) (log : List (Nat × Served)) (s : Bridge) : Prop :=
  ∀ id socket, s.sockets.lookup id = some socket → Attended config s.now log id socket

/-- The interval of an open socket is due now or later. -/
theorem Attended.interval {now id due : Nat} {socket : Socket} (attended : Attended config now log id socket)
    (isOpen : socket.readyState = .«open») (interval : socket.heartbeatTimer = some due) : now ≤ due := by
  have there : socket.native ≠ .gone := fun gone => by
    rw [attended.gone gone] at isOpen
    cases isOpen
  obtain ⟨_, again, ahead, _⟩ := attended.beats there
  cases interval.symm.trans again
  exact ahead

namespace AllAttended

theorem setSocket (all : AllAttended config log s) {id : Nat} {socket : Socket}
    (changed : Attended config s.now (log ++ [label]) id socket) :
    AllAttended config (log ++ [label]) (s.setSocket id socket) := fun _ _ =>
  forall_setSocket (P := Attended config s.now (log ++ [label])) changed
    fun other found _ there => (all other found there).later

theorem opened (all : AllAttended config log s) {id : Nat} {socket : Socket} (found : s.sockets.lookup id = some socket)
    (pending : socket.native = .pending) (now : label.1 = s.now) (hears : Hears config id label.2) :
    AllAttended config (log ++ [label])
      (s.setSocket id (({ socket with readyState := .«open», native := .live } : Socket).startHeartbeat s.now)) := by
  have attended := all id socket found
  obtain ⟨due, interval, ahead, bound⟩ := attended.beats (by rw [pending]; decide)
  have started : ({ socket with readyState := .«open», native := .live } : Socket).startHeartbeat s.now =
      { socket with readyState := .«open», native := .live } := by
    rw [Socket.startHeartbeat]
    simp only [interval]
  rw [started]
  refine all.setSocket ⟨(fun again => by cases again), (fun again => by cases again),
    fun _ => ⟨due, interval, ahead, bound⟩, fun _ => hears_last hears _ now ?_⟩
  exact .quiet (attended.waits pending).2 interval bound

theorem ponged (all : AllAttended config log s) {id : Nat} {socket : Socket} (found : s.sockets.lookup id = some socket)
    (live : socket.native = .live) (now : label.1 = s.now) (hears : Hears config id label.2) :
    AllAttended config (log ++ [label]) (s.setSocket id { socket with pongTimer := none }) := by
  have attended := all id socket found
  obtain ⟨due, interval, ahead, bound⟩ := attended.beats (by rw [live]; decide)
  exact all.setSocket ⟨fun pending => ⟨(attended.waits pending).1, rfl⟩, attended.gone,
    fun _ => ⟨due, interval, ahead, bound⟩, fun _ => hears_last hears _ now (.quiet rfl interval bound)⟩

/-- A ping is sent when the last one has been answered, or the socket is closed by now. -/
theorem pinged (all : AllAttended config log s) {id due : Nat} {socket : Socket}
    (found : s.sockets.lookup id = some socket) (interval : socket.heartbeatTimer = some due) (passed : due ≤ s.now)
    (isOpen : socket.readyState = .«open») :
    AllAttended config (log ++ [label]) (s.setSocket id { socket with
      heartbeatTimer := some (s.now + heartbeatIntervalMs)
      pongTimer := some ⟨s.now + heartbeatTimeoutMs, false⟩ }) := by
  have attended := all id socket found
  have ahead := attended.interval isOpen interval
  refine all.setSocket ⟨fun pending => ?_, attended.gone, fun _ => ⟨_, rfl, by omega, le_rfl⟩, fun _ => ?_⟩
  · rw [(attended.waits pending).1] at isOpen
    cases isOpen
  · obtain ⟨time, served, member, hears, probed⟩ := attended.heard isOpen
    refine ⟨time, served, List.mem_append_left _ member, hears, ?_⟩
    cases probed with
    | quiet noTimer again soon =>
      cases interval.symm.trans again
      exact .waiting rfl rfl rfl (Nat.le_add_right _ _) (by simp only; omega) (by simp only; omega)
    | waiting set pending again ahead soon first =>
      cases interval.symm.trans again
      simp only [heartbeatIntervalMs, heartbeatTimeoutMs] at first
      omega

theorem serves (all : AllAttended config log s) (onTime : OnTime s label) (taken : ServesAt config s label after) :
    AllAttended config (log ++ [label]) after := by
  obtain ⟨time, one⟩ := label
  obtain ⟨now, taken⟩ := taken
  cases taken.happens with
  | tick elapsed => exact fun id socket found => ((all id socket found).tick (onTime id socket found)).later
  | http request body sendError =>
    obtain ⟨sockets, _, now⟩ := http_cases config s request body sendError
    intro id socket found
    rw [now]
    exact (all id socket (sockets ▸ found)).later
  | refused _ _ _ => exact fun id socket found => (all id socket found).later
  | @upgraded id request absent gate alone =>
    refine all.setSocket (?_ : Attended config s.now _ id ⟨.connecting, .pending, some (s.now + heartbeatIntervalMs), none⟩)
    exact ⟨fun _ => ⟨rfl, rfl⟩, (fun gone => by cases gone), fun _ => ⟨_, rfl, by omega, le_rfl⟩,
      fun isOpen => by cases isOpen⟩
  | opened found pending => exact all.opened found pending now rfl
  | @message id socket text found live =>
    rw [Bridge.onmessage]
    cases incoming : config.incoming text with
    | pong => exact all.ponged found live now ⟨rfl, incoming⟩
    | received payload =>
      obtain ⟨now, _, sockets⟩ := s.enqueue_others payload
      intro id socket found
      simp only [now, sockets] at found ⊢
      exact (all id socket found).later
    | ignored => exact fun id socket found => (all id socket found).later
  | @closed id socket found there =>
    refine all.setSocket
      (?_ : Attended config s.now _ id { socket.stopHeartbeat with readyState := .closed, native := .gone })
    exact ⟨(fun pending => by cases pending), fun _ => rfl, fun there => absurd rfl there, fun isOpen => by cases isOpen⟩
  | pinged found interval passed isOpen => exact all.pinged found interval passed isOpen
  | unsent => cases onTime
  | @idle id socket due throws found interval passed notOpen =>
    have attended := all id socket found
    exact all.setSocket ⟨attended.waits, attended.gone, fun _ => ⟨_, rfl, by omega, le_rfl⟩, fun isOpen => absurd isOpen notOpen⟩
  | @pongTimeout id socket timer found waiting passed first =>
    have attended := all id socket found
    refine all.setSocket ⟨fun pending => ?_, fun _ => rfl, attended.beats, fun isOpen => by cases isOpen⟩
    rw [(attended.waits pending).2] at waiting
    cases waiting

end AllAttended

/-- Where timers fire on time and pings can be sent, every open client has been opened or has answered a ping in
the last 20 seconds. -/
theorem silent_clients_dropped (run : Run (Guarded OnTime (ServesAt config)) Bridge.init log s) {id : Nat}
    {socket : Socket} (found : s.sockets.lookup id = some socket) (isOpen : socket.readyState = .«open») :
    ∃ time served, (time, served) ∈ log ∧ Hears config id served ∧ s.now ≤ time + 20000 := by
  have all : AllAttended config log s := by
    clear found
    induction run with
    | start => exact fun id socket found => by cases found
    | next _ taken ih => exact ih.serves taken.1 taken.2
  obtain ⟨time, served, member, hears, probed⟩ := (all id socket found).heard isOpen
  refine ⟨time, served, member, hears, ?_⟩
  cases probed with
  | quiet noTimer interval soon =>
    have ahead := (all id socket found).interval isOpen interval
    simp only [heartbeatIntervalMs] at soon
    omega
  | waiting set pending interval ahead soon first =>
    simp only [heartbeatIntervalMs, heartbeatTimeoutMs] at soon
    omega

end

/-- A page that has connected. -/
theorem page_heard : ∃ (log : List (Nat × Served)) (s : Bridge) (socket : Socket),
    (s.sockets.lookup 0 = some socket ∧ socket.readyState = .«open») ∧
      ∃ time served, (time, served) ∈ log ∧ Hears .plain 0 served ∧ s.now ≤ time + 20000 :=
  ⟨_, _, _, ⟨rfl, rfl⟩, silent_clients_dropped ((Run.start.next
    (show Guarded OnTime (ServesAt .plain) .init (0, ⟨.upgrade 0 .page true, .of .upgraded⟩) _ from
      ⟨trivial, rfl, rfl⟩)).next
    (show Guarded OnTime (ServesAt .plain) _ (0, ⟨.opened 0, .none⟩) _ from ⟨trivial, rfl, rfl⟩)) rfl rfl⟩

end Burble.Bridges.Ai
