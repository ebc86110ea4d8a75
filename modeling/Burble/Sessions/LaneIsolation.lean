import Burble.Sessions.GameLane
import Burble.Sessions.LeaseAuthority

namespace Burble.Sessions
variable {Pid Digest : Type}

def exchanges (served : List (Served Pid)) : List (Exchange Pid) := served.map Served.exchange

namespace Served

/-- What is pushed to the client of a process, under the process's lease: the effect was run. -/
def pushed (s : Served Pid) : Option (Pid × Lease × String × JsonMap) :=
  match s.asked, s.exchange.reply with
  | .relay .., .error _ => none
  | .relay pid lease _ (.push event payload), _ => some (pid, lease, event, payload)
  | _, _ => none

/-- A process broadcasts an event to the other channels of a topic, stamped with an epoch. -/
def Broadcasts (s : Served Pid) (pid : Pid) (lease : Lease) (event epoch : String) (payload : JsonMap) : Prop :=
  ∃ topic seq, s.asked = .relay pid lease seq (.broadcast topic event (.stamped epoch payload)) ∧ s.exchange.reply = .ok

/-- The sequence argument of a command that is accepted for relay from a seat. -/
def command (seat : String × String × String) (s : Served Pid) : Option Sequence :=
  match s.asked, s.exchange.reply with
  | .relay _ lease seq (.broadcast _ event _), .ok => if event = "command" ∧ lease.seat = seat then some seq else none
  | _, _ => none

end Served

theorem pushed_cases {s : Served Pid} {pid : Pid} {lease : Lease} {event : String} {payload : JsonMap}
    (pushed : s.pushed = some (pid, lease, event, payload)) :
    ∃ seq, s.asked = .relay pid lease seq (.push event payload) ∧ ∀ reason, s.exchange.reply ≠ .error reason := by
  obtain ⟨⟨clock, request, monitor, reply⟩, asked⟩ := s
  cases asked with
  | request => cases pushed
  | relay holder held seq effect =>
    cases effect with
    | broadcast => cases reply <;> cases pushed
    | alive => cases reply <;> cases pushed
    | push =>
      cases reply
      case error => cases pushed
      all_goals
        cases pushed
        exact ⟨seq, rfl, by simp⟩

/-- The sequence arguments of the commands accepted for relay from a seat, in order. -/
def commands (seat : String × String × String) (served : List (Served Pid)) : List Sequence :=
  served.filterMap (Served.command seat)

/-- A payload was broadcast, stamped with an epoch, while its sender held a current lease of that epoch. -/
def Relayed (served : List (Served Pid)) (event epoch : String) (payload : JsonMap) : Prop :=
  ∃ past s later, served = past ++ s :: later ∧ ∃ sender lease, s.Broadcasts sender lease event epoch payload ∧
    lease.epoch = epoch ∧ Authorised (exchanges past) s.exchange.clock sender lease

theorem Relayed.snoc {served : List (Served Pid)} {event epoch : String} {payload : JsonMap}
    (relayed : Relayed served event epoch payload) (s : Served Pid) : Relayed (served ++ [s]) event epoch payload := by
  obtain ⟨past, first, later, rfl, broadcast⟩ := relayed
  exact ⟨past, first, later ++ [s], by simp, broadcast⟩

/-- What a channel may ask the authority to run under its lease. -/
def Permitted (served : List (Served Pid)) (lease : Lease) (seq : Sequence) : Effect → Prop
  | .broadcast _ event message =>
    (∃ payload, message = .stamped lease.epoch payload) ∧ (event = "command" → seq ≠ .unsequenced)
  | .push event payload => Relayed served event lease.epoch payload
  | .alive => True

theorem Permitted.snoc {served : List (Served Pid)} {lease : Lease} {seq : Sequence} {effect : Effect}
    (permitted : Permitted served lease seq effect) (s : Served Pid) : Permitted (served ++ [s]) lease seq effect := by
  cases effect with
  | broadcast => exact permitted
  | push => exact Relayed.snoc permitted s
  | alive => exact permitted

/-- What waits in the mailboxes was broadcast as it should be, and what is asked for is permitted. -/
structure LaneSound (served : List (Served Pid)) (lane : Lane Pid Digest) : Prop where
  mailboxes {pid : Pid} {channel : Channel} {event epoch : String} {payload : JsonMap} :
    lane.channels pid = some channel → .broadcast event (.stamped epoch payload) ∈ channel.mailbox →
    Relayed served event epoch payload
  calls {call : Call Pid} {pid : Pid} {lease : Lease} {seq : Sequence} {effect : Effect} :
    call ∈ lane.calls → call.asked = .relay pid lease seq effect → Permitted served lease seq effect

section Turns
variable {served : List (Served Pid)} {socket : GameSocket}

/-- The effect that a turn asks for, if any, is permitted. -/
def Turn.Permitted (served : List (Served Pid)) (socket : GameSocket) : Turn → Prop
  | .guarded seq effect _ => Sessions.Permitted served socket.lease seq effect
  | _ => True

theorem terminate_permitted : socket.terminate.Permitted served socket :=
  ⟨⟨_, rfl⟩, by decide⟩

theorem sequenceOf_sequenced (value : Json) : sequenceOf value ≠ .unsequenced := by
  cases value <;> simp [sequenceOf]

theorem handleCommand_permitted (encodedSize : JsonMap → Option Nat) (payload : JsonMap) :
    (GameSocket.refused (socket.handleCommand encodedSize payload)).Permitted served socket := by
  unfold GameSocket.handleCommand
  cases commandTag payload socket.profile with
  | error => trivial
  | ok tag =>
    cases allowed : socket.authorize tag with
    | error => simp only [allowed, bind, Except.bind, GameSocket.refused, Turn.Permitted]
    | ok =>
      cases GameSocket.bounded encodedSize payload with
      | error => simp only [allowed, bind, Except.bind, GameSocket.refused, Turn.Permitted]
      | ok =>
        simp only [allowed, bind, Except.bind, pure, Except.pure, GameSocket.refused, Turn.Permitted]
        exact ⟨⟨_, rfl⟩, fun _ => sequenceOf_sequenced _⟩

theorem handleEvent_permitted (encodedSize : JsonMap → Option Nat) (payload : JsonMap) :
    (GameSocket.refused (socket.handleEvent encodedSize payload)).Permitted served socket := by
  unfold GameSocket.handleEvent
  by_cases tagged : (textAt payload "event").isNone = true
  · simp only [tagged, if_true, bind, Except.bind, GameSocket.refused, Turn.Permitted]
  · cases GameSocket.bounded encodedSize payload with
    | error => simp [tagged, bind, Except.bind, GameSocket.refused, Turn.Permitted]
    | ok =>
      simp only [tagged, bind, Except.bind, pure, Except.pure, GameSocket.refused, Turn.Permitted]
      exact ⟨⟨_, rfl⟩, by decide⟩

theorem handleIn_permitted (encodedSize : JsonMap → Option Nat) (event : String) (payload : Option JsonMap) :
    (socket.handleIn encodedSize event payload).Permitted served socket := by
  unfold GameSocket.handleIn
  split
  · trivial
  · split
    · cases payload with
      | none => trivial
      | some payload => exact handleCommand_permitted encodedSize payload
    · split
      · cases payload with
        | none => trivial
        | some payload => exact handleEvent_permitted encodedSize payload
      · trivial

/-- A channel forwards only what was broadcast under the epoch of its own lease. -/
theorem handle_permitted (encodedSize : JsonMap → Option Nat) (message : Incoming)
    (relayed : ∀ event epoch payload, message = .broadcast event (.stamped epoch payload) → Relayed served event epoch payload) :
    (socket.handle encodedSize message).Permitted served socket := by
  cases message with
  | afterJoin => exact ⟨⟨_, rfl⟩, by decide⟩
  | client event payload => exact handleIn_permitted encodedSize event payload
  | sessionFenced => exact terminate_permitted
  | closed => exact terminate_permitted
  | broadcast event message =>
    cases message with
    | bare => trivial
    | stamped epoch payload =>
      simp only [GameSocket.handle, GameSocket.handleOut]
      split
      next same =>
        subst same
        exact relayed event _ payload rfl
      next => trivial

theorem proceed_permitted (next : Next) (result : Except Refusal Unit) :
    (socket.proceed next result).Permitted served socket := by
  unfold GameSocket.proceed
  split
  all_goals first | trivial | exact terminate_permitted

end Turns

namespace LaneSound
variable {served : List (Served Pid)} {lane : Lane Pid Digest}

theorem start : LaneSound ([] : List (Served Pid)) (Lane.start : Lane Pid Digest) where
  mailboxes found := by simp [Lane.start] at found
  calls member := absurd member List.not_mem_nil

/-- A call that is permitted. -/
theorem call (sound : LaneSound served lane) {asked : Asked Pid}
    (permitted : ∀ pid lease seq effect, asked = .relay pid lease seq effect → Permitted served lease seq effect) :
    LaneSound served (lane.call asked) where
  mailboxes := sound.mailboxes
  calls member relay := by
    rcases List.mem_append.mp member with before | last
    · exact sound.calls before relay
    · rw [List.mem_singleton.mp last] at relay
      exact permitted _ _ _ _ relay

variable [DecidableEq Pid]

theorem setChannel (sound : LaneSound served lane) (pid : Pid) {channel : Option Channel}
    (relayed : ∀ held event epoch payload, channel = some held → .broadcast event (.stamped epoch payload) ∈ held.mailbox →
      Relayed served event epoch payload) : LaneSound served (lane.setChannel pid channel) where
  mailboxes {other held event epoch payload} found member := by
    by_cases same : other = pid
    · subst same
      simp only [Lane.setChannel, Function.update_self] at found
      exact relayed held event epoch payload found member
    · simp only [Lane.setChannel, Function.update_of_ne same] at found
      exact sound.mailboxes found member
  calls := sound.calls

theorem send (sound : LaneSound served lane) (pid : Pid) {message : Incoming}
    (unstamped : ∀ event epoch payload, message ≠ .broadcast event (.stamped epoch payload)) :
    LaneSound served (lane.send pid message) := by
  refine sound.setChannel pid fun held event epoch payload found member => ?_
  obtain ⟨channel, before, rfl⟩ := Option.map_eq_some_iff.mp found
  rcases List.mem_append.mp member with old | new
  · exact sound.mailboxes before old
  · exact absurd (List.mem_singleton.mp new).symm (unstamped event epoch payload)

/-- A channel does what its turn says, and keeps a part of its mailbox. -/
theorem perform (sound : LaneSound served lane) (pid : Pid) (socket : GameSocket) {mailbox : List Incoming}
    (mode : SessionMode) {turn : Turn} (permitted : turn.Permitted served socket)
    (relayed : ∀ event epoch payload, .broadcast event (.stamped epoch payload) ∈ mailbox → Relayed served event epoch payload) :
    LaneSound served (lane.perform pid socket mailbox mode turn) := by
  have kept {waiting : Option Wait} (held : Channel) (event epoch : String) (payload : JsonMap)
      (same : some (⟨.joined socket waiting, mailbox⟩ : Channel) = some held)
      (member : .broadcast event (.stamped epoch payload) ∈ held.mailbox) : Relayed served event epoch payload := by
    cases same
    exact relayed event epoch payload member
  cases turn with
  | guarded seq effect next =>
    simp only [Lane.perform]
    split
    · refine (sound.call fun _ _ _ _ relay => ?_).setChannel pid kept
      cases relay
      exact permitted
    · have counted : LaneSound served { lane with made := lane.made + 1 } := ⟨sound.mailboxes, sound.calls⟩
      exact counted.setChannel pid kept
  | reply response =>
    have told : LaneSound served { lane with replies := (pid, response) :: lane.replies } := ⟨sound.mailboxes, sound.calls⟩
    exact told.setChannel pid kept
  | ignore => exact sound.setChannel pid kept
  | leave => exact (sound.call fun _ _ _ _ relay => by cases relay).setChannel pid kept
  | gone => exact sound.setChannel pid fun _ _ _ _ none => by cases none

theorem take (sound : LaneSound served lane) {encodedSize : JsonMap → Option Nat} {pid : Pid} {mode : SessionMode}
    {after : Lane Pid Digest} (taken : Lane.take encodedSize lane pid mode = some after) : LaneSound served after := by
  unfold Lane.take at taken
  split at taken
  next socket message mailbox found =>
    cases taken
    refine sound.perform pid socket mode (handle_permitted encodedSize message fun event epoch payload first => ?_)
      fun event epoch payload later => sound.mailboxes found (List.mem_cons_of_mem _ later)
    exact sound.mailboxes found (first ▸ List.mem_cons_self)
  next => cases taken

theorem resume (sound : LaneSound served lane) {pid : Pid} {mode : SessionMode} {after : Lane Pid Digest}
    (taken : lane.resume pid mode = some after) : LaneSound served after := by
  unfold Lane.resume at taken
  split at taken
  next sessionId role profile number reply mailbox found =>
    split at taken
    · cases taken
      refine sound.setChannel pid fun held event epoch payload same member => ?_
      cases same
      rcases List.mem_append.mp member with old | new
      · exact sound.mailboxes found old
      · cases List.mem_singleton.mp new
    · cases taken
      exact sound.setChannel pid fun _ _ _ _ none => by cases none
  next socket number next answer mailbox found =>
    cases taken
    exact sound.perform pid socket mode (proceed_permitted next answer) fun _ _ _ member => sound.mailboxes found member
  next => cases taken

theorem timeout (sound : LaneSound served lane) {pid : Pid} {mode : SessionMode} {after : Lane Pid Digest}
    (taken : lane.timeout pid mode = some after) : LaneSound served after := by
  unfold Lane.timeout at taken
  split at taken
  next =>
    cases taken
    exact sound.setChannel pid fun _ _ _ _ none => by cases none
  next socket number next mailbox found =>
    cases taken
    exact sound.perform pid socket mode (proceed_permitted next _) fun _ _ _ member => sound.mailboxes found member
  next => cases taken

end LaneSound

section Serving
variable [DecidableEq Pid]

@[simp] theorem answered_mailbox (number : Nat) (reply : Reply) (channel : Channel) :
    (channel.answered number reply).mailbox = channel.mailbox := by
  unfold Channel.answered
  split
  · split <;> rfl
  · split <;> rfl
  · rfl

/-- What a turn of the authority adds to the mailbox of a channel. -/
theorem serve_mailbox {asked : Asked Pid} {reply : Reply} {told : List Pid} {number : Nat} {pid : Pid} {channel : Channel}
    {message : Incoming}
    (member : message ∈ ((Lane.relayed asked reply pid (Lane.fence told pid channel)).answered number reply).mailbox) :
    message ∈ channel.mailbox ∨ message = .sessionFenced ∨ ∃ sender lease seq topic event content,
      asked = .relay sender lease seq (.broadcast topic event content) ∧ reply = .ok ∧ message = .broadcast event content := by
  have fenced (member : message ∈ (Lane.fence told pid channel).mailbox) :
      message ∈ channel.mailbox ∨ message = .sessionFenced := by
    unfold Lane.fence at member
    split at member
    · rcases List.mem_append.mp member with old | new
      · exact .inl old
      · exact .inr (List.mem_singleton.mp new)
    · exact .inl member
  rw [answered_mailbox] at member
  unfold Lane.relayed at member
  split at member
  next sender lease seq topic event content =>
    split at member
    · rcases List.mem_append.mp member with old | new
      · exact (fenced old).imp_right .inl
      · exact .inr (.inr ⟨sender, lease, seq, topic, event, content, rfl, rfl, List.mem_singleton.mp new⟩)
    · exact (fenced member).imp_right .inl
  next => exact (fenced member).imp_right .inl

variable [DecidableEq Digest] {secrets : Secrets Digest}

/-- What a turn of the authority does: it serves the first of its calls. -/
theorem serve_cases {clock : Clock} {result : EffectResult} {lane after : Lane Pid Digest} {s : Served Pid}
    (taken : Lane.serve secrets clock result lane = some (after, s)) :
    ∃ call ∈ lane.calls, s.asked = call.asked ∧ s.exchange.request = call.asked.toRequest result ∧ s.exchange.clock = clock ∧
      Serves secrets lane.authority s.exchange after.authority ∧ (∀ other ∈ after.calls, other ∈ lane.calls) ∧
      ∀ pid channel, after.channels pid = some channel → ∃ before told, lane.channels pid = some before ∧
        channel = (Lane.relayed s.asked s.exchange.reply pid (Lane.fence told pid before)).answered call.number
          s.exchange.reply := by
  unfold Lane.serve at taken
  split at taken
  next => cases taken
  next number asked rest first =>
    simp only [Option.some.injEq, Prod.mk.injEq] at taken
    obtain ⟨rfl, rfl⟩ := taken
    refine ⟨⟨number, asked⟩, first ▸ List.mem_cons_self, rfl, rfl, rfl, ⟨rfl, rfl⟩, fun other member => ?_,
      fun pid channel found => ?_⟩
    · simp only at member
      split at member
      · exact absurd member List.not_mem_nil
      · exact first ▸ List.mem_cons_of_mem _ member
    · obtain ⟨before, there, rfl⟩ := Option.map_eq_some_iff.mp found
      exact ⟨before, _, there, rfl⟩

/-- An effect that is run is run for the holder of a current lease. -/
theorem served_authorised {history : List (Exchange Pid)} {a after : Authority Pid Digest} {e : Exchange Pid} {pid : Pid}
    {lease : Lease} {seq : Sequence} {result : EffectResult} (sound : Sound secrets history a)
    (taken : Serves secrets a e after) (isEffect : e.request = .effect pid (some lease) seq result)
    (ran : ∀ reason, e.reply ≠ .error reason) : Authorised history e.clock pid lease := by
  obtain ⟨clock, request, monitor, reply⟩ := e
  cases isEffect
  obtain ⟨seat, held⟩ := effect_ran taken.2 ran
  obtain ⟨shown, isShown, authorised⟩ := (sound.expire clock).authorised (expire_live clock a) held
  cases isShown
  exact authorised

theorem LaneSound.serve {served : List (Served Pid)} {lane after : Lane Pid Digest} {clock : Clock} {result : EffectResult}
    {s : Served Pid} (sound : LaneSound served lane) (authority : Sound secrets (exchanges served) lane.authority)
    (taken : Lane.serve secrets clock result lane = some (after, s)) : LaneSound (served ++ [s]) after := by
  obtain ⟨call, member, isAsked, isRequest, _, serves, kept, channels⟩ := serve_cases taken
  refine ⟨fun {pid channel event epoch payload} found queued => ?_,
    fun member relay => (sound.calls (kept _ member) relay).snoc s⟩
  obtain ⟨before, told, there, rfl⟩ := channels pid channel found
  rcases serve_mailbox queued with old | fenced | ⟨sender, lease, seq, topic, event', content, asked, ok, new⟩
  · exact (sound.mailboxes there old).snoc s
  · cases fenced
  · cases new
    have permitted := sound.calls member (isAsked.symm.trans asked)
    obtain ⟨⟨_, same⟩, _⟩ := permitted
    cases same
    rw [← isAsked, asked] at isRequest
    refine ⟨served, s, [], rfl, sender, lease, ⟨topic, seq, asked, ok⟩, rfl, ?_⟩
    exact served_authorised authority serves isRequest (by simp [ok])

/-- A command that is accepted for relay has a number, and the authority records it. -/
theorem command_recorded {served : List (Served Pid)} {lane after : Lane Pid Digest} {clock : Clock}
    {result : EffectResult} {s : Served Pid} (sound : LaneSound served lane)
    (taken : Lane.serve secrets clock result lane = some (after, s)) {seat : String × String × String} {seq : Sequence}
    (command : s.command seat = some seq) : ∃ number, seq = .integer number ∧ s.exchange.recorded seat = some number := by
  obtain ⟨call, member, isAsked, isRequest, _, serves, _⟩ := serve_cases taken
  unfold Served.command at command
  split at command
  next pid lease seq' topic event content isRelay replied =>
    obtain ⟨⟨isCommand, isSeat⟩, ⟨⟩⟩ := Option.ite_none_right_eq_some.mp command
    have asked := isAsked.symm.trans isRelay
    have unsequenced := (sound.calls member asked).2 isCommand
    simp only [asked, Asked.toRequest] at isRequest
    cases seq with
    | unsequenced => exact absurd rfl unsequenced
    | integer number => exact ⟨number, rfl, by simp only [Exchange.recorded, isRequest, replied, if_pos isSeat]⟩
    | other =>
      -- a command without a number is refused
      obtain ⟨_, handled⟩ := serves
      simp only [isRequest, replied, Sessions.handle, effect] at handled
      split at handled
      · cases handled
      · cases handled
      · cases handled
  next => cases command

end Serving

@[simp] theorem perform_authority [DecidableEq Pid] (lane : Lane Pid Digest) (pid : Pid) (socket : GameSocket)
    (mailbox : List Incoming) (mode : SessionMode) (turn : Turn) :
    (lane.perform pid socket mailbox mode turn).authority = lane.authority := by
  cases turn with
  | guarded =>
    simp only [Lane.perform]
    split <;> rfl
  | reply => rfl
  | ignore => rfl
  | leave => rfl
  | gone => rfl

section Running
variable [DecidableEq Pid] [DecidableEq Digest] {config : LaneConfig Digest}

def Takes (config : LaneConfig Digest) (lane : Lane Pid Digest) (label : Input Pid × Option (Served Pid))
    (after : Lane Pid Digest) : Prop := lane.step config label.1 = some (after, label.2)

/-- The calls the authority served, in order. -/
def servedOf (labels : List (Input Pid × Option (Served Pid))) : List (Served Pid) := labels.filterMap Prod.snd

/-- A turn of the authority, or a step that leaves it as it is. -/
theorem takes_cases {lane after : Lane Pid Digest} {label : Input Pid × Option (Served Pid)} (taken : Takes config lane label after) :
    (∃ clock result s, label = (.serve clock result, some s) ∧ Lane.serve config.secrets clock result lane = some (after, s)) ∨
    label.2 = none ∧ after.authority = lane.authority ∧
      ∀ served : List (Served Pid), LaneSound served lane → LaneSound served after := by
  obtain ⟨input, observed⟩ := label
  unfold Takes Lane.step at taken
  cases input with
  | join pid sessionId game role identity epoch credential =>
    simp only at taken
    split at taken
    next =>
      obtain ⟨_, ⟨⟩⟩ := Option.ite_none_right_eq_some.mp taken
      refine .inr ⟨rfl, rfl, fun served sound => (sound.call fun _ _ _ _ relay => by cases relay).setChannel pid ?_⟩
      intro held _ _ _ same member
      cases same
      exact absurd member List.not_mem_nil
    next => cases taken
  | ask request =>
    cases taken
    exact .inr ⟨rfl, rfl, fun served sound => sound.call fun _ _ _ _ relay => by cases relay⟩
  | client pid event payload =>
    cases taken
    exact .inr ⟨rfl, rfl, fun served sound => sound.send pid (by simp)⟩
  | closed pid =>
    cases taken
    exact .inr ⟨rfl, rfl, fun served sound => sound.send pid (by simp)⟩
  | bare pid event payload =>
    cases taken
    exact .inr ⟨rfl, rfl, fun served sound => sound.send pid (by simp)⟩
  | take pid mode =>
    obtain ⟨lane', turned, same⟩ := Option.map_eq_some_iff.mp taken
    cases same
    refine .inr ⟨rfl, ?_, fun served sound => sound.take turned⟩
    unfold Lane.take at turned
    split at turned
    · cases turned
      exact perform_authority ..
    · cases turned
  | resume pid mode =>
    obtain ⟨lane', turned, same⟩ := Option.map_eq_some_iff.mp taken
    cases same
    refine .inr ⟨rfl, ?_, fun served sound => sound.resume turned⟩
    unfold Lane.resume at turned
    split at turned
    · split at turned
      · cases turned
        rfl
      · cases turned
        rfl
    · cases turned
      exact perform_authority ..
    · cases turned
  | timeout pid mode =>
    obtain ⟨lane', turned, same⟩ := Option.map_eq_some_iff.mp taken
    cases same
    refine .inr ⟨rfl, ?_, fun served sound => sound.timeout turned⟩
    unfold Lane.timeout at turned
    split at turned
    · cases turned
      rfl
    · cases turned
      exact perform_authority ..
    · cases turned
  | kill pid =>
    cases taken
    exact .inr ⟨rfl, rfl, fun served sound => sound.setChannel pid fun _ _ _ _ none => by cases none⟩
  | serve clock result =>
    obtain ⟨⟨lane', s⟩, turned, same⟩ := Option.map_eq_some_iff.mp taken
    cases same
    exact .inl ⟨clock, result, s, rfl, turned⟩

variable {lane : Lane Pid Digest} {labels : List (Input Pid × Option (Served Pid))}

theorem run_serves (run : Run (Takes config) Lane.start labels lane) :
    Run (Serves config.secrets) init (exchanges (servedOf labels)) lane.authority := by
  induction run with
  | start => exact .start
  | next _ taken ih =>
    rcases takes_cases taken with ⟨clock, result, s, rfl, turned⟩ | ⟨none, same, _⟩
    · obtain ⟨_, _, _, _, _, serves, _⟩ := serve_cases turned
      simpa [servedOf, exchanges] using Run.next ih serves
    · rw [same]
      simpa [servedOf, none] using ih

/-- In every run: what waits was broadcast as it should be, and the commands accepted for a seat are
numbered by a part of what the authority recorded for it. -/
theorem run_sound (run : Run (Takes config) Lane.start labels lane)
    (distinct : Set.InjOn config.secrets.secret (Set.Iio lane.authority.drawn)) :
    LaneSound (servedOf labels) lane ∧ ∀ seat, ∃ numbers : List Int,
      commands seat (servedOf labels) = numbers.map Sequence.integer ∧
      numbers.Sublist (accepted seat (exchanges (servedOf labels))) := by
  induction run with
  | start => exact ⟨.start, fun _ => ⟨[], rfl, .slnil⟩⟩
  | @next labels before label after run taken ih =>
    rcases takes_cases taken with ⟨clock, result, s, rfl, turned⟩ | ⟨none, same, kept⟩
    · obtain ⟨_, _, _, _, _, serves, _⟩ := serve_cases turned
      have grows : before.authority.drawn ≤ after.authority.drawn := by
        have drawn := handle_drawn config.secrets s.exchange.clock s.exchange.request before.authority
        rwa [serves.2] at drawn
      have unrepeated := distinct.mono (Set.Iio_subset_Iio grows)
      obtain ⟨sound, numbered⟩ := ih unrepeated
      have snoc : servedOf (labels ++ [(Input.serve clock result, some s)]) = servedOf labels ++ [s] := by simp [servedOf]
      rw [snoc]
      refine ⟨sound.serve (.of_run (run_serves run) unrepeated) turned, fun seat => ?_⟩
      obtain ⟨numbers, same, part⟩ := numbered seat
      have recorded : accepted seat (exchanges (servedOf labels ++ [s])) =
          accepted seat (exchanges (servedOf labels)) ++ (s.exchange.recorded seat).toList := by
        cases said : s.exchange.recorded seat <;> simp [accepted, exchanges, List.filterMap_append, said]
      rw [recorded]
      cases command : s.command seat with
      | none =>
        refine ⟨numbers, ?_, part.trans (List.sublist_append_left ..)⟩
        simpa [commands, List.filterMap_append, command] using same
      | some seq =>
        obtain ⟨number, rfl, said⟩ := command_recorded sound turned command
        refine ⟨numbers ++ [number], ?_, ?_⟩
        · simpa [commands, List.filterMap_append, command] using same
        · rw [said]
          exact part.append (.refl _)
    · have snoc : servedOf (labels ++ [label]) = servedOf labels := by simp [servedOf, none]
      rw [snoc]
      rw [same] at distinct
      obtain ⟨sound, numbered⟩ := ih distinct
      exact ⟨kept _ sound, numbered⟩

/-- In every run: what is pushed to a client was stamped with the epoch of the receiver's own lease,
which is current at that moment, and was broadcast while its sender held a current lease of that epoch;
and the commands accepted for relay from a seat are numbered, in increasing order. -/
theorem lane_isolated (run : Run (Takes config) Lane.start labels lane)
    (distinct : Set.InjOn config.secrets.secret (Set.Iio lane.authority.drawn)) :
    (∀ input s after pid lease event payload, Takes config lane (input, some s) after →
      s.pushed = some (pid, lease, event, payload) →
      Authorised (exchanges (servedOf labels)) s.exchange.clock pid lease ∧
        Relayed (servedOf labels) event lease.epoch payload) ∧
    ∀ seat, ∃ numbers : List Int, commands seat (servedOf labels) = numbers.map Sequence.integer ∧
      numbers.Pairwise (· < ·) := by
  obtain ⟨sound, numbered⟩ := run_sound run distinct
  have authority := Sound.of_run (run_serves run) distinct
  refine ⟨?_, fun seat => ?_⟩
  · intro input s after pid lease event payload taken pushed
    obtain ⟨seq, asked, ran⟩ := pushed_cases pushed
    rcases takes_cases taken with ⟨clock, result, _, same, turned⟩ | ⟨none, _⟩
    · cases same
      obtain ⟨call, member, isAsked, isRequest, _, serves, _⟩ := serve_cases turned
      rw [← isAsked, asked] at isRequest
      exact ⟨served_authorised authority serves isRequest ran, sound.calls member (isAsked.symm.trans asked)⟩
    · cases none
  · obtain ⟨numbers, same, part⟩ := numbered seat
    exact ⟨numbers, same, (authority.ordered seat).sublist part⟩

/-- Let things happen one after the other, as long as they can. -/
def playAll (config : LaneConfig Digest) :
    List (Input Pid) → Lane Pid Digest → List (Input Pid × Option (Served Pid)) × Lane Pid Digest
  | [], lane => ([], lane)
  | input :: rest, lane =>
    match lane.step config input with
    | some (after, served) =>
      let (labels, last) := playAll config rest after
      ((input, served) :: labels, last)
    | none => ([], lane)

theorem playAll_run (config : LaneConfig Digest) (inputs : List (Input Pid)) (lane : Lane Pid Digest) :
    Run (Takes config) lane (playAll config inputs lane).1 (playAll config inputs lane).2 := by
  induction inputs generalizing lane with
  | nil => exact .start
  | cons input rest ih =>
    unfold playAll
    split
    next after served taken => exact (Run.single (show Takes config lane (input, served) after from taken)).append (ih after)
    next => exact .start

end Running

/-- A game with two seats, where one of them jumps. -/
def arena : LaneConfig String where
  secrets := letters
  games game := if game = "idaptik" then some ⟨["infiltrator", "hacker"], AList.singleton "Jump" (.seat "infiltrator")⟩ else none
  encodedSize _ := some 64

/-- Both seats join, the infiltrator jumps, and the hacker's channel is about to forward it. -/
def jumping : List (Input Nat) :=
  let instant (second : Int) : Clock := ⟨second, 1000 + second, second⟩
  let roster := (AList.singleton "hacker" "bob").insert "infiltrator" "alice"
  let join (pid : Nat) (role subject : String) (ticket : Nat) : Input Nat :=
    .join pid "arena" "idaptik" role (some ⟨subject, 2000⟩) (letters.secret 0) (.ticket (letters.secret ticket))
  let answer (pid : Nat) (second : Int) : List (Input Nat) := [.serve (instant second) .ok, .resume pid .scoped]
  let jump : JsonMap := (AList.singleton "cmd" (.string "Jump")).insert "seq" (.integer 1)
  [.ask (.create "arena" "idaptik" roster 60), .serve (instant 0) .ok,
    join 7 "infiltrator" "alice" 1] ++ answer 7 1 ++ [.take 7 .scoped] ++ answer 7 2 ++
  [join 8 "hacker" "bob" 2] ++ answer 8 3 ++ [.take 8 .scoped] ++ answer 8 4 ++
  [.client 7 "command" (some jump), .take 7 .scoped] ++ answer 7 5 ++ [.take 7 .scoped] ++ answer 7 6 ++ [.take 8 .scoped]

theorem arena_distinct : Set.InjOn letters.secret (Set.Iio (playAll arena jumping .start).2.authority.drawn) := by
  have drawn : (playAll arena jumping .start).2.authority.drawn = 7 := by decide
  have different : ∀ m < 7, ∀ n < 7, letters.secret m = letters.secret n → m = n := by decide
  rw [drawn]
  exact fun m below n bound => different m below n bound

theorem lane_isolated_jumping :
    (∃ (s : Served Nat) (lease : Lease) (payload : JsonMap), s.pushed = some (8, lease, "command", payload) ∧
      Authorised (exchanges (servedOf (playAll arena jumping .start).1)) s.exchange.clock 8 lease ∧
      Relayed (servedOf (playAll arena jumping .start).1) "command" lease.epoch payload) ∧
    commands ("arena", letters.secret 0, "infiltrator") (servedOf (playAll arena jumping .start).1) = [.integer 1] := by
  refine ⟨?_, by decide⟩
  have forwards : (((playAll arena jumping .start).2.step arena (.serve ⟨7, 1007, 7⟩ .ok)).bind fun next =>
      next.2.bind fun s => s.pushed.map fun pushed => (pushed.1, pushed.2.2.1)) = some (8, "command") := by decide
  obtain ⟨⟨after, served⟩, taken, rest⟩ := Option.bind_eq_some_iff.mp forwards
  obtain ⟨s, rfl, rest⟩ := Option.bind_eq_some_iff.mp rest
  obtain ⟨⟨pid, lease, event, payload⟩, pushed, same⟩ := Option.map_eq_some_iff.mp rest
  cases same
  exact ⟨s, lease, payload, pushed, (lane_isolated (playAll_run arena jumping .start) arena_distinct).1 _ s after 8 lease
    "command" payload taken pushed⟩

end Burble.Sessions
