import Burble.Rooms.Room

namespace Burble.Rooms

/-- Milliseconds. -/
def idleTimeoutMs : Nat := 5 * 60 * 1000

inductive TopologyMode
  | monarchic
  | oligarchic
  | distributed
  | serverless
  deriving DecidableEq, Repr

/-- `Participant.set_voice_state`. -/
def Participant.setVoiceState (p : Participant) (state : VoiceState) : Participant :=
  { p with voiceState := state, isSpeaking := state = .connected ∨ state = .priority }

/-- What a call to a room answers. -/
inductive RoomReply
  | joined (result : Except RoomError Summary)
  | left (result : Except RoomError Unit)
  | voiceState (result : Except RoomError Unit)
  | state (summary : Summary)
  | effect (ran : Bool)
  | count (participants : Nat)

inductive RoomCall
  | join (userId : UserId) (displayName : Option String)
  | leave (userId : UserId)
  | setVoiceState (userId : UserId) (state : VoiceState)
  | getState
  | withVoiceMembers (userId peerId : UserId)
  | participantCount

/-- What may wait in the mailbox of a room. -/
inductive RoomMail
  | call (from' : Nat) (request : RoomCall)
  | updateTopology (mode : TopologyMode)
  | idleCheck
  | other

/-- The process of a room, with its clock and the timers the runtime keeps for it. `emptied` is not in the
source: it is when the room was started, or when its last participant left it. -/
structure RoomProcess where
  room : Room
  topologyMode : TopologyMode
  idleTimer : Option Nat
  timers : FiniteMap Nat Nat
  started : Nat
  mailbox : List RoomMail
  now : Nat
  emptied : Nat

namespace RoomProcess
variable (process : RoomProcess)

/-- `schedule_idle_check`. The reference is a new one. -/
def scheduleIdleCheck : RoomProcess :=
  { process with
    timers := process.timers.insert process.started (process.now + idleTimeoutMs)
    idleTimer := some process.started
    started := process.started + 1 }

/-- `Process.cancel_timer` of the timer that is kept: a check that was sent already stays in the mailbox. -/
def cancelIdle : RoomProcess :=
  match process.idleTimer with
  | none => process
  | some ref => { process with timers := process.timers.erase ref, idleTimer := none }

/-- A room without participants and mail. -/
def init (room : Room) (mode : TopologyMode) (now : Nat) : RoomProcess :=
  scheduleIdleCheck ⟨{ room with participants := ∅ }, mode, none, ∅, 0, [], now, now⟩

def call : RoomCall → RoomReply × RoomProcess
  | .join userId displayName =>
    let (result, room) := process.room.join userId displayName
    match result with
    | .ok _ => (.joined result, { process.cancelIdle with room })
    | .error _ => (.joined result, process)
  | .leave userId =>
    let (result, room) := process.room.leave userId
    match result with
    | .ok _ =>
      if room.participants.size = 0 then
        (.left result, ({ process with room, emptied := process.now } : RoomProcess).scheduleIdleCheck)
      else (.left result, { process with room })
    | .error _ => (.left result, process)
  | .setVoiceState userId state =>
    match process.room.participants.lookup userId with
    | none => (.voiceState (.error .notInRoom), process)
    | some p =>
      (.voiceState (.ok ()), { process with room := { process.room with
        participants := process.room.participants.insert userId (p.setVoiceState state) } })
  | .getState => (.state process.room.summarise, process)
  | .withVoiceMembers userId peerId =>
    (.effect ((process.room.participants.lookup userId).isSome && (process.room.participants.lookup peerId).isSome), process)
  | .participantCount => (.count process.room.participants.size, process)

/-- What becomes of the process: it goes on, or stops. -/
inductive Served
  | going (reply : Option (Nat × RoomReply)) (process : RoomProcess)
  | stopped

/-- A message that has been taken from the mailbox. -/
def handle : RoomMail → Served
  | .call from' request => .going (some (from', (process.call request).1)) (process.call request).2
  | .updateTopology mode => .going none { process with topologyMode := mode }
  | .idleCheck => if process.room.participants.size = 0 then .stopped else .going none process
  | .other => .going none process

end RoomProcess

/-- What happens to a room: time passes, a message is sent to it, a timer that is due goes off, or the next message is
taken. A room that crashes is restarted by its supervisor. -/
inductive RoomEvent
  | tick (elapsed : Nat)
  | send (mail : RoomMail)
  | fire (ref : Nat)
  | take
  | crash

namespace RoomProcess

/-- A process, or that there is none any more. -/
abbrev Life := Option RoomProcess

def next (process : RoomProcess) : RoomEvent → Option Life
  | .tick elapsed => some (some { process with now := process.now + elapsed })
  | .send .idleCheck => none -- which only the timers send
  | .send mail => some (some { process with mailbox := process.mailbox ++ [mail] })
  | .fire ref =>
    match process.timers.lookup ref with
    | some due =>
      if due ≤ process.now then
        some (some { process with timers := process.timers.erase ref, mailbox := process.mailbox ++ [.idleCheck] })
      else none
    | none => none
  | .take =>
    match process.mailbox with
    | [] => none
    | mail :: rest =>
      match handle { process with mailbox := rest } mail with
      | .going _ after => some (some after)
      | .stopped => some none
  | .crash => some (some (init process.room process.topologyMode process.now))

def Step (life : Life) (event : RoomEvent) (after : Life) : Prop := life.bind (fun process => process.next event) = some after

end RoomProcess

variable {process after : RoomProcess}

theorem Room.join_ok {room : Room} {userId : UserId} {displayName : Option String} {summary : Summary}
    (joined : (room.join userId displayName).1 = .ok summary) : (room.join userId displayName).2.participants.size ≠ 0 := by
  unfold Room.join at joined ⊢
  split at joined
  · cases joined
  · split at joined
    · cases joined
    · rename_i known full
      rw [if_neg known, if_neg full]
      intro empty
      have nobody := FiniteMap.size_eq_zero.mp empty
      have there : (room.participants.insert userId (Participant.new userId displayName)).lookup userId =
          some (Participant.new userId displayName) := AList.lookup_insert _
      rw [show room.participants.insert userId (Participant.new userId displayName) = ∅ from nobody] at there
      cases there

theorem Room.leave_ok {room : Room} {userId : UserId} (left : (room.leave userId).1 = .ok ()) :
    room.participants.size ≠ 0 := by
  unfold Room.leave at left
  split at left
  · cases left
  · rename_i p found
    intro empty
    rw [FiniteMap.size_eq_zero.mp empty] at found
    cases found

/-- The check of a room is on its way while nobody is there, and only then: it is armed for five minutes after the
last participant left, or waits in the mailbox. -/
structure RoomProcess.Checked (process : RoomProcess) : Prop where
  occupied : process.room.participants.size ≠ 0 → process.idleTimer = none
  timers : ∀ ref due, process.timers.lookup ref = some due →
    process.idleTimer = some ref ∧ due = process.emptied + idleTimeoutMs
  waits : process.room.participants.size = 0 →
    (∃ ref, process.timers.lookup ref = some (process.emptied + idleTimeoutMs)) ∨ .idleCheck ∈ process.mailbox
  past : process.emptied ≤ process.now

namespace RoomProcess.Checked

theorem scheduled (idle : process.idleTimer = none)
    (timers : ∀ ref due, process.timers.lookup ref = some due → process.idleTimer = some ref)
    (empty : process.room.participants.size = 0) (just : process.emptied = process.now) :
    process.scheduleIdleCheck.Checked where
  occupied there := absurd empty there
  timers ref due found := by
    simp only [scheduleIdleCheck, FiniteMap.lookup_insert_if] at found ⊢
    split at found
    next same =>
      cases found
      exact ⟨congrArg some same.symm, by rw [just]⟩
    next =>
      have armed := timers ref due found
      rw [idle] at armed
      cases armed
  waits _ := .inl ⟨process.started, by rw [scheduleIdleCheck, just]; exact AList.lookup_insert _⟩
  past := just.le

theorem init (room : Room) (mode : TopologyMode) (now : Nat) : (RoomProcess.init room mode now).Checked :=
  scheduled rfl (fun _ _ found => by cases found) rfl rfl

/-- A change that leaves as many or as few participants, the timers and the check. -/
theorem kept (checked : process.Checked) {room : Room} {mode : TopologyMode} {mailbox : List RoomMail}
    (count : room.participants.size = 0 ↔ process.room.participants.size = 0)
    (check : .idleCheck ∈ process.mailbox → .idleCheck ∈ mailbox) :
    Checked { process with room, topologyMode := mode, mailbox } where
  occupied there := checked.occupied fun empty => there (count.mpr empty)
  timers := checked.timers
  waits empty := (checked.waits (count.mp empty)).imp id check
  past := checked.past

theorem cancelled (checked : process.Checked) {room : Room} (there : room.participants.size ≠ 0) :
    Checked { process.cancelIdle with room } := by
  unfold cancelIdle
  split
  next none =>
    exact ⟨fun _ => none, checked.timers, fun empty => absurd empty there, checked.past⟩
  next ref some =>
    refine ⟨fun _ => rfl, fun other due found => ?_, fun empty => absurd empty there, checked.past⟩
    simp only [FiniteMap.lookup_erase_if] at found
    split at found
    · cases found
    · rename_i different
      have armed := (checked.timers other due found).1
      rw [some] at armed
      cases armed
      exact absurd rfl different

/-- The timer of a room with participants has been cancelled, so a new one is the only one. -/
theorem emptied (checked : process.Checked) {room : Room} (there : process.room.participants.size ≠ 0)
    (empty : room.participants.size = 0) :
    (({ process with room, emptied := process.now } : RoomProcess).scheduleIdleCheck).Checked :=
  scheduled (checked.occupied there) (fun ref due found => (checked.timers ref due found).1) empty rfl

theorem call (checked : process.Checked) (request : RoomCall) : (process.call request).2.Checked := by
  cases request with
  | join userId displayName =>
    simp only [RoomProcess.call]
    cases joined : (process.room.join userId displayName).1 with
    | error reason => exact checked
    | ok summary => exact checked.cancelled (Room.join_ok joined)
  | leave userId =>
    simp only [RoomProcess.call]
    cases left : (process.room.leave userId).1 with
    | error reason => exact checked
    | ok =>
      have there := Room.leave_ok left
      dsimp only
      split
      next empty => exact checked.emptied there empty
      next others => exact checked.kept (iff_of_false others there) id
  | setVoiceState userId state =>
    simp only [RoomProcess.call]
    cases found : process.room.participants.lookup userId with
    | none => exact checked
    | some p =>
      refine checked.kept ?_ id
      rw [FiniteMap.size_insert_of_found found]
  | getState | withVoiceMembers | participantCount => exact checked

theorem handled (checked : process.Checked) {mail : RoomMail} {rest : List RoomMail} {reply : Option (Nat × RoomReply)}
    (head : process.mailbox = mail :: rest)
    (going : RoomProcess.handle { process with mailbox := rest } mail = .going reply after) : after.Checked := by
  have popped (other : mail ≠ .idleCheck) : Checked { process with mailbox := rest } := by
    refine checked.kept Iff.rfl fun check => ?_
    rw [head] at check
    exact (List.mem_cons.mp check).resolve_left fun same => other same.symm
  cases mail with
  | call from' request =>
    cases going
    exact (popped (by simp)).call request
  | updateTopology mode =>
    cases going
    exact (popped (by simp)).kept Iff.rfl id
  | idleCheck =>
    simp only [RoomProcess.handle] at going
    split at going
    · cases going
    · rename_i there
      cases going
      exact ⟨checked.occupied, checked.timers, fun empty => absurd empty there, checked.past⟩
  | other =>
    cases going
    exact popped (by simp)

theorem next (checked : process.Checked) {event : RoomEvent} (taken : process.next event = some (some after)) :
    after.Checked := by
  cases event with
  | tick elapsed =>
    cases taken
    exact ⟨checked.occupied, checked.timers, checked.waits, checked.past.trans (Nat.le_add_right _ _)⟩
  | send mail =>
    cases mail with
    | idleCheck => cases taken
    | _ =>
      cases taken
      exact checked.kept Iff.rfl (List.mem_append_left _)
  | fire ref =>
    simp only [RoomProcess.next] at taken
    split at taken
    next due found =>
      split at taken
      next passed =>
        cases taken
        refine ⟨checked.occupied, fun other due found => ?_,
          fun _ => .inr (List.mem_append_right _ (List.mem_singleton.mpr rfl)), checked.past⟩
        simp only [FiniteMap.lookup_erase_if] at found
        split at found
        · cases found
        · exact checked.timers other due found
      next => cases taken
    next => cases taken
  | take =>
    simp only [RoomProcess.next] at taken
    split at taken
    next => cases taken
    next mail rest head =>
      split at taken
      next reply going same =>
        cases taken
        exact checked.handled head same
      next => cases taken
  | crash =>
    cases taken
    exact init _ _ _

end RoomProcess.Checked

/-- Only the check stops a room, and only when nobody is there. -/
theorem RoomProcess.next_stopped {event : RoomEvent} (stopped : process.next event = some none) :
    event = .take ∧ process.room.participants.size = 0 ∧ ∃ rest, process.mailbox = .idleCheck :: rest := by
  cases event with
  | take =>
    simp only [RoomProcess.next] at stopped
    split at stopped
    next => cases stopped
    next mail rest head =>
      split at stopped
      next => cases stopped
      next same =>
        cases mail with
        | idleCheck =>
          simp only [RoomProcess.handle] at same
          split at same
          · rename_i empty
            exact ⟨rfl, empty, rest, head⟩
          · cases same
        | _ => cases same
  | send mail => cases mail <;> cases stopped
  | fire ref =>
    simp only [RoomProcess.next] at stopped
    split at stopped
    · split at stopped <;> cases stopped
    · cases stopped
  | _ => cases stopped

theorem RoomProcess.checked_of_run {room : Room} {mode : TopologyMode} {now : Nat} {events : List RoomEvent}
    {life : Life} (run : Run Step (some (init room mode now)) events life) : ∀ process ∈ life, process.Checked := by
  induction run with
  | start =>
    rintro process ⟨⟩
    exact .init room mode now
  | next _ taken ih =>
    rintro after ⟨⟩
    obtain ⟨process, alive, taken⟩ := Option.bind_eq_some_iff.mp taken
    exact (ih process alive).next taken

/-- In every order of mail and timers a room with participants has no timer, one without participants has its one timer
armed for five minutes after it was left, or the check in its mailbox, and a room is stopped without participants only. -/
theorem idle_rooms {room : Room} {mode : TopologyMode} {now : Nat} {events : List RoomEvent} {process : RoomProcess}
    (run : Run RoomProcess.Step (some (.init room mode now)) events (some process)) :
    (process.room.participants.size ≠ 0 → ∀ ref, process.timers.lookup ref = none) ∧
      (∀ one other due later, process.timers.lookup one = some due → process.timers.lookup other = some later → one = other) ∧
      (process.room.participants.size = 0 →
        (∃ ref, process.timers.lookup ref = some (process.emptied + idleTimeoutMs)) ∨ .idleCheck ∈ process.mailbox) ∧
      ∀ event, RoomProcess.Step (some process) event none → process.room.participants.size = 0 := by
  have checked := RoomProcess.checked_of_run run process rfl
  refine ⟨fun there ref => ?_, fun one other due later first second => ?_, checked.waits, fun event stopped => ?_⟩
  · cases found : process.timers.lookup ref with
    | none => rfl
    | some due => exact absurd (checked.occupied there) (by rw [(checked.timers ref due found).1]; simp)
  · exact Option.some.inj ((checked.timers one due first).1.symm.trans (checked.timers other later second).1)
  · exact (RoomProcess.next_stopped stopped).2.1

def lobbyRoom : Room := ⟨"lobby", "Lobby", none, .open, defaultMaxParticipants, ∅, none⟩

/-- A room that somebody has joined. -/
theorem lobby_occupied : ∃ process : RoomProcess, process.room.participants.size = 1 ∧
    (process.room.participants.size ≠ 0 → ∀ ref, process.timers.lookup ref = none) ∧
      (∀ one other due later, process.timers.lookup one = some due → process.timers.lookup other = some later → one = other) ∧
      (process.room.participants.size = 0 →
        (∃ ref, process.timers.lookup ref = some (process.emptied + idleTimeoutMs)) ∨ .idleCheck ∈ process.mailbox) ∧
      ∀ event, RoomProcess.Step (some process) event none → process.room.participants.size = 0 :=
  ⟨_, rfl, idle_rooms ((Run.single (show RoomProcess.Step (some (.init lobbyRoom .monarchic 0))
    (.send (.call 1 (.join "ann" none))) _ from rfl)).next (show RoomProcess.Step _ .take _ from rfl))⟩

/-- Mail is taken before anything else happens, and timers go off when they are due. -/
def Prompt (life : RoomProcess.Life) : RoomEvent → Prop
  | .tick elapsed => ∀ process ∈ life, process.mailbox = [] ∧
      ∀ ref due, process.timers.lookup ref = some due → process.now + elapsed ≤ due
  | .send _ | .fire _ => ∀ process ∈ life, process.mailbox = []
  | .take | .crash => True

/-- An empty room is not overdue, and a check that waits is the one for the last time the room was left. -/
structure RoomProcess.Punctual (process : RoomProcess) : Prop where
  checked : process.Checked
  single : process.mailbox.length ≤ 1
  due : .idleCheck ∈ process.mailbox →
    process.room.participants.size = 0 ∧ process.now = process.emptied + idleTimeoutMs
  timely : process.room.participants.size = 0 → process.now ≤ process.emptied + idleTimeoutMs

/-- A call takes no time and sends no mail, and a room that is empty after it was left by it or was empty before. -/
theorem RoomProcess.call_keeps (process : RoomProcess) (request : RoomCall) :
    (process.call request).2.now = process.now ∧ (process.call request).2.mailbox = process.mailbox ∧
      ((process.call request).2.room.participants.size = 0 → (process.call request).2.emptied = process.now ∨
        (process.call request).2.emptied = process.emptied ∧ process.room.participants.size = 0) := by
  cases request with
  | join userId displayName =>
    simp only [RoomProcess.call]
    cases joined : (process.room.join userId displayName).1 with
    | error reason => exact ⟨rfl, rfl, fun empty => .inr ⟨rfl, empty⟩⟩
    | ok summary =>
      have there := Room.join_ok joined
      dsimp only
      unfold cancelIdle
      split <;> exact ⟨rfl, rfl, fun empty => absurd empty there⟩
  | leave userId =>
    simp only [RoomProcess.call]
    cases left : (process.room.leave userId).1 with
    | error reason => exact ⟨rfl, rfl, fun empty => .inr ⟨rfl, empty⟩⟩
    | ok =>
      dsimp only
      split
      next => exact ⟨rfl, rfl, fun _ => .inl rfl⟩
      next others => exact ⟨rfl, rfl, fun empty => absurd empty others⟩
  | setVoiceState userId state =>
    simp only [RoomProcess.call]
    cases found : process.room.participants.lookup userId with
    | none => exact ⟨rfl, rfl, fun empty => .inr ⟨rfl, empty⟩⟩
    | some p => exact ⟨rfl, rfl, fun empty => .inr ⟨rfl, by rwa [FiniteMap.size_insert_of_found found] at empty⟩⟩
  | getState | withVoiceMembers | participantCount => exact ⟨rfl, rfl, fun empty => .inr ⟨rfl, empty⟩⟩

namespace RoomProcess.Punctual

theorem init (room : Room) (mode : TopologyMode) (now : Nat) : (RoomProcess.init room mode now).Punctual :=
  ⟨.init room mode now, Nat.zero_le _, fun member => (by cases member), fun _ => Nat.le_add_right _ _⟩

/-- The one message there is has been served. -/
theorem served (punctual : process.Punctual) {mail : RoomMail} {reply : Option (Nat × RoomReply)}
    (head : process.mailbox = [mail])
    (going : RoomProcess.handle { process with mailbox := [] } mail = .going reply after) : after.Punctual := by
  have checked := punctual.checked.handled head going
  cases mail with
  | call from' request =>
    cases going
    obtain ⟨now, mailbox, emptied⟩ := RoomProcess.call_keeps { process with mailbox := [] } request
    refine ⟨checked, by rw [mailbox]; exact Nat.zero_le _, fun member => ?_, fun empty => ?_⟩
    · rw [mailbox] at member
      cases member
    · rcases emptied empty with just | ⟨same, before⟩
      · rw [now, just]
        exact Nat.le_add_right _ _
      · rw [now, same]
        exact punctual.timely before
  | updateTopology | other =>
    cases going
    exact ⟨checked, Nat.zero_le _, fun member => (by cases member), punctual.timely⟩
  | idleCheck =>
    simp only [RoomProcess.handle] at going
    split at going
    · cases going
    · cases going
      exact ⟨checked, Nat.zero_le _, fun member => (by cases member), punctual.timely⟩

theorem next (punctual : process.Punctual) {event : RoomEvent} (prompt : Prompt (some process) event)
    (taken : process.next event = some (some after)) : after.Punctual := by
  have checked := punctual.checked.next taken
  cases event with
  | tick elapsed =>
    obtain ⟨silent, ahead⟩ := prompt process rfl
    cases taken
    refine ⟨checked, punctual.single, fun member => ?_, fun empty => ?_⟩
    · simp only [silent] at member
      cases member
    · rcases punctual.checked.waits empty with ⟨ref, armed⟩ | member
      · exact ahead ref _ armed
      · rw [silent] at member
        cases member
  | send mail =>
    have silent := prompt process rfl
    cases mail with
    | idleCheck => cases taken
    | _ =>
      cases taken
      refine ⟨checked, by simp [silent], fun member => ?_, punctual.timely⟩
      simp [silent] at member
  | fire ref =>
    have silent := prompt process rfl
    simp only [RoomProcess.next] at taken
    split at taken
    next due found =>
      obtain ⟨kept, rfl⟩ := punctual.checked.timers ref due found
      have empty : process.room.participants.size = 0 := by
        by_contra there
        rw [punctual.checked.occupied there] at kept
        cases kept
      split at taken
      next passed =>
        cases taken
        exact ⟨checked, by simp [silent], fun _ => ⟨empty, Nat.le_antisymm (punctual.timely empty) passed⟩, punctual.timely⟩
      next => cases taken
    next => cases taken
  | take =>
    simp only [RoomProcess.next] at taken
    split at taken
    next => cases taken
    next mail rest head =>
      have single := punctual.single
      obtain rfl : rest = [] := by
        rw [head] at single
        exact List.eq_nil_of_length_eq_zero (by simpa using single)
      split at taken
      next reply going same =>
        cases taken
        exact punctual.served head same
      next => cases taken
  | crash =>
    cases taken
    exact init _ _ _

end RoomProcess.Punctual

theorem RoomProcess.punctual_of_run {room : Room} {mode : TopologyMode} {now : Nat} {events : List RoomEvent} {life : Life}
    (run : Run (Guarded Prompt Step) (some (init room mode now)) events life) : ∀ process ∈ life, process.Punctual := by
  induction run with
  | start =>
    rintro process ⟨⟩
    exact .init room mode now
  | next _ taken ih =>
    rintro after ⟨⟩
    obtain ⟨prompt, taken⟩ := taken
    obtain ⟨before, rfl, taken⟩ := Option.bind_eq_some_iff.mp taken
    exact (ih before rfl).next prompt taken

/-- Where mail is taken at once and timers go off on time, an empty room is never older than five minutes, and a room is
stopped exactly five minutes after it was left. -/
theorem five_minutes {room : Room} {mode : TopologyMode} {now : Nat} {events : List RoomEvent} {process : RoomProcess}
    (run : Run (Guarded Prompt RoomProcess.Step) (some (.init room mode now)) events (some process)) :
    (process.room.participants.size = 0 → process.now ≤ process.emptied + idleTimeoutMs) ∧
      ∀ event, RoomProcess.Step (some process) event none →
        process.room.participants.size = 0 ∧ process.now = process.emptied + idleTimeoutMs := by
  have punctual := RoomProcess.punctual_of_run run process rfl
  refine ⟨punctual.timely, fun event stopped => ?_⟩
  obtain ⟨-, -, rest, head⟩ := RoomProcess.next_stopped stopped
  exact punctual.due (head ▸ List.mem_cons_self)

/-- The room after five minutes without mail. -/
def lobbyLater : RoomProcess := { RoomProcess.init lobbyRoom .monarchic 0 with now := idleTimeoutMs }

/-- A room that was left alone has its check in the mailbox after five minutes, and no sooner. -/
theorem lobby_stops : ∃ process : RoomProcess, RoomProcess.Step (some process) .take none ∧
    (process.room.participants.size = 0 → process.now ≤ process.emptied + idleTimeoutMs) ∧
      ∀ event, RoomProcess.Step (some process) event none →
        process.room.participants.size = 0 ∧ process.now = process.emptied + idleTimeoutMs := by
  have waited : Guarded Prompt RoomProcess.Step (some (.init lobbyRoom .monarchic 0)) (.tick idleTimeoutMs)
      (some lobbyLater) := by
    refine ⟨?_, rfl⟩
    rintro process ⟨⟩
    refine ⟨rfl, fun ref due found => ?_⟩
    rw [((RoomProcess.Checked.init lobbyRoom .monarchic 0).timers ref due found).2]
    rfl
  have fired : Guarded Prompt RoomProcess.Step (some lobbyLater) (.fire 0)
      (some { lobbyLater with timers := ∅, mailbox := [.idleCheck] }) := by
    refine ⟨?_, rfl⟩
    rintro process ⟨⟩
    rfl
  exact ⟨{ lobbyLater with timers := ∅, mailbox := [.idleCheck] }, rfl, five_minutes ((Run.start.next waited).next fired)⟩

end Burble.Rooms
