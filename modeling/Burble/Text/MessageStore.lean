import Burble.FiniteMap
import Burble.Json
import Burble.Runs
import Burble.Rooms.Moderation
import Burble.Verification.Vext

namespace Burble.Text

open Verification (DateTime)
open Rooms (Permission)

structure Message where
  id : String
  sender : String
  body : String
  timestamp : DateTime
  deriving DecidableEq

/-- What clients are sent of a message. -/
structure ShownMessage where
  id : String
  sender : String
  body : String
  timestamp : String
  deriving DecidableEq

def Message.shown (msg : Message) : ShownMessage := ⟨msg.id, msg.sender, msg.body, msg.timestamp.toIso8601⟩

abbrev MessageTable := FiniteMap String (List Message)

namespace MessageTable

def maxMessagesPerRoom : Nat := 500

/-- The messages of a room are kept newest first. -/
def store (table : MessageTable) (roomId : String) (msg : Message) : MessageTable :=
  table.insert roomId ((msg :: (table.lookup roomId).getD []).take maxMessagesPerRoom)

def getMessages (table : MessageTable) (roomId : String) (limit : Nat) : List Message :=
  ((table.lookup roomId).getD []).take limit

end MessageTable

inductive Role
  | member
  | guest

def roleTemplate : Role → Finset Permission
  | .member => {.joinRoom, .speak, .whisper, .text, .chatSend}
  | .guest => {.joinRoom, .speak, .text}

def hasPermission (perms : Finset Permission) (permission : Permission) : Bool := decide (permission ∈ perms)

structure Socket where
  userId : String
  roomId : String
  isGuest : Bool
  lastTypingBroadcastMs : Option Int

def typingThrottleMs : Int := 2000

/-- A typing indicator is sent on where there was none before, or none of late. -/
def Socket.typingDue (socket : Socket) (now : Int) : Bool :=
  socket.lastTypingBroadcastMs.all fun lastTyping => typingThrottleMs ≤ now - lastTyping

def getUserPermissions (socket : Socket) : Finset Permission :=
  if socket.isGuest then roleTemplate .guest else roleTemplate .member

/-- Where a channel process is: it waits for a client's message, for the store's reply, it is to broadcast what was stored,
or to reply to its client; or it is no more. -/
inductive Phase
  | idle
  | calling (msg : Message)
  | stored (msg : Message)
  | announced (id : String)
  | gone

structure Channel where
  socket : Socket
  phase : Phase

/-- A call in the mailbox of the store; a message posted over HTTP comes from no channel. -/
inductive StoreCall
  | store (caller : Option Nat) (roomId : String) (msg : Message)
  | clear (roomId : String)

inductive Effect
  | stored (caller : Option Nat) (roomId : String) (msg : Message)
  | cleared (roomId : String)
  | restarted
  | announced (pid : Nat) (roomId : String) (msg : ShownMessage)
  | accepted (pid : Nat) (id : String)
  | typing (pid : Nat) (roomId userId : String) (now : Int)
  | history (pid : Nat) (roomId : String) (limit : Int) (messages : List ShownMessage)
  | refused (pid : Nat) (reason : String)

/-- A message of a client, with the id and the time that are drawn for it. -/
inductive Incoming
  | textSend (params : JsonMap) (id : String) (timestamp : DateTime)
  | textTyping (now : Int)
  | textHistory (params : JsonMap)

/-- The store's table and mailbox, the channel processes, and what has been done, in order. -/
structure World where
  table : MessageTable
  mailbox : List StoreCall
  channels : FiniteMap Nat Channel
  log : List Effect

inductive Event
  | join (pid : Nat) (userId roomId : String) (isGuest : Bool)
  | receive (pid : Nat) (incoming : Incoming)
  | proceed (pid : Nat)
  | terminate (pid : Nat)
  | post (roomId : String) (msg : Message)
  | clearRoom (roomId : String)
  | serve
  | restart

namespace World

def init : World := ⟨∅, [], ∅, []⟩

variable (w : World)

def place (pid : Nat) (channel : Channel) : World := { w with channels := w.channels.insert pid channel }

def record (effect : Effect) : World := { w with log := w.log ++ [effect] }

def send (call : StoreCall) : World := { w with mailbox := w.mailbox ++ [call] }

def textSend (pid : Nat) (socket : Socket) (body id : String) (timestamp : DateTime) : World :=
  if hasPermission (getUserPermissions socket) .text then
    let msg : Message := ⟨id, socket.userId, body, timestamp⟩
    (w.send (.store (some pid) socket.roomId msg)).place pid ⟨socket, .calling msg⟩
  else w.record (.refused pid "no_text_permission")

def handleIn (pid : Nat) (socket : Socket) : Incoming → World
  | .textSend params id timestamp =>
    match params.lookup "body" with
    | some (.string body) =>
      if 0 < body.utf8ByteSize ∧ body.utf8ByteSize ≤ 4096 then w.textSend pid socket body id timestamp
      else w.record (.refused pid "invalid_text_payload")
    | _ => w.record (.refused pid "invalid_text_payload")
  | .textTyping now =>
    if socket.typingDue now then
      (w.record (.typing pid socket.roomId socket.userId now)).place pid
        ⟨{ socket with lastTypingBroadcastMs := some now }, .idle⟩
    else w
  | .textHistory params =>
    match params.lookup "limit" with
    | some (.integer limitRaw) =>
      if 0 < limitRaw then
        let messages := w.table.getMessages socket.roomId (min limitRaw 200).toNat
        w.record (.history pid socket.roomId limitRaw (messages.map Message.shown))
      else w.record (.refused pid "invalid_history_params")
    | _ => w.record (.refused pid "invalid_history_params")

/-- A caller that is no more is not told. -/
def answer (caller : Option Nat) : World :=
  match caller with
  | none => w
  | some pid =>
    match w.channels.lookup pid with
    | some ⟨socket, .calling msg⟩ => w.place pid ⟨socket, .stored msg⟩
    | _ => w

def handleCall : StoreCall → World
  | .store caller roomId msg =>
    ({ w with table := w.table.store roomId msg }.record (.stored caller roomId msg)).answer caller
  | .clear roomId => { w with table := w.table.erase roomId }.record (.cleared roomId)

def next : Event → Option World
  | .join pid userId roomId isGuest =>
    if w.channels.lookup pid = none then some (w.place pid ⟨⟨userId, roomId, isGuest, none⟩, .idle⟩) else none
  | .receive pid incoming =>
    match w.channels.lookup pid with
    | some ⟨socket, .idle⟩ => some (w.handleIn pid socket incoming)
    | _ => none
  | .proceed pid =>
    match w.channels.lookup pid with
    | some ⟨socket, .stored msg⟩ =>
      some ((w.record (.announced pid socket.roomId msg.shown)).place pid ⟨socket, .announced msg.id⟩)
    | some ⟨socket, .announced id⟩ => some ((w.record (.accepted pid id)).place pid ⟨socket, .idle⟩)
    | _ => none
  | .terminate pid => (w.channels.lookup pid).map fun channel => w.place pid { channel with phase := .gone }
  | .post roomId msg =>
    if msg.body.utf8ByteSize = 0 ∨ 2000 < msg.body.utf8ByteSize then some w else some (w.send (.store none roomId msg))
  | .clearRoom roomId => some (w.send (.clear roomId))
  | .serve =>
    match w.mailbox with
    | [] => none
    | call :: rest => some ({ w with mailbox := rest }.handleCall call)
  -- the table is gone with the process that owns it, and so are the calls it had not taken
  | .restart => some ({ w with table := ∅, mailbox := [] }.record .restarted)

end World

def Sends (w : World) (event : Event) (after : World) : Prop := w.next event = some after

end Burble.Text

namespace Burble.Text

/-- Guests and members are given the permission to send text, so nobody is refused for want of it. -/
theorem may_text (socket : Socket) : hasPermission (getUserPermissions socket) .text = true := by
  rw [getUserPermissions]
  split
  · decide
  · decide

/-- What a step can do. -/
inductive Took (w : World) : World → Prop
  | same : Took w w
  | joined {pid userId roomId isGuest} : w.channels.lookup pid = none →
      Took w (w.place pid ⟨⟨userId, roomId, isGuest, none⟩, .idle⟩)
  | asked {pid socket msg} : w.channels.lookup pid = some ⟨socket, .idle⟩ →
      Took w ((w.send (.store (some pid) socket.roomId msg)).place pid ⟨socket, .calling msg⟩)
  | refused {pid reason} : Took w (w.record (.refused pid reason))
  | typed {pid socket now} : w.channels.lookup pid = some ⟨socket, .idle⟩ →
      socket.typingDue now = true →
      Took w ((w.record (.typing pid socket.roomId socket.userId now)).place pid
        ⟨{ socket with lastTypingBroadcastMs := some now }, .idle⟩)
  | showed {pid roomId limit} : 0 < limit → Took w (w.record (.history pid roomId limit
      ((w.table.getMessages roomId (min limit 200).toNat).map Message.shown)))
  | announced {pid socket msg} : w.channels.lookup pid = some ⟨socket, .stored msg⟩ →
      Took w ((w.record (.announced pid socket.roomId msg.shown)).place pid ⟨socket, .announced msg.id⟩)
  | accepted {pid socket id} : w.channels.lookup pid = some ⟨socket, .announced id⟩ →
      Took w ((w.record (.accepted pid id)).place pid ⟨socket, .idle⟩)
  | terminated {pid channel} : w.channels.lookup pid = some channel →
      Took w (w.place pid { channel with phase := .gone })
  | posted {roomId msg} : Took w (w.send (.store none roomId msg))
  | cleared {roomId} : Took w (w.send (.clear roomId))
  | served {call rest} : w.mailbox = call :: rest → Took w ({ w with mailbox := rest }.handleCall call)
  | restarted : Took w ({ w with table := ∅, mailbox := [] }.record .restarted)

variable {w after : World} {pid : Nat} {socket : Socket}

theorem handleIn_took (idle : w.channels.lookup pid = some ⟨socket, .idle⟩) (incoming : Incoming) :
    Took w (w.handleIn pid socket incoming) := by
  cases incoming with
  | textSend params id timestamp =>
    rw [World.handleIn]
    split
    · split
      · rw [World.textSend, if_pos (may_text socket)]
        exact .asked idle
      · exact .refused
    · exact .refused
  | textTyping now =>
    rw [World.handleIn]
    split
    next due => exact .typed idle due
    next => exact .same
  | textHistory params =>
    rw [World.handleIn]
    split
    · split
      next positive => exact .showed positive
      next => exact .refused
    · exact .refused

theorem Sends.took {event : Event} (sends : Sends w event after) : Took w after := by
  cases event with
  | join pid userId roomId isGuest =>
    rw [Sends, World.next] at sends
    split at sends
    next fresh => cases sends; exact .joined fresh
    next => cases sends
  | receive pid incoming =>
    rw [Sends, World.next] at sends
    split at sends
    next socket idle => cases sends; exact handleIn_took idle incoming
    next => cases sends
  | proceed pid =>
    rw [Sends, World.next] at sends
    split at sends
    next socket msg stored => cases sends; exact .announced stored
    next socket id announced => cases sends; exact .accepted announced
    next => cases sends
  | terminate pid =>
    obtain ⟨channel, found, rfl⟩ := Option.map_eq_some_iff.mp sends
    exact .terminated found
  | post roomId msg =>
    rw [Sends, World.next] at sends
    split at sends
    next => cases sends; exact .same
    next => cases sends; exact .posted
  | clearRoom roomId => cases sends; exact .cleared
  | serve =>
    rw [Sends, World.next] at sends
    split at sends
    next => cases sends
    next call rest waiting => cases sends; exact .served waiting
  | restart => cases sends; exact .restarted

end Burble.Text

namespace Burble.Text

namespace Effect

def leaves (roomId : String) (messages : List Message) : Effect → List Message
  | stored _ storedIn msg => if storedIn = roomId then messages ++ [msg] else messages
  | cleared clearedRoom => if clearedRoom = roomId then [] else messages
  | restarted => []
  | _ => messages

/-- What of an effect is the storing of a message for a channel. -/
def storedFor (pid : Nat) : Effect → Option (String × ShownMessage)
  | stored (some caller) roomId msg => if caller = pid then some (roomId, msg.shown) else none
  | _ => none

def announcedBy (pid : Nat) : Effect → Option (String × ShownMessage)
  | announced caller roomId msg => if caller = pid then some (roomId, msg) else none
  | _ => none

def typedBy (pid : Nat) : Effect → Option Int
  | typing caller _ _ now => if caller = pid then some now else none
  | _ => none

end Effect

/-- The messages of a room since it was last cleared, oldest first. -/
def kept (roomId : String) (log : List Effect) : List Message := log.foldl (Effect.leaves roomId) []

/-- The messages stored for a channel, with their rooms. -/
def storedFor (pid : Nat) (log : List Effect) : List (String × ShownMessage) := log.filterMap (Effect.storedFor pid)

def announcedBy (pid : Nat) (log : List Effect) : List (String × ShownMessage) := log.filterMap (Effect.announcedBy pid)

/-- The times of the typing indicators that a channel sent. -/
def typedBy (pid : Nat) (log : List Effect) : List Int := log.filterMap (Effect.typedBy pid)

@[simp] theorem kept_snoc (roomId : String) (log : List Effect) (effect : Effect) :
    kept roomId (log ++ [effect]) = effect.leaves roomId (kept roomId log) := by
  rw [kept, List.foldl_append]
  rfl

@[simp] theorem storedFor_snoc (pid : Nat) (log : List Effect) (effect : Effect) :
    storedFor pid (log ++ [effect]) = storedFor pid log ++ (effect.storedFor pid).toList := by
  rw [storedFor, List.filterMap_append]
  rfl

@[simp] theorem announcedBy_snoc (pid : Nat) (log : List Effect) (effect : Effect) :
    announcedBy pid (log ++ [effect]) = announcedBy pid log ++ (effect.announcedBy pid).toList := by
  rw [announcedBy, List.filterMap_append]
  rfl

@[simp] theorem typedBy_snoc (pid : Nat) (log : List Effect) (effect : Effect) :
    typedBy pid (log ++ [effect]) = typedBy pid log ++ (effect.typedBy pid).toList := by
  rw [typedBy, List.filterMap_append]
  rfl

namespace World
variable (w : World) (caller : Option Nat)

/-- A caller that waits is told that its message is stored, and nothing else is done. -/
theorem answer_cases : w.answer caller = w ∨ ∃ pid socket msg, caller = some pid ∧
    w.channels.lookup pid = some ⟨socket, .calling msg⟩ ∧ w.answer caller = w.place pid ⟨socket, .stored msg⟩ := by
  unfold answer
  split
  next => exact .inl rfl
  next pid =>
    split
    next socket msg calling => exact .inr ⟨pid, socket, msg, rfl, calling, rfl⟩
    next => exact .inl rfl

@[simp] theorem answer_table : (w.answer caller).table = w.table := by
  rcases w.answer_cases caller with same | ⟨_, _, _, _, _, told⟩
  · rw [same]
  · rw [told]
    rfl

@[simp] theorem answer_mailbox : (w.answer caller).mailbox = w.mailbox := by
  rcases w.answer_cases caller with same | ⟨_, _, _, _, _, told⟩
  · rw [same]
  · rw [told]
    rfl

@[simp] theorem answer_log : (w.answer caller).log = w.log := by
  rcases w.answer_cases caller with same | ⟨_, _, _, _, _, told⟩
  · rw [same]
  · rw [told]
    rfl

end World

variable {w after : World} {log : List Effect} {effect : Effect} {events : List Event} {pid : Nat}

theorem Took.log_cases (took : Took w after) : after.log = w.log ∨ ∃ effect, after.log = w.log ++ [effect] := by
  cases took with
  | same | joined _ | asked _ | terminated _ | posted | cleared => exact .inl rfl
  | refused | typed _ _ | showed _ | announced _ | accepted _ | restarted => exact .inr ⟨_, rfl⟩
  | @served call rest _ =>
    cases call with
    | store caller roomId msg => exact .inr ⟨_, World.answer_log ..⟩
    | clear roomId => exact .inr ⟨_, rfl⟩

/-- Whatever had been done at some time was done in some state of the run. -/
theorem log_reached {past : List Event} (run : Run Sends World.init past w) {before : List Effect}
    (front : before <+: w.log) : ∃ past reached, Run Sends World.init past reached ∧ reached.log = before := by
  induction run with
  | start => exact ⟨[], World.init, .start, (List.prefix_nil.mp front).symm⟩
  | @next past current event after run sends ih =>
    rcases sends.took.log_cases with same | ⟨effect, grown⟩
    · rw [same] at front
      exact ih front
    · rw [grown, List.prefix_concat_iff] at front
      rcases front with rfl | earlier
      · exact ⟨past ++ [event], after, run.next sends, grown⟩
      · exact ih earlier

/-- Whoever is shown the history is shown the newest messages that are kept. -/
def Effect.Faithful (past : List Effect) : Effect → Prop
  | .history _ roomId limit messages =>
    0 < limit ∧ messages = ((kept roomId past).reverse.take (min limit 200).toNat).map Message.shown
  | _ => True

/-- The table holds the newest messages of each room. -/
structure Keeps (w : World) : Prop where
  table (roomId : String) : (w.table.lookup roomId).getD [] = (kept roomId w.log).reverse.take 500
  histories : EachAfter Effect.Faithful [] w.log

theorem Keeps.same (keeps : Keeps w) (table : after.table = w.table) (log : after.log = w.log) : Keeps after where
  table roomId := by rw [table, log, keeps.table]
  histories := by rw [log]; exact keeps.histories

theorem Keeps.noted (keeps : Keeps w) (table : after.table = w.table) (log : after.log = w.log ++ [effect])
    (quiet : ∀ roomId messages, effect.leaves roomId messages = messages) (faithful : effect.Faithful w.log) :
    Keeps after where
  table roomId := by rw [table, log, kept_snoc, quiet, keeps.table]
  histories := by rw [log]; exact EachAfter.append_iff.mpr ⟨keeps.histories, faithful, trivial⟩

theorem Keeps.getMessages (keeps : Keeps w) (roomId : String) {limit : Nat} (small : limit ≤ 500) :
    w.table.getMessages roomId limit = (kept roomId w.log).reverse.take limit := by
  rw [MessageTable.getMessages, keeps.table, List.take_take, Nat.min_eq_left small]

theorem Keeps.handleCall (keeps : Keeps w) (call : StoreCall) : Keeps (w.handleCall call) := by
  cases call with
  | store caller roomId msg =>
    have stored : Keeps ({ w with table := w.table.store roomId msg }.record (.stored caller roomId msg)) := by
      refine ⟨fun other => ?_, EachAfter.append_iff.mpr ⟨keeps.histories, trivial, trivial⟩⟩
      simp only [World.record, kept_snoc, Effect.leaves, MessageTable.store, FiniteMap.lookup_insert_if]
      by_cases here : other = roomId
      · subst here
        rw [if_pos rfl, if_pos rfl, Option.getD_some, keeps.table, List.reverse_append]
        simp only [List.reverse_singleton, List.singleton_append, MessageTable.maxMessagesPerRoom]
        rw [List.take_succ_cons, List.take_succ_cons, List.take_take]
        rfl
      · rw [if_neg here, if_neg (Ne.symm here), keeps.table]
    exact stored.same (World.answer_table ..) (World.answer_log ..)
  | clear roomId =>
    refine ⟨fun other => ?_, EachAfter.append_iff.mpr ⟨keeps.histories, trivial, trivial⟩⟩
    simp only [World.handleCall, World.record, kept_snoc, Effect.leaves, FiniteMap.lookup_erase_if]
    by_cases here : other = roomId
    · rw [if_pos here, if_pos here.symm]
      rfl
    · rw [if_neg here, if_neg (Ne.symm here), keeps.table]

theorem Keeps.step (keeps : Keeps w) (took : Took w after) : Keeps after := by
  cases took with
  | same | joined _ | asked _ | terminated _ | posted | cleared => exact keeps.same rfl rfl
  | refused | typed _ _ | announced _ | accepted _ => exact keeps.noted rfl rfl (fun _ _ => rfl) trivial
  | @showed pid roomId limit positive =>
    refine keeps.noted rfl rfl (fun _ _ => rfl) ⟨positive, ?_⟩
    rw [keeps.getMessages roomId (by omega)]
  | @served call rest _ =>
    have taken : Keeps { w with mailbox := rest } := keeps.same rfl rfl
    exact taken.handleCall call
  | restarted =>
    refine ⟨fun roomId => ?_, EachAfter.append_iff.mpr ⟨keeps.histories, trivial, trivial⟩⟩
    rw [World.record, kept_snoc]
    rfl

theorem keeps_reached (run : Run Sends World.init events w) : Keeps w :=
  run.invariant ⟨fun _ => rfl, trivial⟩ fun keeps sends => keeps.step sends.took

/-- What a call in the mailbox will have stored for a channel. -/
def StoreCall.callFor (pid : Nat) : StoreCall → Option (String × ShownMessage)
  | .store (some caller) roomId msg => if caller = pid then some (roomId, msg.shown) else none
  | _ => none

def callsFor (pid : Nat) (mailbox : List StoreCall) : List (String × ShownMessage) := mailbox.filterMap (StoreCall.callFor pid)

@[simp] theorem callsFor_snoc (pid : Nat) (mailbox : List StoreCall) (call : StoreCall) :
    callsFor pid (mailbox ++ [call]) = callsFor pid mailbox ++ (call.callFor pid).toList := by
  rw [callsFor, List.filterMap_append]
  rfl

theorem callsFor_cons (pid : Nat) (mailbox : List StoreCall) (call : StoreCall) :
    callsFor pid (call :: mailbox) = (call.callFor pid).toList ++ callsFor pid mailbox := by
  rw [callsFor, List.filterMap_cons]
  cases call.callFor pid with
  | none => rfl
  | some said => rfl

/-- What a channel owes its room, where some messages are stored and not announced and some calls are on their way. -/
def Channel.Owes (unsaid calls : List (String × ShownMessage)) (channel : Channel) : Prop :=
  match channel.phase with
  | .idle | .announced _ => unsaid = [] ∧ calls = []
  | .calling msg => unsaid = [] ∧ (calls = [] ∨ calls = [(channel.socket.roomId, msg.shown)])
  | .stored msg => unsaid = [(channel.socket.roomId, msg.shown)] ∧ calls = []
  | .gone => unsaid.length + calls.length ≤ 1

def Owes (unsaid calls : List (String × ShownMessage)) : Option Channel → Prop
  | none => unsaid = [] ∧ calls = []
  | some channel => channel.Owes unsaid calls

theorem Owes.few {unsaid calls : List (String × ShownMessage)} {channel : Option Channel} (owes : Owes unsaid calls channel) :
    unsaid.length + calls.length ≤ 1 := by
  cases channel with
  | none =>
    obtain ⟨rfl, rfl⟩ := owes
    exact Nat.zero_le 1
  | some channel =>
    obtain ⟨socket, phase⟩ := channel
    cases phase with
    | idle | announced _ =>
      obtain ⟨rfl, rfl⟩ := owes
      exact Nat.zero_le 1
    | calling _ =>
      obtain ⟨rfl, rfl | rfl⟩ := owes
      · exact Nat.zero_le 1
      · exact le_rfl
    | stored _ =>
      obtain ⟨rfl, rfl⟩ := owes
      exact le_rfl
    | gone => exact owes

/-- Calls can be lost without a debt. -/
theorem Owes.lost {unsaid calls : List (String × ShownMessage)} {channel : Option Channel} (owes : Owes unsaid calls channel) :
    Owes unsaid [] channel := by
  cases channel with
  | none => exact ⟨owes.1, rfl⟩
  | some channel =>
    obtain ⟨socket, phase⟩ := channel
    cases phase with
    | idle | announced _ | stored _ => exact ⟨owes.1, rfl⟩
    | calling _ => exact ⟨owes.1, .inl rfl⟩
    | gone => exact (Nat.le_add_right ..).trans owes

/-- A channel has announced what was stored for it, in that order, but for what it owes. -/
def InStep (pid : Nat) (w : World) : Prop :=
  ∃ unsaid, storedFor pid w.log = announcedBy pid w.log ++ unsaid ∧
    Owes unsaid (callsFor pid w.mailbox) (w.channels.lookup pid)

theorem InStep.same (inStep : InStep pid w) (channel : after.channels.lookup pid = w.channels.lookup pid)
    (calls : callsFor pid after.mailbox = callsFor pid w.mailbox) (stored : storedFor pid after.log = storedFor pid w.log)
    (announced : announcedBy pid after.log = announcedBy pid w.log) : InStep pid after := by
  rw [InStep, channel, calls, stored, announced]
  exact inStep

theorem lookup_place (w : World) (placed pid : Nat) (channel : Channel) :
    (w.place placed channel).channels.lookup pid = if pid = placed then some channel else w.channels.lookup pid :=
  FiniteMap.lookup_insert_if ..

theorem InStep.noted (inStep : InStep pid w) (stored : effect.storedFor pid = none)
    (announced : effect.announcedBy pid = none) : InStep pid (w.record effect) := by
  refine inStep.same rfl rfl ?_ ?_
  · rw [World.record, storedFor_snoc, stored, Option.toList_none, List.append_nil]
  · rw [World.record, announcedBy_snoc, announced, Option.toList_none, List.append_nil]

theorem InStep.elsewhere {placed : Nat} (inStep : InStep pid w) (other : pid ≠ placed) (channel : Channel) :
    InStep pid (w.place placed channel) := by
  refine inStep.same ?_ rfl rfl rfl
  rw [lookup_place, if_neg other]

/-- The step of a channel changes what it owes, and nothing for the others. -/
theorem InStep.place {placed : Nat} {channel : Channel} (inStep : InStep pid w)
    (owed : ∀ unsaid, storedFor placed w.log = announcedBy placed w.log ++ unsaid →
      Owes unsaid (callsFor placed w.mailbox) (w.channels.lookup placed) → channel.Owes unsaid (callsFor placed w.mailbox)) :
    InStep pid (w.place placed channel) := by
  by_cases own : pid = placed
  · subst own
    obtain ⟨unsaid, said, owes⟩ := inStep
    refine ⟨unsaid, said, ?_⟩
    rw [lookup_place, if_pos rfl]
    exact owed unsaid said owes
  · exact inStep.elsewhere own channel

theorem callFor_other {caller : Option Nat} {roomId : String} {msg : Message} (other : caller ≠ some pid) :
    (StoreCall.store caller roomId msg).callFor pid = none ∧ (Effect.stored caller roomId msg).storedFor pid = none := by
  cases caller with
  | none => exact ⟨rfl, rfl⟩
  | some caller =>
    have different : caller ≠ pid := fun same => other (congrArg some same)
    exact ⟨if_neg different, if_neg different⟩

/-- A message is stored for the channel that called, which is told unless it is no more. -/
theorem InStep.stored {rest : List StoreCall} {table : MessageTable} {roomId : String} {msg : Message} (inStep : InStep pid w)
    (calls : callsFor pid w.mailbox = (roomId, msg.shown) :: callsFor pid rest) :
    InStep pid (({ w with table := table, mailbox := rest }.record (.stored (some pid) roomId msg)).answer (some pid)) := by
  obtain ⟨unsaid, said, owes⟩ := inStep
  rw [calls] at owes
  have grown : storedFor pid (w.log ++ [.stored (some pid) roomId msg]) =
      announcedBy pid (w.log ++ [.stored (some pid) roomId msg]) ++ (unsaid ++ [(roomId, msg.shown)]) := by
    rw [storedFor_snoc, announcedBy_snoc, said, Effect.storedFor, if_pos rfl]
    simp only [Effect.announcedBy, Option.toList_some, Option.toList_none, List.append_nil, List.append_assoc]
  cases found : w.channels.lookup pid with
  | none =>
    rw [found] at owes
    cases owes.2
  | some channel =>
    obtain ⟨socket, phase⟩ := channel
    rw [found] at owes
    cases phase with
    | idle | announced _ | stored _ => cases owes.2
    | calling asked =>
      obtain ⟨rfl, none | one⟩ := owes
      · cases none
      · obtain ⟨same, last⟩ := List.cons.inj one
        refine ⟨_, by rw [World.answer_log]; exact grown, ?_⟩
        rw [World.answer_mailbox, World.answer]
        simp only [World.record, found, lookup_place, if_pos]
        rw [same, last]
        exact ⟨rfl, rfl⟩
    | gone =>
      refine ⟨_, by rw [World.answer_log]; exact grown, ?_⟩
      rw [World.answer_mailbox, World.answer]
      simp only [World.record, found]
      have few : unsaid.length + (callsFor pid rest).length.succ ≤ 1 := owes
      show (unsaid ++ [(roomId, msg.shown)]).length + (callsFor pid rest).length ≤ 1
      rw [List.length_append, List.length_singleton]
      omega

theorem InStep.answered {caller : Option Nat} (inStep : InStep pid w) (other : caller ≠ some pid) :
    InStep pid (w.answer caller) := by
  rcases w.answer_cases caller with same | ⟨told, socket, msg, rfl, _, placed⟩
  · rw [same]
    exact inStep
  · rw [placed]
    exact inStep.elsewhere (fun own => other (congrArg some own.symm)) _

theorem InStep.handleCall {call : StoreCall} {rest : List StoreCall} (inStep : InStep pid w)
    (waiting : w.mailbox = call :: rest) : InStep pid ({ w with mailbox := rest }.handleCall call) := by
  have calls : callsFor pid w.mailbox = (call.callFor pid).toList ++ callsFor pid rest := by rw [waiting, callsFor_cons]
  cases call with
  | clear roomId =>
    have taken : InStep pid { w with mailbox := rest } := inStep.same rfl calls.symm rfl rfl
    exact taken.noted rfl rfl
  | store caller roomId msg =>
    by_cases own : caller = some pid
    · subst own
      rw [StoreCall.callFor, if_pos rfl] at calls
      exact inStep.stored calls
    · obtain ⟨uncalled, unstored⟩ := @callFor_other pid caller roomId msg own
      rw [uncalled] at calls
      have taken : InStep pid { w with table := w.table.store roomId msg, mailbox := rest } :=
        inStep.same rfl calls.symm rfl rfl
      exact (taken.noted unstored rfl).answered own

theorem InStep.step (inStep : InStep pid w) (took : Took w after) : InStep pid after := by
  cases took with
  | same => exact inStep
  | joined fresh =>
    refine inStep.place fun unsaid _ owes => ?_
    rw [fresh] at owes
    exact owes
  | @asked asking socket msg idle =>
    by_cases own : pid = asking
    · subst own
      obtain ⟨unsaid, said, owes⟩ := inStep
      rw [idle] at owes
      obtain ⟨rfl, none⟩ := owes
      refine ⟨[], said, ?_⟩
      rw [lookup_place, if_pos rfl]
      refine ⟨rfl, .inr ?_⟩
      simp only [World.place, World.send, callsFor_snoc, none, StoreCall.callFor, if_pos]
      rfl
    · have sent : InStep pid (w.send (.store (some asking) socket.roomId msg)) := by
        refine inStep.same rfl ?_ rfl rfl
        simp only [World.send, callsFor_snoc, StoreCall.callFor, if_neg (Ne.symm own), Option.toList_none, List.append_nil]
      exact sent.elsewhere own _
  | refused | showed _ => exact inStep.noted rfl rfl
  | typed idle _ =>
    refine InStep.place (inStep.noted rfl rfl) fun unsaid _ owes => ?_
    rw [World.record, idle] at owes
    exact owes
  | @announced speaking socket msg stored =>
    by_cases own : pid = speaking
    · subst own
      obtain ⟨unsaid, said, owes⟩ := inStep
      rw [stored] at owes
      obtain ⟨rfl, none⟩ := owes
      refine ⟨[], ?_, ?_⟩
      · simp only [World.place, World.record, storedFor_snoc, announcedBy_snoc, Effect.storedFor, Effect.announcedBy, if_pos,
          Option.toList_none, Option.toList_some, List.append_nil, said]
      · rw [lookup_place, if_pos rfl]
        exact ⟨rfl, none⟩
    · have noted : InStep pid (w.record (.announced speaking socket.roomId msg.shown)) :=
        inStep.noted rfl (if_neg (Ne.symm own))
      exact noted.elsewhere own _
  | accepted announced =>
    refine InStep.place (inStep.noted rfl rfl) fun unsaid _ owes => ?_
    rw [World.record, announced] at owes
    exact owes
  | @terminated leaving channel found =>
    refine inStep.place fun unsaid _ owes => owes.few
  | posted | cleared => exact inStep.same rfl (by rw [World.send, callsFor_snoc]; exact List.append_nil _) rfl rfl
  | served waiting => exact inStep.handleCall waiting
  | restarted =>
    obtain ⟨unsaid, said, owes⟩ := inStep
    have lost : InStep pid { w with table := ∅, mailbox := [] } := ⟨unsaid, said, owes.lost⟩
    exact lost.noted rfl rfl

theorem in_step (run : Run Sends World.init events w) (pid : Nat) : InStep pid w := by
  refine run.invariant ⟨[], rfl, rfl, rfl⟩ ?_
  intro before event after inStep sends
  exact inStep.step sends.took

/-- A client that is shown the history misses nothing by what it hears of each channel from there on: it hears at most one
message that was stored before, and all that are stored later but for the last, which a channel may not have announced. -/
theorem history_completed (run : Run Sends World.init events w) {past later : List Effect} {client : Nat} {roomId : String}
    {limit : Int} {messages : List ShownMessage} (answered : w.log = past ++ .history client roomId limit messages :: later) :
    messages = ((kept roomId past).reverse.take (min limit 200).toNat).map Message.shown ∧
    ∀ pid, ∃ overdue unsaid, overdue.length ≤ 1 ∧ unsaid.length ≤ 1 ∧
      storedFor pid past = announcedBy pid past ++ overdue ∧
      overdue ++ storedFor pid later = announcedBy pid later ++ unsaid ∧
      ∀ socket, w.channels.lookup pid = some ⟨socket, .idle⟩ → unsaid = [] := by
  refine ⟨((keeps_reached run).histories.at_split answered).2, fun pid => ?_⟩
  obtain ⟨_, earlier, reached, same⟩ := log_reached run ⟨_, answered.symm⟩
  obtain ⟨overdue, before, owed⟩ := in_step reached pid
  obtain ⟨unsaid, now, owes⟩ := in_step run pid
  rw [same] at before
  refine ⟨overdue, unsaid, (Nat.le_add_right ..).trans owed.few, (Nat.le_add_right ..).trans owes.few, before, ?_, ?_⟩
  · rw [answered] at now
    have stored : storedFor pid (past ++ .history client roomId limit messages :: later) =
        storedFor pid past ++ storedFor pid later := List.filterMap_append
    have announced : announcedBy pid (past ++ .history client roomId limit messages :: later) =
        announcedBy pid past ++ announcedBy pid later := List.filterMap_append
    rw [stored, announced, before, List.append_assoc, List.append_assoc] at now
    exact List.append_cancel_left now
  · intro socket idle
    rw [idle] at owes
    exact owes.1

def hello : Message := ⟨"1f", "ann", "hello", .firstOfMarch⟩

/-- A guest that comes between the storing of a message and its announcement is shown it, and hears it then. -/
theorem hello_overdue : ∃ overdue unsaid, overdue.length ≤ 1 ∧ unsaid.length ≤ 1 ∧
    overdue ++ storedFor 1 [] = announcedBy 1 [.announced 1 "lobby" hello.shown, .accepted 1 "1f"] ++ unsaid := by
  obtain ⟨w, played, answered⟩ : ∃ w : World, play World.next
      [.join 1 "ann" "lobby" false, .receive 1 (.textSend (Json.toMap [("body", .string "hello")]) "1f" hello.timestamp),
        .serve, .join 2 "bob" "lobby" true, .receive 2 (.textHistory (Json.toMap [("limit", .integer 50)])), .proceed 1, .proceed 1]
      World.init = some w ∧ w.log = [.stored (some 1) "lobby" hello] ++
        .history 2 "lobby" 50 [hello.shown] :: [.announced 1 "lobby" hello.shown, .accepted 1 "1f"] := ⟨_, rfl, rfl⟩
  obtain ⟨overdue, unsaid, few, fewer, _, completed, _⟩ := (history_completed (play_run played) answered).2 1
  exact ⟨overdue, unsaid, few, fewer, completed⟩

/-- Typing indicators of a channel are spaced, and its socket says when another is due. -/
structure Spaced (pid : Nat) (w : World) : Prop where
  spaced : (typedBy pid w.log).Pairwise fun earlier later => earlier + 2000 ≤ later
  silent : w.channels.lookup pid = none → typedBy pid w.log = []
  due {channel : Channel} : w.channels.lookup pid = some channel →
    ∀ now, channel.socket.typingDue now = true ↔ ∀ earlier ∈ typedBy pid w.log, earlier + 2000 ≤ now

theorem Spaced.same (spaced : Spaced pid w) (channels : after.channels.lookup pid = w.channels.lookup pid)
    (typed : typedBy pid after.log = typedBy pid w.log) : Spaced pid after where
  spaced := by rw [typed]; exact spaced.spaced
  silent none := by rw [typed]; exact spaced.silent (channels ▸ none)
  due found := by rw [typed]; exact spaced.due (channels ▸ found)

theorem Spaced.noted (spaced : Spaced pid w) (quiet : effect.typedBy pid = none) : Spaced pid (w.record effect) :=
  spaced.same rfl (by rw [World.record, typedBy_snoc, quiet]; exact List.append_nil _)

theorem Spaced.elsewhere {placed : Nat} (spaced : Spaced pid w) (other : pid ≠ placed) (channel : Channel) :
    Spaced pid (w.place placed channel) := spaced.same (by rw [lookup_place, if_neg other]) rfl

/-- A channel keeps its socket. -/
theorem Spaced.place {placed : Nat} {old channel : Channel} (spaced : Spaced pid w)
    (found : w.channels.lookup placed = some old) (socket : channel.socket = old.socket) :
    Spaced pid (w.place placed channel) := by
  by_cases own : pid = placed
  · subst own
    refine ⟨spaced.spaced, fun none => ?_, fun there => ?_⟩
    · rw [lookup_place, if_pos rfl] at none
      cases none
    · rw [lookup_place, if_pos rfl] at there
      cases there
      rw [socket]
      exact spaced.due found
  · exact spaced.elsewhere own channel

theorem Spaced.answered {caller : Option Nat} (spaced : Spaced pid w) : Spaced pid (w.answer caller) := by
  rcases w.answer_cases caller with same | ⟨told, socket, msg, _, calling, placed⟩
  · rw [same]
    exact spaced
  · rw [placed]
    exact spaced.place calling rfl

theorem typingDue_iff {socket : Socket} {lastTyping now : Int} (last : socket.lastTypingBroadcastMs = some lastTyping) :
    socket.typingDue now = true ↔ lastTyping + 2000 ≤ now := by
  rw [Socket.typingDue, last, Option.all_some, decide_eq_true_eq, typingThrottleMs]
  omega

theorem Spaced.typed {socket : Socket} {now : Int} (spaced : Spaced pid w)
    (found : w.channels.lookup pid = some ⟨socket, .idle⟩) (due : socket.typingDue now = true) :
    Spaced pid ((w.record (.typing pid socket.roomId socket.userId now)).place pid
      ⟨{ socket with lastTypingBroadcastMs := some now }, .idle⟩) := by
  have grown : typedBy pid (w.log ++ [.typing pid socket.roomId socket.userId now]) = typedBy pid w.log ++ [now] := by
    rw [typedBy_snoc, Effect.typedBy, if_pos rfl]
    rfl
  have long := (spaced.due found now).mp due
  constructor
  · simp only [World.place, World.record, grown]
    refine List.pairwise_append.mpr ⟨spaced.spaced, List.pairwise_singleton .., fun earlier member last same => ?_⟩
    rw [List.mem_singleton.mp same]
    exact long earlier member
  · intro none
    rw [lookup_place, if_pos rfl] at none
    cases none
  · intro channel there later
    rw [lookup_place, if_pos rfl] at there
    cases there
    rw [typingDue_iff rfl]
    simp only [World.place, World.record, grown]
    constructor
    · intro enough earlier member
      rcases List.mem_append.mp member with before | last
      · have := long earlier before
        omega
      · rw [List.mem_singleton.mp last]
        omega
    · intro each
      exact each now (List.mem_append_right _ (List.mem_singleton_self now))

theorem Spaced.step (spaced : Spaced pid w) (took : Took w after) : Spaced pid after := by
  cases took with
  | same => exact spaced
  | @joined joining userId roomId isGuest fresh =>
    by_cases own : pid = joining
    · subst own
      have none := spaced.silent fresh
      refine ⟨spaced.spaced, fun absent => ?_, fun there now => ?_⟩
      · rw [lookup_place, if_pos rfl] at absent
        cases absent
      · rw [lookup_place, if_pos rfl] at there
        cases there
        simp [World.place, none, Socket.typingDue]
    · exact spaced.elsewhere own _
  | @asked asking socket msg idle =>
    have sent : Spaced pid (w.send (.store (some asking) socket.roomId msg)) := spaced.same rfl rfl
    exact sent.place idle rfl
  | refused | showed _ => exact spaced.noted rfl
  | @typed typing socket now idle due =>
    by_cases own : pid = typing
    · subst own
      exact spaced.typed idle due
    · have noted : Spaced pid (w.record (.typing typing socket.roomId socket.userId now)) :=
        spaced.noted (if_neg (Ne.symm own))
      exact noted.elsewhere own _
  | announced stored => exact (spaced.noted rfl).place stored rfl
  | accepted announced => exact (spaced.noted rfl).place announced rfl
  | terminated found => exact spaced.place found rfl
  | posted | cleared => exact spaced.same rfl rfl
  | @served call rest waiting =>
    cases call with
    | store caller roomId msg =>
      have taken : Spaced pid { w with table := w.table.store roomId msg, mailbox := rest } := spaced.same rfl rfl
      exact (taken.noted rfl).answered
    | clear roomId =>
      have taken : Spaced pid { w with table := w.table.erase roomId, mailbox := rest } := spaced.same rfl rfl
      exact taken.noted rfl
  | restarted =>
    have lost : Spaced pid { w with table := ∅, mailbox := [] } := spaced.same rfl rfl
    exact lost.noted rfl

/-- The typing indicators of a channel are two seconds apart or more, and one is sent on whenever that long has passed. -/
theorem typing_throttled (run : Run Sends World.init events w) (pid : Nat) :
    (typedBy pid w.log).Pairwise (fun earlier later => earlier + 2000 ≤ later) ∧
    ∀ {now : Int} {after : World}, Sends w (.receive pid (.textTyping now)) after →
      (typedBy pid after.log = typedBy pid w.log ++ [now] ↔ ∀ earlier ∈ typedBy pid w.log, earlier + 2000 ≤ now) := by
  have spaced : Spaced pid w := by
    refine run.invariant ⟨.nil, fun _ => rfl, fun found => by cases found⟩ ?_
    intro before event after spaced sends
    exact spaced.step sends.took
  refine ⟨spaced.spaced, fun {now after} sends => ?_⟩
  rw [Sends, World.next] at sends
  split at sends
  next socket idle =>
    cases sends
    rw [← spaced.due idle, World.handleIn]
    split
    next due =>
      refine iff_of_true ?_ due
      rw [World.place, World.record, typedBy_snoc, Effect.typedBy, if_pos rfl]
      rfl
    next early =>
      refine iff_of_false (fun grown => ?_) early
      simpa using congrArg List.length grown
  next => cases sends

theorem ann_types : ∃ w : World, typedBy 1 w.log = [0, 2000] ∧
    (typedBy 1 w.log).Pairwise fun earlier later => earlier + 2000 ≤ later := by
  obtain ⟨w, played, typed⟩ : ∃ w : World, play World.next
      [.join 1 "ann" "lobby" false, .receive 1 (.textTyping 0), .receive 1 (.textTyping 1999), .receive 1 (.textTyping 2000)]
      World.init = some w ∧ typedBy 1 w.log = [0, 2000] := ⟨_, rfl, rfl⟩
  exact ⟨w, typed, (typing_throttled (play_run played) 1).1⟩

end Burble.Text
