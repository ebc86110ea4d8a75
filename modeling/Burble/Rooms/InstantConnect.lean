import Burble.Rooms.Room

namespace Burble.Rooms.InstantConnect

abbrev Code := String

/-- Who asks to be let in. -/
structure Pending where
  name : String
  requestedAt : Int
  deriving DecidableEq

/-- A connect token. Times are in microseconds. -/
structure Token where
  code : Code
  creatorId : UserId
  creatorName : String
  roomId : Option RoomId
  groupInvite : Bool
  maxUses : Nat
  uses : Nat
  requiresConfirmation : Bool
  expiresAt : Int
  createdAt : Int
  pendingConfirmations : FiniteMap UserId Pending

/-- What a token is created with. -/
structure CreateOpts where
  roomId : Option RoomId := none
  groupInvite : Option Bool := none
  maxUses : Option Nat := none
  ttlSeconds : Option Int := none
  requiresConfirmation : Option Bool := none
  creatorName : Option String := none

inductive ConnectError
  | notFound
  | expired
  | exhausted
  | cannotJoinOwnToken
  | noPendingRequest
  | roomCreationFailed
  | room (reason : RoomError)
  deriving DecidableEq, Repr

inductive Reply
  | created (token : Token)
  | connected (roomId : RoomId)
  | pending (token : Token)
  | ok
  | error (error : ConnectError)

structure State where
  tokens : FiniteMap Code Token
  rooms : RoomRegistry

def defaultTtlSeconds : Int := 300

namespace Token

def Expired (token : Token) (now : Int) : Prop := token.expiresAt < now

def Exhausted (token : Token) : Prop := token.maxUses ≤ token.uses

instance (token : Token) (now : Int) : Decidable (token.Expired now) := inferInstanceAs (Decidable (_ < _))

instance (token : Token) : Decidable token.Exhausted := inferInstanceAs (Decidable (_ ≤ _))

def new (code : Code) (creatorId : UserId) (opts : CreateOpts) (now : Int) : Token where
  code := code
  creatorId := creatorId
  creatorName := opts.creatorName.getD "Unknown"
  roomId := opts.roomId
  groupInvite := opts.groupInvite.getD false
  maxUses := opts.maxUses.getD (if opts.groupInvite.getD false then 50 else 1)
  uses := 0
  requiresConfirmation := opts.requiresConfirmation.getD true
  expiresAt := now + opts.ttlSeconds.getD defaultTtlSeconds * 1000000
  createdAt := now
  pendingConfirmations := ∅

end Token

/-- `RoomManager.create_adhoc_room`, with the name that has been drawn for the room. -/
def createAdhocRoom (rooms : RoomRegistry) (creatorName : String) (drawn : RoomId) (supervisorUp : Bool) :
    Option RoomId × RoomRegistry :=
  match rooms.startRoom drawn (creatorName ++ "'s Room") supervisorUp with
  | (.ok _, rooms) => (some drawn, rooms)
  | (.error _, rooms) => (none, rooms)

/-- The second half of `connect_user`, once there is a room to join. -/
def connectTo (rooms : RoomRegistry) (token : Token) (joiningUserId : UserId) (joiningUserName : String)
    (roomId : RoomId) (supervisorUp : Bool) : Except ConnectError (RoomId × Token) × RoomRegistry :=
  match rooms.managerJoin roomId joiningUserId (some joiningUserName) supervisorUp with
  | (.ok _, rooms) => (.ok (roomId, { token with uses := token.uses + 1, roomId := some roomId }), rooms)
  | (.error reason, rooms) => (.error (.room reason), rooms)

def connectUser (rooms : RoomRegistry) (token : Token) (joiningUserId : UserId) (joiningUserName : String)
    (drawn : RoomId) (supervisorUp : Bool) : Except ConnectError (RoomId × Token) × RoomRegistry :=
  let found := match token.roomId with
    | some roomId => (some roomId, rooms)
    | none => createAdhocRoom rooms token.creatorName drawn supervisorUp
  match found with
  | (none, rooms) => (.error .roomCreationFailed, rooms)
  | (some roomId, rooms) => connectTo rooms token joiningUserId joiningUserName roomId supervisorUp

inductive Label
  | create (code : Code) (creatorId : UserId) (opts : CreateOpts)
  | redeem (code : Code) (joiningUserId : UserId) (joiningUserName : String) (drawn : RoomId) (supervisorUp : Bool)
  | confirm (code : Code) (joiningUserId : UserId) (drawn : RoomId) (supervisorUp : Bool)
  | reject (code : Code) (joiningUserId : UserId)
  | cleanup
  | rooms (label : RoomLabel)

namespace State

def putToken (state : State) (code : Code) (token : Token) : State :=
  { state with tokens := AList.insert code token state.tokens }

def create (state : State) (code : Code) (creatorId : UserId) (opts : CreateOpts) (now : Int) : Reply × State :=
  let token := Token.new code creatorId opts now
  (.created token, state.putToken code token)

def redeem (state : State) (code : Code) (joiningUserId : UserId) (joiningUserName : String) (drawn : RoomId)
    (supervisorUp : Bool) (now : Int) : Reply × State :=
  match state.tokens.lookup code with
  | none => (.error .notFound, state)
  | some token =>
    if token.Expired now then (.error .expired, state)
    else if token.Exhausted then (.error .exhausted, state)
    else if token.creatorId = joiningUserId then (.error .cannotJoinOwnToken, state)
    else if token.requiresConfirmation then
      let updated := { token with
        pendingConfirmations := AList.insert joiningUserId ⟨joiningUserName, now⟩ token.pendingConfirmations }
      (.pending updated, state.putToken code updated)
    else
      match connectUser state.rooms token joiningUserId joiningUserName drawn supervisorUp with
      | (.ok (roomId, updated), rooms) => (.connected roomId, { state with rooms }.putToken code updated)
      | (.error reason, rooms) => (.error reason, { state with rooms })

def confirm (state : State) (code : Code) (joiningUserId : UserId) (drawn : RoomId) (supervisorUp : Bool) :
    Reply × State :=
  match state.tokens.lookup code with
  | none => (.error .notFound, state)
  | some token =>
    match token.pendingConfirmations.lookup joiningUserId with
    | none => (.error .noPendingRequest, state)
    | some pendingInfo =>
      match connectUser state.rooms token joiningUserId pendingInfo.name drawn supervisorUp with
      | (.ok (roomId, updated), rooms) =>
        let final := { updated with pendingConfirmations := AList.erase joiningUserId updated.pendingConfirmations }
        (.connected roomId, { state with rooms }.putToken code final)
      | (.error reason, rooms) => (.error reason, { state with rooms })

def reject (state : State) (code : Code) (joiningUserId : UserId) : Reply × State :=
  match state.tokens.lookup code with
  | none => (.error .notFound, state)
  | some token =>
    (.ok, state.putToken code { token with
      pendingConfirmations := AList.erase joiningUserId token.pendingConfirmations })

def cleanup (state : State) (now : Int) : State :=
  { state with tokens := state.tokens.filterValues fun token => !decide (token.Expired now) }

def handle (state : State) (now : Int) : Label → Reply × State
  | .create code creatorId opts => state.create code creatorId opts now
  | .redeem code joiningUserId joiningUserName drawn supervisorUp =>
    state.redeem code joiningUserId joiningUserName drawn supervisorUp now
  | .confirm code joiningUserId drawn supervisorUp => state.confirm code joiningUserId drawn supervisorUp
  | .reject code joiningUserId => state.reject code joiningUserId
  | .cleanup => (.ok, state.cleanup now)
  | .rooms label => (.ok, { state with rooms := roomStep state.rooms label })

end State
end Burble.Rooms.InstantConnect
