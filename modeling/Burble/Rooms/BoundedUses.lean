import Burble.Rooms.InstantConnect

namespace Burble.Rooms

namespace RoomRegistry

/-- The room takes another user, or can be started. -/
def Takes (rooms : RoomRegistry) (roomId : RoomId) (userId : UserId) (supervisorUp : Bool) : Prop :=
  match rooms.lookup roomId with
  | some room => room.participants.lookup userId = none ∧ room.participants.size < room.maxParticipants
  | none => supervisorUp = true

theorem join_ok_iff (room : Room) (userId : UserId) (displayName : Option String) :
    (∃ summary, (room.join userId displayName).1 = .ok summary) ↔
      room.participants.lookup userId = none ∧ room.participants.size < room.maxParticipants := by
  unfold Room.join
  cases there : room.participants.lookup userId with
  | some p => simp
  | none =>
    by_cases full : room.maxParticipants ≤ room.participants.size
    · simp [full]
    · simp [full, Nat.lt_of_not_le full]

theorem managerJoin_ok_iff (rooms : RoomRegistry) (roomId : RoomId) (userId : UserId) (displayName : Option String)
    (supervisorUp : Bool) :
    (∃ summary, (rooms.managerJoin roomId userId displayName supervisorUp).1 = .ok summary) ↔
      rooms.Takes roomId userId supervisorUp := by
  unfold managerJoin ensureRoom Takes
  cases found : rooms.lookup roomId with
  | some room =>
    simp only [join, callRoom, found]
    exact join_ok_iff room userId displayName
  | none =>
    cases supervisorUp with
    | false => simp [startRoom, found]
    | true =>
      simp only [startRoom, found, if_true, join, callRoom, AList.lookup_insert, join_ok_iff]
      exact iff_of_true ⟨rfl, by decide⟩ trivial

end RoomRegistry

namespace InstantConnect

/-- The token's room takes the user, or another room can be made. -/
def Admits (rooms : RoomRegistry) (token : Token) (joiningUserId : UserId) (drawn : RoomId) (supervisorUp : Bool) :
    Prop :=
  match token.roomId with
  | some roomId => rooms.Takes roomId joiningUserId supervisorUp
  | none => rooms.lookup drawn = none ∧ supervisorUp = true

section Connecting
variable (rooms : RoomRegistry) (token : Token) (joiningUserId : UserId) (joiningUserName : String)

theorem connectTo_ok_iff (roomId : RoomId) (supervisorUp : Bool) :
    (∃ connected, (connectTo rooms token joiningUserId joiningUserName roomId supervisorUp).1 = .ok connected) ↔
      rooms.Takes roomId joiningUserId supervisorUp := by
  rw [← RoomRegistry.managerJoin_ok_iff rooms roomId joiningUserId (some joiningUserName), connectTo]
  obtain ⟨reply, after⟩ := rooms.managerJoin roomId joiningUserId (some joiningUserName) supervisorUp
  cases reply <;> simp

theorem connectUser_ok_iff (drawn : RoomId) (supervisorUp : Bool) :
    (∃ connected, (connectUser rooms token joiningUserId joiningUserName drawn supervisorUp).1 = .ok connected) ↔
      Admits rooms token joiningUserId drawn supervisorUp := by
  unfold connectUser Admits
  cases token.roomId with
  | some roomId => exact connectTo_ok_iff rooms token joiningUserId joiningUserName roomId supervisorUp
  | none =>
    simp only [createAdhocRoom, RoomRegistry.startRoom]
    cases found : rooms.lookup drawn with
    | some room => simp
    | none =>
      cases supervisorUp with
      | false => simp
      | true =>
        refine (connectTo_ok_iff _ token joiningUserId joiningUserName drawn true).trans (iff_of_true ?_ ⟨rfl, rfl⟩)
        simp only [RoomRegistry.Takes, AList.lookup_insert]
        exact ⟨rfl, by decide⟩

/-- A connection uses the token once and leaves its limits as they are. -/
theorem connectUser_token {rooms after : RoomRegistry} {token updated : Token} {joiningUserId : UserId}
    {joiningUserName : String} {drawn roomId : RoomId} {supervisorUp : Bool}
    (connected : connectUser rooms token joiningUserId joiningUserName drawn supervisorUp = (.ok (roomId, updated), after)) :
    updated = { token with uses := token.uses + 1, roomId := some roomId } := by
  unfold connectUser at connected
  dsimp only at connected
  split at connected
  · cases connected
  · unfold connectTo at connected
    split at connected
    · simp only [Prod.mk.injEq, Except.ok.injEq] at connected
      obtain ⟨⟨rfl, rfl⟩, _⟩ := connected
      rfl
    · cases connected

end Connecting

/-- The code and the user of a request that may connect him. -/
def Label.joins : Label → Option (Code × UserId)
  | .redeem code joiningUserId _ _ _ => some (code, joiningUserId)
  | .confirm code joiningUserId _ _ => some (code, joiningUserId)
  | _ => none

/-- The limits of a token are those it has been created with. -/
def Token.SameLimits (token other : Token) : Prop := token.maxUses = other.maxUses ∧ token.expiresAt = other.expiresAt

/-- What a request does to the tokens. -/
inductive Effect (tokens : FiniteMap Code Token) (now : Int) : Label → Reply → FiniteMap Code Token → Prop
  | created (code : Code) (creatorId : UserId) (opts : CreateOpts) :
      Effect tokens now (.create code creatorId opts) (.created (.new code creatorId opts now))
        (AList.insert code (.new code creatorId opts now) tokens)
  | kept (label : Label) (reply : Reply) (noConnection : ∀ roomId, reply ≠ .connected roomId)
      (noCreation : ∀ token, reply ≠ .created token) (noCode : ∀ code creatorId opts, label ≠ .create code creatorId opts) :
      Effect tokens now label reply tokens
  | changed (label : Label) (reply : Reply) (code : Code) (token updated : Token) (stored : tokens.lookup code = some token)
      (uses : updated.uses = token.uses) (limits : updated.SameLimits token)
      (noConnection : ∀ roomId, reply ≠ .connected roomId) (noCreation : ∀ token, reply ≠ .created token)
      (noCode : ∀ code creatorId opts, label ≠ .create code creatorId opts) :
      Effect tokens now label reply (AList.insert code updated tokens)
  | connected (label : Label) (roomId : RoomId) (code : Code) (userId : UserId) (token updated : Token)
      (joins : label.joins = some (code, userId)) (stored : tokens.lookup code = some token)
      (uses : updated.uses = token.uses + 1) (limits : updated.SameLimits token)
      (checked : ∀ userName drawn up, label = .redeem code userId userName drawn up →
        ¬ token.Expired now ∧ ¬ token.Exhausted) :
      Effect tokens now label (.connected roomId) (AList.insert code updated tokens)
  | swept : Effect tokens now .cleanup .ok (tokens.filterValues fun token => !decide (token.Expired now))

namespace State
variable (state : State) (now : Int)

theorem redeem_effect (code : Code) (joiningUserId : UserId) (joiningUserName : String) (drawn : RoomId)
    (supervisorUp : Bool) :
    let handled := state.redeem code joiningUserId joiningUserName drawn supervisorUp now
    Effect state.tokens now (.redeem code joiningUserId joiningUserName drawn supervisorUp) handled.1 handled.2.tokens := by
  unfold redeem
  split
  next => exact .kept _ _ (by simp) (by simp) (by simp)
  next token stored =>
    split
    next => exact .kept _ _ (by simp) (by simp) (by simp)
    next current =>
      split
      next => exact .kept _ _ (by simp) (by simp) (by simp)
      next unused =>
        split
        next => exact .kept _ _ (by simp) (by simp) (by simp)
        next =>
          split
          next => exact .changed _ _ code token _ stored rfl ⟨rfl, rfl⟩ (by simp) (by simp) (by simp)
          next =>
            split
            next roomId updated rooms connects =>
              cases connectUser_token connects
              exact .connected _ roomId code joiningUserId token _ rfl stored rfl ⟨rfl, rfl⟩
                fun _ _ _ _ => ⟨current, unused⟩
            next => exact .kept _ _ (by simp) (by simp) (by simp)

theorem confirm_effect (code : Code) (joiningUserId : UserId) (drawn : RoomId) (supervisorUp : Bool) :
    let handled := state.confirm code joiningUserId drawn supervisorUp
    Effect state.tokens now (.confirm code joiningUserId drawn supervisorUp) handled.1 handled.2.tokens := by
  unfold confirm
  split
  next => exact .kept _ _ (by simp) (by simp) (by simp)
  next token stored =>
    split
    next => exact .kept _ _ (by simp) (by simp) (by simp)
    next pendingInfo waits =>
      split
      next roomId updated rooms connects =>
        cases connectUser_token connects
        exact .connected _ roomId code joiningUserId token _ rfl stored rfl ⟨rfl, rfl⟩ (by simp)
      next => exact .kept _ _ (by simp) (by simp) (by simp)

theorem reject_effect (code : Code) (joiningUserId : UserId) :
    let handled := state.reject code joiningUserId
    Effect state.tokens now (.reject code joiningUserId) handled.1 handled.2.tokens := by
  unfold reject
  split
  next => exact .kept _ _ (by simp) (by simp) (by simp)
  next token stored => exact .changed _ _ code token _ stored rfl ⟨rfl, rfl⟩ (by simp) (by simp) (by simp)

theorem handle_effect (label : Label) :
    Effect state.tokens now label (state.handle now label).1 (state.handle now label).2.tokens := by
  cases label with
  | create code creatorId opts => exact .created code creatorId opts
  | redeem code joiningUserId joiningUserName drawn supervisorUp => exact state.redeem_effect now ..
  | confirm code joiningUserId drawn supervisorUp => exact state.confirm_effect now ..
  | reject code joiningUserId => exact state.reject_effect now ..
  | cleanup => exact .swept
  | rooms label => exact .kept _ _ (by simp [handle]) (by simp [handle]) (by simp)

/-- A confirmation connects a user who waits where there is room for him, and nobody else. -/
theorem confirm_connects_iff (code : Code) (joiningUserId : UserId) (drawn : RoomId) (supervisorUp : Bool) :
    (∃ roomId, (state.confirm code joiningUserId drawn supervisorUp).1 = .connected roomId) ↔
      ∃ token ∈ state.tokens.lookup code, (token.pendingConfirmations.lookup joiningUserId).isSome = true ∧
        Admits state.rooms token joiningUserId drawn supervisorUp := by
  unfold confirm
  cases stored : state.tokens.lookup code with
  | none => simp
  | some token =>
    simp only [Option.mem_some_iff, exists_eq_left']
    cases waits : token.pendingConfirmations.lookup joiningUserId with
    | none => simp
    | some pendingInfo =>
      rw [← connectUser_ok_iff state.rooms token joiningUserId pendingInfo.name]
      dsimp only
      generalize connectUser state.rooms token joiningUserId pendingInfo.name drawn supervisorUp = outcome
      obtain ⟨reply, rooms⟩ := outcome
      cases reply with
      | error reason => simp
      | ok connected => simp

end State

/-- A user has been connected through the token that was created as the so-manieth. -/
structure Connection where
  serial : Nat
  userId : UserId
  time : Int
  deriving DecidableEq

structure Request where
  label : Label
  now : Int

/-- The server, with the tokens as they have been created, which of them each code stands for, and the
connections there have been. -/
structure World where
  state : State
  clock : Int
  serials : FiniteMap Code Nat
  issued : List Token
  connections : List Connection

namespace World

def start (clock : Int) : World := ⟨⟨∅, ∅⟩, clock, ∅, [], []⟩

/-- How many connections there have been through a token. -/
def uses (w : World) (serial : Nat) : Nat := w.connections.countP fun connection => connection.serial = serial

def serialsAfter (w : World) : Label → FiniteMap Code Nat
  | .create code _ _ => AList.insert code w.issued.length w.serials
  | _ => w.serials

def issuedAfter (w : World) : Reply → List Token
  | .created token => w.issued ++ [token]
  | _ => w.issued

def connectionsAfter (w : World) (request : Request) : Reply → List Connection
  | .connected _ => w.connections ++ request.label.joins.toList.map fun joins =>
      ⟨(w.serials.lookup joins.1).getD 0, joins.2, request.now⟩
  | _ => w.connections

def next (w : World) (request : Request) : World :=
  let handled := w.state.handle request.now request.label
  ⟨handled.2, request.now, w.serialsAfter request.label, w.issuedAfter handled.1, w.connectionsAfter request handled.1⟩

end World

/-- The clock does not go back. -/
def Takes (before : World) (request : Request) (after : World) : Prop :=
  before.clock ≤ request.now ∧ before.next request = after

/-- No token has more connections than it is good for, its counter tells how many it has, and none of
them is later than it is good for. -/
structure Bounded (w : World) : Prop where
  counted : ∀ code, ∀ token ∈ w.state.tokens.lookup code, ∃ serial ∈ w.serials.lookup code, token.uses = w.uses serial
  within : ∀ (serial : Nat) first, w.issued[serial]? = some first → w.uses serial ≤ first.maxUses
  early : ∀ connection ∈ w.connections, ∀ first, w.issued[connection.serial]? = some first →
    connection.time ≤ first.expiresAt

/-- A waiting user whom the room takes is confirmed only while the token is neither expired nor used up. -/
def Timely (w : World) (request : Request) : Prop :=
  match request.label with
  | .confirm code joiningUserId drawn supervisorUp => ∀ token ∈ w.state.tokens.lookup code,
      (token.pendingConfirmations.lookup joiningUserId).isSome = true →
      Admits w.state.rooms token joiningUserId drawn supervisorUp → ¬ token.Expired request.now ∧ ¬ token.Exhausted
  | _ => True

/-- The stored tokens against the tokens as they have been created, whatever requests there are. -/
structure Ledger (w : World) : Prop where
  stored : ∀ code token, w.state.tokens.lookup code = some token → ∃ serial first,
    w.serials.lookup code = some serial ∧ w.issued[serial]? = some first ∧ token.SameLimits first ∧
      token.uses = w.uses serial
  distinct : ∀ code other serial, w.serials.lookup code = some serial → w.serials.lookup other = some serial →
    code = other
  older : ∀ code serial, w.serials.lookup code = some serial → serial < w.issued.length
  known : ∀ connection ∈ w.connections, connection.serial < w.issued.length

theorem Ledger.start (clock : Int) : Ledger (.start clock) := by
  refine ⟨fun code token found => ?_, fun code other serial found => ?_, fun code serial found => ?_,
    fun connection member => absurd member List.not_mem_nil⟩ <;> cases found

namespace World
variable {w : World} {reply : Reply} {request : Request}

theorem issuedAfter_eq (noCreation : ∀ token, reply ≠ .created token) : w.issuedAfter reply = w.issued := by
  cases reply with
  | created token => exact absurd rfl (noCreation token)
  | _ => rfl

theorem connectionsAfter_eq (noConnection : ∀ roomId, reply ≠ .connected roomId) :
    w.connectionsAfter request reply = w.connections := by
  cases reply with
  | connected roomId => exact absurd rfl (noConnection roomId)
  | _ => rfl

theorem serialsAfter_eq {label : Label} (noCode : ∀ code creatorId opts, label ≠ .create code creatorId opts) :
    w.serialsAfter label = w.serials := by
  cases label with
  | create code creatorId opts => exact absurd rfl (noCode code creatorId opts)
  | _ => rfl

end World

section Record
variable {w : World} {now : Int}

/-- Through a token that nobody has been connected through yet. -/
theorem Ledger.unused (ledger : Ledger w) : w.uses w.issued.length = 0 := by
  refine List.countP_eq_zero.mpr fun connection member => ?_
  simpa using (ledger.known connection member).ne

theorem Ledger.created (ledger : Ledger w) (code : Code) (token : Token) (unused : token.uses = 0) (state : State)
    (tokens : state.tokens = AList.insert code token w.state.tokens) :
    Ledger ⟨state, now, AList.insert code w.issued.length w.serials, w.issued ++ [token], w.connections⟩ := by
  refine ⟨fun other current found => ?_, fun one other serial atOne atOther => ?_, fun other serial found => ?_,
    fun connection member => ?_⟩
  · dsimp only at found ⊢
    rw [tokens, FiniteMap.lookup_insert_if] at found
    rw [FiniteMap.lookup_insert_if]
    split at found
    next same =>
      cases found
      rw [if_pos same]
      exact ⟨_, token, rfl, List.getElem?_concat_length, ⟨rfl, rfl⟩, unused.trans ledger.unused.symm⟩
    next different =>
      obtain ⟨serial, first, serialOf, issued, limits, uses⟩ := ledger.stored other current found
      rw [if_neg different]
      refine ⟨serial, first, serialOf, ?_, limits, uses⟩
      rw [List.getElem?_append_left (ledger.older other serial serialOf), issued]
  · dsimp only at atOne atOther
    rw [FiniteMap.lookup_insert_if] at atOne atOther
    split at atOne
    next isOne =>
      cases atOne
      split at atOther
      next isOther => rw [isOne, isOther]
      next => exact absurd (ledger.older other _ atOther) (Nat.lt_irrefl _)
    next =>
      split at atOther
      next =>
        cases atOther
        exact absurd (ledger.older one _ atOne) (Nat.lt_irrefl _)
      next => exact ledger.distinct one other serial atOne atOther
  · dsimp only at found ⊢
    rw [FiniteMap.lookup_insert_if] at found
    rw [List.length_append]
    split at found
    next =>
      cases found
      exact Nat.lt_succ_self _
    next => exact (ledger.older other serial found).trans (Nat.lt_succ_self _)
  · dsimp only at member ⊢
    rw [List.length_append]
    exact (ledger.known connection member).trans (Nat.lt_succ_self _)

/-- One stored token is changed, but not its limits, and a connection recorded for it or none. -/
theorem Ledger.changed (ledger : Ledger w) {code : Code} {token updated : Token} {state : State}
    (stored : w.state.tokens.lookup code = some token) (limits : updated.SameLimits token)
    (tokens : state.tokens = AList.insert code updated w.state.tokens) {more : List Connection}
    (mine : ∀ connection ∈ more, w.serials.lookup code = some connection.serial)
    (uses : updated.uses = token.uses + more.length) :
    Ledger ⟨state, now, w.serials, w.issued, w.connections ++ more⟩ := by
  obtain ⟨serial, first, serialOf, issued, same, counted⟩ := ledger.stored code token stored
  have all (other : Nat) : (w.connections ++ more).countP (fun connection => connection.serial = other) =
      w.uses other + if other = serial then more.length else 0 := by
    rw [List.countP_append]
    refine congrArg (w.uses other + ·) ?_
    split
    next isIt =>
      refine List.countP_eq_length.mpr fun connection member => ?_
      have mineToo := serialOf.symm.trans (mine connection member)
      simpa [isIt] using (Option.some.inj mineToo).symm
    next notIt =>
      refine List.countP_eq_zero.mpr fun connection member => ?_
      have mineToo := Option.some.inj (serialOf.symm.trans (mine connection member))
      simpa [← mineToo] using Ne.symm notIt
  refine ⟨fun other current found => ?_, ledger.distinct, ledger.older, fun connection member => ?_⟩
  · dsimp only at found ⊢
    rw [tokens, FiniteMap.lookup_insert_if] at found
    split at found
    next isCode =>
      cases found
      refine ⟨serial, first, isCode ▸ serialOf, issued, ⟨limits.1.trans same.1, limits.2.trans same.2⟩, ?_⟩
      rw [World.uses, all, if_pos rfl, uses, counted]
    next notCode =>
      obtain ⟨theirs, firstOther, serialOther, issuedOther, limitsOther, usesOther⟩ := ledger.stored other current found
      refine ⟨theirs, firstOther, serialOther, issuedOther, limitsOther, ?_⟩
      rw [World.uses, all, if_neg, usesOther, Nat.add_zero]
      rintro rfl
      exact notCode (ledger.distinct other code theirs serialOther serialOf)
  · rcases List.mem_append.mp member with before | now
    · exact ledger.known connection before
    · exact ledger.older code connection.serial (mine connection now)

/-- With the tokens as they were, or fewer of them. -/
theorem Ledger.fewer (ledger : Ledger w) {state : State}
    (tokens : ∀ code token, state.tokens.lookup code = some token → w.state.tokens.lookup code = some token) :
    Ledger ⟨state, now, w.serials, w.issued, w.connections⟩ :=
  ⟨fun code token found => ledger.stored code token (tokens code token found), ledger.distinct, ledger.older,
    ledger.known⟩

theorem Ledger.next (ledger : Ledger w) (request : Request) : Ledger (w.next request) := by
  obtain ⟨label, now⟩ := request
  have effect := w.state.handle_effect now label
  unfold World.next
  dsimp only
  generalize w.state.handle now label = handled at effect
  obtain ⟨reply, state⟩ := handled
  dsimp only at effect ⊢
  generalize tokensEq : state.tokens = tokens at effect
  cases effect with
  | created code creatorId opts => exact ledger.created code _ rfl state tokensEq
  | kept _ _ noConnection noCreation noCode =>
    rw [World.serialsAfter_eq noCode, World.issuedAfter_eq noCreation, World.connectionsAfter_eq noConnection]
    exact ledger.fewer fun code token found => tokensEq ▸ found
  | changed _ _ code token updated stored uses limits noConnection noCreation noCode =>
    rw [World.serialsAfter_eq noCode, World.issuedAfter_eq noCreation, World.connectionsAfter_eq noConnection]
    rw [← List.append_nil w.connections]
    exact ledger.changed stored limits tokensEq (by simp) uses
  | connected _ roomId code userId token updated joins stored uses limits checked =>
    obtain ⟨serial, _, serialOf, _⟩ := ledger.stored code token stored
    rw [World.serialsAfter_eq (by rintro _ _ _ rfl; cases joins)]
    refine ledger.changed stored limits tokensEq (fun connection member => ?_) (by simpa [joins] using uses)
    rw [joins] at member
    rw [List.mem_singleton.mp member]
    simp [serialOf]
  | swept =>
    refine ledger.fewer fun code token found => ?_
    rw [tokensEq, FiniteMap.lookup_filterValues, Option.filter_eq_some_iff] at found
    exact found.1

theorem Ledger.counted (ledger : Ledger w) : ∀ code, ∀ token ∈ w.state.tokens.lookup code,
    ∃ serial ∈ w.serials.lookup code, token.uses = w.uses serial := by
  intro code token found
  obtain ⟨serial, _, serialOf, _, _, uses⟩ := ledger.stored code token found
  exact ⟨serial, serialOf, uses⟩

/-- A request that connects nobody leaves every token within its limits. -/
theorem Bounded.unconnected (bounded : Bounded w) (ledger : Ledger w) {request : Request}
    (noConnection : ∀ roomId, (w.state.handle request.now request.label).1 ≠ .connected roomId) :
    Bounded (w.next request) := by
  have connections : (w.next request).connections = w.connections := World.connectionsAfter_eq noConnection
  have issued (serial : Nat) (first : Token) (found : (w.next request).issued[serial]? = some first) :
      w.issued[serial]? = some first ∨ (serial = w.issued.length) := by
    unfold World.next World.issuedAfter at found
    dsimp only at found
    split at found
    · rcases Nat.lt_or_ge serial w.issued.length with early | late
      · exact .inl (by rwa [List.getElem?_append_left early] at found)
      · have short := (List.getElem?_eq_some_iff.mp found).choose
        rw [List.length_append, List.length_singleton] at short
        exact .inr (by omega)
    · exact .inl found
  refine ⟨(ledger.next request).counted, fun serial first found => ?_, fun connection member first found => ?_⟩
  · rw [World.uses, connections]
    rcases issued serial first found with old | rfl
    · exact bounded.within serial first old
    · exact ledger.unused.trans_le (Nat.zero_le _)
  · rw [connections] at member
    rcases issued _ first found with old | new
    · exact bounded.early connection member first old
    · exact absurd (ledger.known connection member) (new ▸ Nat.lt_irrefl _)

/-- A connection leaves every token within its limits if its own was neither expired nor used up. -/
theorem Bounded.connected_iff (bounded : Bounded w) (ledger : Ledger w) {request : Request} {code : Code}
    {userId : UserId} {token : Token} {roomId : RoomId}
    (connected : (w.state.handle request.now request.label).1 = .connected roomId)
    (joins : request.label.joins = some (code, userId)) (stored : w.state.tokens.lookup code = some token) :
    Bounded (w.next request) ↔ ¬ token.Expired request.now ∧ ¬ token.Exhausted := by
  obtain ⟨serial, first, serialOf, issued, limits, uses⟩ := ledger.stored code token stored
  have issuedSame : (w.next request).issued = w.issued := by
    unfold World.next
    dsimp only
    rw [connected]
    rfl
  have connections : (w.next request).connections = w.connections ++ [⟨serial, userId, request.now⟩] := by
    unfold World.next
    dsimp only
    rw [connected, World.connectionsAfter, joins]
    simp [serialOf]
  have counted (other : Nat) : (w.next request).uses other = w.uses other + if other = serial then 1 else 0 := by
    rw [World.uses, connections, List.countP_append, List.countP_singleton, World.uses]
    simp [eq_comm]
  unfold Token.Expired Token.Exhausted
  rw [limits.1, limits.2, uses]
  constructor
  · rintro ⟨_, within, early⟩
    have more := within serial first (issuedSame ▸ issued)
    rw [counted, if_pos rfl] at more
    have late := early ⟨serial, userId, request.now⟩ (by rw [connections]; simp) first (issuedSame ▸ issued)
    exact ⟨Int.not_lt.mpr late, by omega⟩
  · rintro ⟨current, unused⟩
    refine ⟨(ledger.next request).counted, fun other found atOther => ?_, fun connection member found atOther => ?_⟩
    · rw [issuedSame] at atOther
      rw [counted]
      split
      next same =>
        rw [same, issued] at atOther
        cases atOther
        rw [same]
        omega
      next => exact bounded.within other found atOther
    · rw [issuedSame] at atOther
      rw [connections] at member
      rcases List.mem_append.mp member with before | last
      · exact bounded.early connection before found atOther
      · rw [List.mem_singleton.mp last] at atOther ⊢
        rw [issued] at atOther
        cases atOther
        exact Int.not_lt.mp current

/-- A request keeps every token within its limits exactly when it is timely. -/
theorem timely_iff (bounded : Bounded w) (ledger : Ledger w) (request : Request) :
    Timely w request ↔ Bounded (w.next request) := by
  obtain ⟨label, now⟩ := request
  by_cases connects : ∃ roomId, (w.state.handle now label).1 = .connected roomId
  · obtain ⟨roomId, connected⟩ := connects
    have effect := w.state.handle_effect now label
    rw [connected] at effect
    generalize (w.state.handle now label).2.tokens = tokens at effect
    cases effect with
    | kept _ _ noConnection => exact absurd rfl (noConnection roomId)
    | changed _ _ _ _ _ _ _ _ noConnection => exact absurd rfl (noConnection roomId)
    | connected _ _ code userId token updated joins stored uses limits checked =>
      rw [bounded.connected_iff ledger connected joins stored]
      cases label with
      | redeem other joiningUserId joiningUserName drawn supervisorUp =>
        cases joins
        exact iff_of_true trivial (checked _ _ _ rfl)
      | confirm other joiningUserId drawn supervisorUp =>
        cases joins
        obtain ⟨_, found, waits, admits⟩ := (w.state.confirm_connects_iff code userId drawn supervisorUp).mp ⟨_, connected⟩
        rw [stored] at found
        cases found
        constructor
        · exact fun timely => timely token stored waits admits
        · intro fine other found _ _
          rw [stored] at found
          cases found
          exact fine
      | _ => cases joins
  · have noConnection := not_exists.mp connects
    refine iff_of_true ?_ (bounded.unconnected ledger noConnection)
    cases label with
    | confirm code joiningUserId drawn supervisorUp =>
      intro token stored waits admits
      exact absurd ((w.state.confirm_connects_iff code joiningUserId drawn supervisorUp).mpr ⟨token, stored, waits, admits⟩)
        connects
    | _ => trivial

end Record

theorem Bounded.start (clock : Int) : Bounded (.start clock) := by
  refine ⟨fun code token found => ?_, fun serial first found => ?_, fun connection member => ?_⟩
  · cases found
  · exact Nat.zero_le _
  · exact absurd member List.not_mem_nil

/-- Every token stays within its limits throughout a run exactly when each of its requests is timely. -/
theorem uses_bounded_iff (clock : Int) (requests : List Request) (last : World) :
    Run (fun before request after => Takes before request after ∧ Bounded after) (.start clock) requests last ↔
      Run (Guarded Timely Takes) (.start clock) requests last := by
  refine Run.within_iff_guarded Ledger ⟨.start clock, .start clock⟩ ?_ ?_
  · rintro before request _ ledger ⟨_, rfl⟩
    exact ledger.next request
  · rintro before request _ ledger bounded ⟨_, rfl⟩
    exact timely_iff bounded ledger request

/-- Ann's token is for one use within a minute; Bob and Carol ask for it in time. -/
def annInvites : List Request :=
  [⟨.create "ABCD2345" "ann" { ttlSeconds := some 60 }, 0⟩, ⟨.redeem "ABCD2345" "bob" "Bob" "den" true, 1⟩,
    ⟨.redeem "ABCD2345" "carol" "Carol" "den" true, 2⟩]

/-- Both are confirmed, and Bob is confirmed after the minute is over. -/
def bothConfirmed : List Request :=
  annInvites ++ [⟨.confirm "ABCD2345" "bob" "den" true, 3⟩, ⟨.confirm "ABCD2345" "carol" "den" true, 4⟩]

def bobConfirmedLate : List Request := annInvites ++ [⟨.confirm "ABCD2345" "bob" "den" true, 60000001⟩]

/-- Two users come in on a token for one, and one comes in on an expired token. -/
theorem token_overused :
    (∃ w, Run Takes (.start 0) bothConfirmed w ∧ ¬ Bounded w) ∧
    ∃ w, Run Takes (.start 0) bobConfirmedLate w ∧ ¬ Bounded w := by
  refine ⟨⟨bothConfirmed.foldl World.next (.start 0), ?_, fun bounded => ?_⟩,
    bobConfirmedLate.foldl World.next (.start 0), ?_, fun bounded => ?_⟩
  · exact ((((Run.start.next ⟨by decide, rfl⟩).next ⟨by decide, rfl⟩).next ⟨by decide, rfl⟩).next
      ⟨by decide, rfl⟩).next ⟨by decide, rfl⟩
  · exact absurd (bounded.within 0 _ rfl) (by decide +kernel)
  · exact (((Run.start.next ⟨by decide, rfl⟩).next ⟨by decide, rfl⟩).next ⟨by decide, rfl⟩).next ⟨by decide, rfl⟩
  · exact absurd (bounded.early ⟨0, "bob", 60000001⟩ (by decide +kernel) _ rfl) (by decide +kernel)

end InstantConnect
end Burble.Rooms
