import Burble.FiniteMap
import Burble.Runs

namespace Burble.Media

structure VideoConstraints where
  maxWidth : Int
  maxHeight : Int
  maxFramerate : Int
  deriving DecidableEq

/-- The constraints that a peer asks for. It may leave any of them out. -/
structure WantedConstraints where
  maxWidth : Option Int
  maxHeight : Option Int
  maxFramerate : Option Int

def VideoConstraints.wanted (constraints : VideoConstraints) : WantedConstraints :=
  ⟨some constraints.maxWidth, some constraints.maxHeight, some constraints.maxFramerate⟩

structure ShareOptions where
  isModerator : Bool
  constraints : Option WantedConstraints

structure ShareState where
  sharerPeerId : String
  startedAt : Int
  constraints : VideoConstraints
  deriving DecidableEq

structure ScreenShare where
  shares : FiniteMap String ShareState
  defaultConstraints : VideoConstraints

inductive ShareRequest
  | startShare (roomId peerId : String) (opts : ShareOptions) (now : Int)
  | stopShare (roomId peerId : String) (opts : ShareOptions)
  | peerDisconnected (roomId peerId : String)
  | roomDestroyed (roomId : String)

inductive ShareError
  | slotTaken
  | noShare
  | notAuthorised
  deriving DecidableEq

/-- The reply to a call; a cast has none. -/
inductive ShareReply
  | granted (constraints : VideoConstraints)
  | ok
  | error (reason : ShareError)
  | noreply
  deriving DecidableEq

inductive StopReason
  | moderatorTakeover
  | stopped
  | peerDisconnected
  deriving DecidableEq

/-- What a room is told. -/
inductive ShareNews
  | started (peerId : String) (constraints : VideoConstraints)
  | stopped (peerId : String) (reason : StopReason)
  deriving DecidableEq

structure ShareOutcome where
  reply : ShareReply
  broadcasts : List (String × ShareNews)
  state : ScreenShare

def defaultConstraints : VideoConstraints := ⟨1920, 1080, 15⟩

def mergeConstraints (default : VideoConstraints) (wanted : WantedConstraints) : VideoConstraints where
  maxWidth := wanted.maxWidth.getD default.maxWidth
  maxHeight := wanted.maxHeight.getD default.maxHeight
  maxFramerate := wanted.maxFramerate.getD default.maxFramerate

def capConstraints (constraints : VideoConstraints) : VideoConstraints where
  maxWidth := min constraints.maxWidth 1920
  maxHeight := min constraints.maxHeight 1080
  maxFramerate := min constraints.maxFramerate 30

namespace ScreenShare
variable (server : ScreenShare)

def init : ScreenShare := ⟨∅, Media.defaultConstraints⟩

/-- The constraints that a peer is granted for what it asks for. -/
def cappedConstraints (opts : ShareOptions) : VideoConstraints :=
  capConstraints (mergeConstraints server.defaultConstraints (opts.constraints.getD server.defaultConstraints.wanted))

def put (roomId : String) (share : ShareState) : ScreenShare := { server with shares := server.shares.insert roomId share }

def delete (roomId : String) : ScreenShare := { server with shares := server.shares.erase roomId }

def startShare (roomId peerId : String) (opts : ShareOptions) (now : Int) : ShareOutcome :=
  let capped := server.cappedConstraints opts
  let granted := server.put roomId ⟨peerId, now, capped⟩
  match server.shares.lookup roomId with
  | none => ⟨.granted capped, [(roomId, .started peerId capped)], granted⟩
  | some current =>
    if current.sharerPeerId = peerId then ⟨.granted capped, [], server⟩
    else if opts.isModerator then
      ⟨.granted capped, [(roomId, .stopped current.sharerPeerId .moderatorTakeover), (roomId, .started peerId capped)], granted⟩
    else ⟨.error .slotTaken, [], server⟩

def stopShare (roomId peerId : String) (opts : ShareOptions) : ShareOutcome :=
  match server.shares.lookup roomId with
  | none => ⟨.error .noShare, [], server⟩
  | some current =>
    if current.sharerPeerId = peerId ∨ opts.isModerator then
      ⟨.ok, [(roomId, .stopped current.sharerPeerId .stopped)], server.delete roomId⟩
    else ⟨.error .notAuthorised, [], server⟩

def peerDisconnected (roomId peerId : String) : ShareOutcome :=
  match server.shares.lookup roomId with
  | some current =>
    if current.sharerPeerId = peerId then ⟨.noreply, [(roomId, .stopped peerId .peerDisconnected)], server.delete roomId⟩
    else ⟨.noreply, [], server⟩
  | none => ⟨.noreply, [], server⟩

def handle : ShareRequest → ShareOutcome
  | .startShare roomId peerId opts now => server.startShare roomId peerId opts now
  | .stopShare roomId peerId opts => server.stopShare roomId peerId opts
  | .peerDisconnected roomId peerId => server.peerDisconnected roomId peerId
  | .roomDestroyed roomId => ⟨.noreply, [], server.delete roomId⟩

def Step (before : ScreenShare) (request : ShareRequest) (after : ScreenShare) : Prop := (before.handle request).state = after

/-- The peer that has the slot of a room. -/
def sharer (roomId : String) : Option String := (server.shares.lookup roomId).map ShareState.sharerPeerId

end ScreenShare

/-- A request that may take the slot of a room from a peer. -/
def ShareRequest.Frees (roomId sharer : String) : ShareRequest → Prop
  | .startShare room peer opts _ => room = roomId ∧ peer ≠ sharer ∧ opts.isModerator = true
  | .stopShare room peer opts => room = roomId ∧ (peer = sharer ∨ opts.isModerator = true)
  | .peerDisconnected room peer => room = roomId ∧ peer = sharer
  | .roomDestroyed room => room = roomId

/-- No more than 1080p at 30 frames a second. -/
structure VideoConstraints.Capped (constraints : VideoConstraints) : Prop where
  maxWidth : constraints.maxWidth ≤ 1920
  maxHeight : constraints.maxHeight ≤ 1080
  maxFramerate : constraints.maxFramerate ≤ 30

theorem capConstraints_capped (constraints : VideoConstraints) : (capConstraints constraints).Capped :=
  ⟨Int.min_le_right _ _, Int.min_le_right _ _, Int.min_le_right _ _⟩

namespace ScreenShare
variable {server : ScreenShare} {roomId other peerId : String} {share : ShareState}

@[simp] theorem lookup_put : (server.put roomId share).shares.lookup roomId = some share := AList.lookup_insert _

@[simp] theorem lookup_put_ne (ne : other ≠ roomId) :
    (server.put roomId share).shares.lookup other = server.shares.lookup other := AList.lookup_insert_ne ne

@[simp] theorem lookup_delete_ne (ne : other ≠ roomId) :
    (server.delete roomId).shares.lookup other = server.shares.lookup other := AList.lookup_erase_ne ne

theorem sharer_eq_some : server.sharer roomId = some peerId ↔
    ∃ share, server.shares.lookup roomId = some share ∧ share.sharerPeerId = peerId := Option.map_eq_some_iff

/-- What a start does: a free slot is granted, the sharer is told what it asked for, a moderator takes over, and any other
    peer is refused. -/
theorem startShare_cases (server : ScreenShare) (roomId peerId : String) (opts : ShareOptions) (now : Int) :
    ((server.startShare roomId peerId opts now).reply = .granted (server.cappedConstraints opts) ∧
      ((∃ share, server.shares.lookup roomId = some share ∧ share.sharerPeerId = peerId ∧
          (server.startShare roomId peerId opts now).state = server) ∨
        (∀ share, server.shares.lookup roomId = some share → share.sharerPeerId ≠ peerId ∧ opts.isModerator = true) ∧
          (server.startShare roomId peerId opts now).state =
            server.put roomId ⟨peerId, now, server.cappedConstraints opts⟩)) ∨
    (server.startShare roomId peerId opts now).reply = .error .slotTaken ∧
      (∀ share, server.shares.lookup roomId = some share → share.sharerPeerId ≠ peerId) ∧
      (server.startShare roomId peerId opts now).state = server := by
  unfold startShare
  cases found : server.shares.lookup roomId with
  | none => exact .inl ⟨rfl, .inr ⟨by simp, rfl⟩⟩
  | some current =>
    dsimp only
    by_cases same : current.sharerPeerId = peerId
    · rw [if_pos same]
      exact .inl ⟨rfl, .inl ⟨current, rfl, same, rfl⟩⟩
    · rw [if_neg same]
      split
      next moderator =>
        refine .inl ⟨rfl, .inr ⟨fun share found => ?_, rfl⟩⟩
        cases found
        exact ⟨same, moderator⟩
      next =>
        refine .inr ⟨rfl, fun share found => ?_, rfl⟩
        cases found
        exact same

theorem stopShare_cases (server : ScreenShare) (roomId peerId : String) (opts : ShareOptions) :
    ((server.stopShare roomId peerId opts).reply = .ok ∧
      (∀ share, server.shares.lookup roomId = some share → share.sharerPeerId = peerId ∨ opts.isModerator = true) ∧
      (server.stopShare roomId peerId opts).state = server.delete roomId) ∨
    (∃ reason, (server.stopShare roomId peerId opts).reply = .error reason) ∧
      (server.stopShare roomId peerId opts).state = server := by
  unfold stopShare
  cases found : server.shares.lookup roomId with
  | none => exact .inr ⟨⟨_, rfl⟩, rfl⟩
  | some current =>
    dsimp only
    split
    next authorised =>
      refine .inl ⟨rfl, fun share found => ?_, rfl⟩
      cases found
      exact authorised
    next => exact .inr ⟨⟨_, rfl⟩, rfl⟩

theorem peerDisconnected_cases (server : ScreenShare) (roomId peerId : String) :
    (server.peerDisconnected roomId peerId).reply = .noreply ∧
      ((server.peerDisconnected roomId peerId).state = server ∨
        (∀ share, server.shares.lookup roomId = some share → share.sharerPeerId = peerId) ∧
          (server.peerDisconnected roomId peerId).state = server.delete roomId) := by
  unfold peerDisconnected
  cases found : server.shares.lookup roomId with
  | none => exact ⟨rfl, .inl rfl⟩
  | some current =>
    dsimp only
    split
    next same =>
      refine ⟨rfl, .inr ⟨fun share found => ?_, rfl⟩⟩
      cases found
      exact same
    next => exact ⟨rfl, .inl rfl⟩

/-! What each request owes to the rooms, in every run. -/

/-- The slot of a room is lost to a request that frees it only, a refused request changes nothing, and what a peer is
    granted is what is stored for it. -/
structure Lawful (before : ScreenShare) (request : ShareRequest) (after : ScreenShare) : Prop where
  passes : ∀ roomId peerId, before.sharer roomId = some peerId → after.sharer roomId ≠ some peerId →
    request.Frees roomId peerId
  refused : ∀ reason, (before.handle request).reply = .error reason → after = before
  granted : ∀ roomId peerId opts now constraints, request = .startShare roomId peerId opts now →
    (before.handle request).reply = .granted constraints → constraints.Capped ∧
      ∃ share, after.shares.lookup roomId = some share ∧ share.sharerPeerId = peerId ∧ share.constraints = constraints

/-- A request that is no repeat of the sharer's for other constraints than it has. -/
def SameConstraints (server : ScreenShare) : ShareRequest → Prop
  | .startShare roomId peerId opts _ => ∀ share, server.shares.lookup roomId = some share → share.sharerPeerId = peerId →
      share.constraints = server.cappedConstraints opts
  | _ => True

theorem sharer_put (ne : other ≠ roomId) : (server.put roomId share).sharer other = server.sharer other :=
  congrArg _ (lookup_put_ne ne)

theorem sharer_delete (ne : other ≠ roomId) : (server.delete roomId).sharer other = server.sharer other :=
  congrArg _ (lookup_delete_ne ne)

/-- A slot that is taken is lost to a request that frees it. -/
theorem handle_frees {request : ShareRequest} (held : server.sharer roomId = some peerId)
    (lost : (server.handle request).state.sharer roomId ≠ some peerId) : request.Frees roomId peerId := by
  obtain ⟨share, found, rfl⟩ := sharer_eq_some.mp held
  cases request with
  | startShare room peer opts now =>
    change (server.startShare room peer opts now).state.sharer roomId ≠ _ at lost
    rcases server.startShare_cases room peer opts now with ⟨-, ⟨_, _, _, same⟩ | ⟨taken, state⟩⟩ | ⟨-, -, same⟩
    · exact absurd held (same ▸ lost)
    · by_cases here : roomId = room
      · subst here
        obtain ⟨ne, moderator⟩ := taken share found
        exact ⟨rfl, ne.symm, moderator⟩
      · rw [state, sharer_put here] at lost
        exact absurd held lost
    · exact absurd held (same ▸ lost)
  | stopShare room peer opts =>
    change (server.stopShare room peer opts).state.sharer roomId ≠ _ at lost
    rcases server.stopShare_cases room peer opts with ⟨-, authorised, state⟩ | ⟨-, same⟩
    · by_cases here : roomId = room
      · subst here
        exact ⟨rfl, (authorised share found).imp_left Eq.symm⟩
      · rw [state, sharer_delete here] at lost
        exact absurd held lost
    · exact absurd held (same ▸ lost)
  | peerDisconnected room peer =>
    change (server.peerDisconnected room peer).state.sharer roomId ≠ _ at lost
    rcases server.peerDisconnected_cases room peer with ⟨-, same | ⟨left, state⟩⟩
    · exact absurd held (same ▸ lost)
    · by_cases here : roomId = room
      · subst here
        exact ⟨rfl, (left share found).symm⟩
      · rw [state, sharer_delete here] at lost
        exact absurd held lost
  | roomDestroyed room =>
    by_contra here
    exact lost ((sharer_delete (Ne.symm here)).trans held)

theorem handle_refused {request : ShareRequest} {reason : ShareError} (refused : (server.handle request).reply = .error reason) :
    (server.handle request).state = server := by
  cases request with
  | startShare room peer opts now =>
    rcases server.startShare_cases room peer opts now with ⟨granted, -⟩ | ⟨-, -, same⟩
    · exact absurd (granted.symm.trans refused) (by simp)
    · exact same
  | stopShare room peer opts =>
    rcases server.stopShare_cases room peer opts with ⟨stopped, -⟩ | ⟨-, same⟩
    · exact absurd (stopped.symm.trans refused) (by simp)
    · exact same
  | peerDisconnected room peer =>
    exact absurd ((server.peerDisconnected_cases room peer).1.symm.trans refused) (by simp)
  | roomDestroyed room => cases refused

theorem cappedConstraints_capped (server : ScreenShare) (opts : ShareOptions) : (server.cappedConstraints opts).Capped :=
  capConstraints_capped _

/-- What a start is granted is stored, where it asks for no other constraints than a share of its own has. -/
theorem startShare_granted {opts : ShareOptions} {now : Int} {constraints : VideoConstraints}
    (granted : (server.startShare roomId peerId opts now).reply = .granted constraints) :
    constraints.Capped ∧ (server.SameConstraints (.startShare roomId peerId opts now) ↔
      ∃ share, (server.startShare roomId peerId opts now).state.shares.lookup roomId = some share ∧
        share.sharerPeerId = peerId ∧ share.constraints = constraints) := by
  rcases server.startShare_cases roomId peerId opts now with ⟨reply, repeated | ⟨taken, state⟩⟩ | ⟨refused, -⟩
  · obtain ⟨share, found, own, same⟩ := repeated
    cases reply.symm.trans granted
    refine ⟨server.cappedConstraints_capped opts, fun asked => ?_, fun ⟨stored, there, _, equal⟩ other again _ => ?_⟩
    · exact ⟨share, by rw [same]; exact found, own, asked share found own⟩
    · rw [same] at there
      cases there.symm.trans again
      exact equal
  · cases reply.symm.trans granted
    refine ⟨server.cappedConstraints_capped opts, fun _ => ?_, fun _ share found own => absurd own (taken share found).1⟩
    rw [state, lookup_put]
    exact ⟨_, rfl, rfl, rfl⟩
  · cases refused.symm.trans granted

theorem lawful_iff {request : ShareRequest} {after : ScreenShare} (taken : Step server request after) :
    server.SameConstraints request ↔ Lawful server request after := by
  subst taken
  constructor
  · intro same
    refine ⟨fun _ _ => handle_frees, fun _ => handle_refused, ?_⟩
    rintro roomId peerId opts now constraints rfl granted
    obtain ⟨capped, stored⟩ := startShare_granted granted
    exact ⟨capped, stored.mp same⟩
  · intro lawful
    cases request with
    | startShare roomId peerId opts now =>
      intro share found own
      rcases server.startShare_cases roomId peerId opts now with ⟨reply, -⟩ | ⟨-, others, -⟩
      · obtain ⟨_, stored⟩ := lawful.granted roomId peerId opts now _ rfl reply
        exact (startShare_granted reply).2.mpr stored share found own
      · exact absurd own (others share found)
    | stopShare | peerDisconnected | roomDestroyed => trivial

/-- In a run from the start every step is lawful where no sharer asks again for other constraints, and only there. -/
theorem lawful_run_iff {requests : List ShareRequest} {last : ScreenShare} :
    Run (Guarded SameConstraints Step) init requests last ↔
      Run (fun before request after => Step before request after ∧ Lawful before request after ∧ True) init requests last :=
  Run.guarded_iff (fun _ => True) ⟨trivial, trivial⟩ (fun _ _ => trivial)
    fun _ _ taken => (lawful_iff taken).trans (iff_of_eq (and_true _)).symm

end ScreenShare

def sharedAtFifteen : ScreenShare := (ScreenShare.init.handle (.startShare "room" "ann" ⟨false, none⟩ 0)).state

/-- Its peer asks for 30 frames a second. -/
def thirtyAsked : ShareRequest := .startShare "room" "ann" ⟨false, some ⟨none, none, some 30⟩⟩ 1

theorem thirty_not_stored : (sharedAtFifteen.handle thirtyAsked).reply = .granted ⟨1920, 1080, 30⟩ ∧
    (sharedAtFifteen.handle thirtyAsked).state.shares.lookup "room" = some ⟨"ann", 0, ⟨1920, 1080, 15⟩⟩ ∧
    ¬ ScreenShare.Lawful sharedAtFifteen thirtyAsked (sharedAtFifteen.handle thirtyAsked).state := by
  have reply : (sharedAtFifteen.handle thirtyAsked).reply = .granted ⟨1920, 1080, 30⟩ := by decide
  have stored : (sharedAtFifteen.handle thirtyAsked).state.shares.lookup "room" =
      some ⟨"ann", 0, ⟨1920, 1080, 15⟩⟩ := by decide
  refine ⟨reply, stored, fun lawful => ?_⟩
  obtain ⟨-, share, found, -, same⟩ := lawful.granted "room" "ann" _ 1 _ rfl reply
  cases stored.symm.trans found
  exact absurd same (by decide)

end Burble.Media
