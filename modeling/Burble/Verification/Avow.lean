import Mathlib.Data.List.Chain
import Burble.Verification.Vext
import Burble.FiniteMap
import Burble.Runs

namespace Burble.Verification

open Base16 (encode16)

namespace Avow

inductive ConsentState
  | requested
  | confirmed
  | active
  | revoked
  deriving DecidableEq, Repr

def ConsentState.text : ConsentState → String
  | requested => "requested"
  | confirmed => "confirmed"
  | active => "active"
  | revoked => "revoked"

/-- What callers put into metadata. -/
inductive Term
  | nil
  | atom (name : String)
  | text (value : String)
  deriving DecidableEq, Repr

/-- A map from atoms. -/
abbrev Metadata := List (String × Term)

/-- The server's key and hash, and Elixir's `inspect`. -/
structure Host extends ServerCrypto where
  inspect : Metadata → String

/-- An attestation, its action an atom by name. One shown to the verifier may have no id. -/
structure Attestation where
  id : Option String
  subjectId : String
  action : String
  consentState : ConsentState
  grantedBy : String
  timestamp : DateTime
  metadata : Metadata
  previousAttestation : Option String
  proofHash : String
  signature : String
  deriving DecidableEq

inductive VerificationError
  | hashMismatch
  | signatureInvalid
  | chainBroken
  deriving DecidableEq, Repr

variable (host : Host)

/-- What the proof hash is taken of, after its prefix. -/
def coveredText (subjectId action : String) (consentState : ConsentState) (grantedBy : String)
    (timestamp : DateTime) (metadata : Metadata) : String :=
  s!"{subjectId}|{action}|{consentState.text}|{grantedBy}|{timestamp.toIso8601}|{host.inspect metadata}"

def hashText (text : String) : String := encode16 (host.sha256 s!"avow:{text}")

def Attestation.text (attestation : Attestation) : String :=
  coveredText host attestation.subjectId attestation.action attestation.consentState attestation.grantedBy
    attestation.timestamp attestation.metadata

def computeProofHash (attestation : Attestation) : String := hashText host (attestation.text host)

def signAttestation (proofHash : String) : String := encode16 (host.sign proofHash)

def verifySignature (hash signature : String) : Bool := Vext.verifySignature host.toServerCrypto hash signature

def generateAttestationId (random : List UInt8) : String := "avow_" ++ encode16 random

/-- The id's random bytes and the time are the environment's. -/
def buildAttestation (random : List UInt8) (timestamp : DateTime) (subjectId action : String)
    (consentState : ConsentState) (grantedBy : String) (previousAttestation : Option String)
    (metadata : Metadata) : Attestation :=
  let proofHash := hashText host (coveredText host subjectId action consentState grantedBy timestamp metadata)
  { id := some (generateAttestationId random), subjectId, action, consentState, grantedBy, timestamp, metadata,
    previousAttestation, proofHash, signature := signAttestation host proofHash }

/-- The calls that append to a membership chain, with their options. -/
inductive Request
  | attestJoin (userId roomId : String) (mechanism : Term) (grantedBy inviteToken : Option String)
  | attestLeave (userId roomId : String) (reason : Term) (grantedBy : Option String)
  deriving DecidableEq

def Request.entityId : Request → String
  | attestJoin userId roomId _ _ _ => s!"room:{roomId}|user:{userId}"
  | attestLeave userId roomId _ _ => s!"room:{roomId}|user:{userId}"

def orNil : Option String → Term
  | some value => .text value
  | none => .nil

def Request.build (random : List UInt8) (timestamp : DateTime) (previous : Option String) : Request → Attestation
  | attestJoin userId roomId mechanism grantedBy inviteToken =>
    buildAttestation host random timestamp userId "room_join" .active (grantedBy.getD userId) previous
      [("room_id", .text roomId), ("mechanism", mechanism), ("invite_token", orNil inviteToken)]
  | attestLeave userId roomId reason grantedBy =>
    buildAttestation host random timestamp userId "room_leave" .revoked (grantedBy.getD userId) previous
      [("room_id", .text roomId), ("reason", reason)]

inductive Moderation
  | kick
  | ban
  | mute
  | timeout
  deriving DecidableEq, Repr

def Moderation.text : Moderation → String
  | kick => "kick"
  | ban => "ban"
  | mute => "mute"
  | timeout => "timeout"

/-- The calls whose attestation is handed out and stored nowhere. -/
inductive Unchained
  | attestPermissionGrant (userId : String) (permission : Term) (grantedBy : String) (grantScope : Term)
  | attestModeration (targetId : String) (action : Moderation) (moderatorId : String) (reason : Term)
  | attestInviteAcceptance (userId inviteToken serverId : String)
  deriving DecidableEq

def Unchained.build (random : List UInt8) (timestamp : DateTime) : Unchained → Attestation
  | attestPermissionGrant userId permission grantedBy grantScope =>
    buildAttestation host random timestamp userId "permission_grant" .active grantedBy none
      [("permission", permission), ("scope", grantScope)]
  | attestModeration targetId action moderatorId reason =>
    buildAttestation host random timestamp targetId ("mod_" ++ action.text) .revoked moderatorId none
      [("reason", reason), ("action_type", .atom action.text)]
  | attestInviteAcceptance userId inviteToken serverId =>
    buildAttestation host random timestamp userId "invite_accept" .confirmed userId none
      [("invite_token", .text inviteToken), ("server_id", .text serverId)]

def verifyAttestation (attestation : Attestation) : Except VerificationError Unit :=
  if computeProofHash host attestation ≠ attestation.proofHash then .error .hashMismatch
  else if verifySignature host attestation.proofHash attestation.signature then .ok ()
  else .error .signatureInvalid

/-- The reduction of `verify_chain`, from the id before. No id before, nothing to link to. -/
def verifyFrom (previousId : Option String) :
    List Attestation → Except (VerificationError × Option String) (Option String)
  | [] => .ok previousId
  | attestation :: rest =>
    match verifyAttestation host attestation with
    | .ok () =>
      if previousId ≠ none ∧ attestation.previousAttestation ≠ previousId then
        .error (.chainBroken, attestation.id)
      else verifyFrom attestation.id rest
    | .error reason => .error (reason, attestation.id)

def verifyChain (chain : List Attestation) : Except (VerificationError × Option String) (Option String) :=
  verifyFrom host none chain

/-- `chain_head` of what `get_chain` found. -/
def chainHead (chain : List Attestation) : Option String := chain.getLast?.bind Attestation.id

/-- Its proof hash is the digest of what it covers, and the signature is good. -/
def Attestation.Genuine (attestation : Attestation) : Prop :=
  computeProofHash host attestation = attestation.proofHash ∧
    verifySignature host attestation.proofHash attestation.signature = true

/-- An attestation names the one before it, if that has an id. -/
def Follows (before attestation : Attestation) : Prop :=
  before.id ≠ none → attestation.previousAttestation = before.id

variable {host}

theorem verifyAttestation_ok {attestation : Attestation} :
    verifyAttestation host attestation = .ok () ↔ attestation.Genuine host := by
  rw [verifyAttestation, Attestation.Genuine]
  by_cases digest : computeProofHash host attestation = attestation.proofHash
  · rw [if_neg (not_not_intro digest)]
    by_cases good : verifySignature host attestation.proofHash attestation.signature = true
    · rw [if_pos good]
      exact iff_of_true rfl ⟨digest, good⟩
    · rw [if_neg good]
      exact iff_of_false (by simp) fun both => good both.2
  · rw [if_pos digest]
    exact iff_of_false (by simp) fun both => digest both.1

theorem verifyFrom_cons {previousId last : Option String} {attestation : Attestation} {rest : List Attestation} :
    verifyFrom host previousId (attestation :: rest) = .ok last ↔
      attestation.Genuine host ∧ (previousId ≠ none → attestation.previousAttestation = previousId) ∧
        verifyFrom host attestation.id rest = .ok last := by
  rw [verifyFrom]
  cases checked : verifyAttestation host attestation with
  | error reason =>
    refine iff_of_false (by simp) fun accepted => ?_
    rw [verifyAttestation_ok.mpr accepted.1] at checked
    cases checked
  | ok _ =>
    have genuine := verifyAttestation_ok.mp checked
    by_cases broken : previousId ≠ none ∧ attestation.previousAttestation ≠ previousId
    · simp only [if_pos broken]
      exact iff_of_false (by simp) fun accepted => broken.2 (accepted.2.1 broken.1)
    · simp only [if_neg broken]
      refine ⟨fun onward => ⟨genuine, fun some => ?_, onward⟩, fun accepted => accepted.2.2⟩
      exact not_not.mp fun different => broken ⟨some, different⟩

theorem verifyFrom_ok {previousId last : Option String} {chain : List Attestation} :
    verifyFrom host previousId chain = .ok last ↔
      (∀ attestation ∈ chain, attestation.Genuine host) ∧
        (∀ attestation ∈ chain.head?, previousId ≠ none → attestation.previousAttestation = previousId) ∧
        chain.IsChain Follows ∧ last = (chain.getLast?.map Attestation.id).getD previousId := by
  induction chain generalizing previousId with
  | nil => simp [verifyFrom, eq_comm]
  | cons attestation rest ih =>
    rw [verifyFrom_cons, ih, List.isChain_cons]
    have ends : ((attestation :: rest).getLast?.map Attestation.id).getD previousId =
        (rest.getLast?.map Attestation.id).getD attestation.id := by
      cases rest with
      | nil => rfl
      | cons next later => rw [List.getLast?_cons_cons, List.getLast?_cons, Option.map_some, Option.getD_some, Option.getD_some]
    rw [ends]
    simp only [List.forall_mem_cons, List.head?_cons, Option.mem_def, Option.some.injEq, forall_eq', Follows]
    tauto

/-- A chain is accepted when each is genuine and names the one before it. The first is asked
for nothing before it. -/
theorem verifyChain_accepts {chain : List Attestation} :
    (∃ last, verifyChain host chain = .ok last) ↔
      (∀ attestation ∈ chain, attestation.Genuine host) ∧ chain.IsChain Follows := by
  simp only [verifyChain, verifyFrom_ok]
  refine ⟨fun ⟨_, genuine, _, linked, _⟩ => ⟨genuine, linked⟩, fun ⟨genuine, linked⟩ => ⟨_, genuine, ?_, linked, rfl⟩⟩
  exact fun _ _ absent => absurd rfl absent

theorem verifyChain_append {chain : List Attestation} {attestation : Attestation}
    (accepted : ∃ last, verifyChain host chain = .ok last) (genuine : attestation.Genuine host)
    (follows : attestation.previousAttestation = chainHead chain) :
    ∃ last, verifyChain host (chain ++ [attestation]) = .ok last := by
  obtain ⟨earlier, linked⟩ := verifyChain_accepts.mp accepted
  refine verifyChain_accepts.mpr ⟨?_, List.isChain_append.mpr ⟨linked, List.isChain_singleton _, ?_⟩⟩
  · intro other member
    rcases List.mem_append.mp member with before | now
    · exact earlier other before
    · rwa [List.mem_singleton.mp now]
  · intro before atEnd next atHead _
    cases Option.some.inj atHead
    rw [follows, chainHead, Option.mem_def.mp atEnd, Option.bind_some]

end Avow
end Burble.Verification

namespace Burble.Verification.Avow

inductive EntityType
  | membership
  | permission
  | moderation
  deriving DecidableEq, Repr

abbrev ChainKey := EntityType × String

/-- The named table, once some caller has made it. -/
abbrev ChainTable := Option (FiniteMap ChainKey (List Attestation))

def Request.key (request : Request) : ChainKey := (.membership, request.entityId)

/-- Where in a call `init_store` is running: for `chain_head`, or in `append_to_chain` or in the
`get_chain` under it, with the attestation made by then. -/
inductive Stage
  | head
  | append (attestation : Attestation)
  | chain (attestation : Attestation)
  deriving DecidableEq

/-- The next thing a call does. Between two of these other callers go on. -/
inductive Point
  | whereis (stage : Stage)
  | create (stage : Stage)
  | lookupHead
  | build (previous : Option String)
  | lookupChain (attestation : Attestation)
  | insert (attestation : Attestation) (chain : List Attestation)
  | returned (attestation : Attestation)
  | raised
  deriving DecidableEq

structure Call where
  request : Request
  point : Point
  deriving DecidableEq

def Stage.ready : Stage → Point
  | head => .lookupHead
  | append attestation => .whereis (.chain attestation)
  | chain attestation => .lookupChain attestation

/-- The chain under a key, nothing stored being the empty one. -/
def chainAt (table : ChainTable) (key : ChainKey) : List Attestation :=
  (table.bind fun chains => chains.lookup key).getD []

/-- One access to the table. `:ets.new` raises when the name is taken, and the others when
there is no table. -/
def access (table : ChainTable) (key : ChainKey) : Point → ChainTable × Point
  | .whereis stage => (table, if table.isSome then stage.ready else .create stage)
  | .create stage => if table.isSome then (table, .raised) else (some ∅, stage.ready)
  | .lookupHead => (table, if table.isSome then .build (chainHead (chainAt table key)) else .raised)
  | .lookupChain attestation =>
    (table, if table.isSome then .insert attestation (chainAt table key) else .raised)
  | .insert attestation chain =>
    match table with
    | some chains => (some (AList.insert key (chain ++ [attestation]) chains), .returned attestation)
    | none => (none, .raised)
  | other => (table, other)

structure AvowState where
  table : ChainTable
  calls : FiniteMap Nat Call
  issued : List Attestation

inductive AvowLabel
  | call (caller : Nat) (request : Request)
  | advance (caller : Nat)
  | build (caller : Nat) (random : List UInt8) (timestamp : DateTime)
  | unchained (request : Unchained) (random : List UInt8) (timestamp : DateTime)

def AvowState.start : AvowState := ⟨none, ∅, []⟩

def AvowState.chain (state : AvowState) (key : ChainKey) : List Attestation := chainAt state.table key

variable (host : Host)

/-- Any caller takes its next step. -/
def avowStep (state : AvowState) : AvowLabel → Option AvowState
  | .call caller request =>
    if (state.calls.lookup caller).isSome then none
    else some { state with calls := AList.insert caller ⟨request, .whereis .head⟩ state.calls }
  | .advance caller => do
    let call ← state.calls.lookup caller
    let (table, point) := access state.table call.request.key call.point
    some { state with table, calls := AList.insert caller { call with point } state.calls }
  | .build caller random timestamp => do
    let call ← state.calls.lookup caller
    match call.point with
    | .build previous =>
      let attestation := call.request.build host random timestamp previous
      some { state with
        calls := AList.insert caller { call with point := .whereis (.append attestation) } state.calls
        issued := state.issued ++ [attestation] }
    | _ => none
  | .unchained request random timestamp =>
    some { state with issued := state.issued ++ [request.build host random timestamp] }

abbrev AvowRun := Run fun before label after => avowStep host before label = some after

variable {host}

/-- A call's move: its point and the table before, and both after. -/
structure Moves (before after : AvowState) (caller : Nat) (call : Call) (point : Point) : Prop where
  found : before.calls.lookup caller = some call
  calls : after.calls = AList.insert caller { call with point } before.calls

theorem avowStep_cases {before after : AvowState} {label : AvowLabel} (taken : avowStep host before label = some after) :
    (∃ caller request, label = .call caller request ∧ before.calls.lookup caller = none ∧
      after = { before with calls := AList.insert caller ⟨request, .whereis .head⟩ before.calls }) ∨
    (∃ caller call point, label = .advance caller ∧ Moves before after caller call point ∧
      access before.table call.request.key call.point = (after.table, point) ∧ after.issued = before.issued) ∨
    (∃ caller call random timestamp previous, label = .build caller random timestamp ∧ call.point = .build previous ∧
      Moves before after caller call (.whereis (.append (call.request.build host random timestamp previous))) ∧
      after.table = before.table ∧
      after.issued = before.issued ++ [call.request.build host random timestamp previous]) ∨
    (∃ request random timestamp, label = .unchained request random timestamp ∧
      after = { before with issued := before.issued ++ [request.build host random timestamp] }) := by
  cases label with
  | call caller request =>
    simp only [avowStep] at taken
    split_ifs at taken with busy
    exact .inl ⟨caller, request, rfl, Option.not_isSome_iff_eq_none.mp busy, (Option.some.inj taken).symm⟩
  | advance caller =>
    simp only [avowStep, Option.bind_eq_bind, Option.bind_eq_some_iff] at taken
    obtain ⟨call, found, moved⟩ := taken
    cases moved
    exact .inr (.inl ⟨caller, call, _, rfl, ⟨found, rfl⟩, rfl, rfl⟩)
  | build caller random timestamp =>
    simp only [avowStep, Option.bind_eq_bind, Option.bind_eq_some_iff] at taken
    obtain ⟨call, found, moved⟩ := taken
    cases atPoint : call.point with
    | build previous =>
      simp only [atPoint] at moved
      cases moved
      exact .inr (.inr (.inl ⟨caller, call, random, timestamp, previous, rfl, atPoint, ⟨found, rfl⟩, rfl, rfl⟩))
    | _ => simp [atPoint] at moved
  | unchained request random timestamp =>
    exact .inr (.inr (.inr ⟨request, random, timestamp, rfl, (Option.some.inj taken).symm⟩))

/-- A call that is to write finds stored what it has read, both times: no other call on the
entity has written since. -/
def Point.Current (stored : List Attestation) : Point → Prop
  | .insert attestation chain => stored = chain ∧ attestation.previousAttestation = chainHead chain
  | _ => True

def Undisturbed (state : AvowState) : AvowLabel → Prop
  | .advance caller => ∀ call ∈ state.calls.lookup caller, call.point.Current (state.chain call.request.key)
  | _ => True

theorem advance_at (table : ChainTable) (calls : FiniteMap Nat Call) (issued : List Attestation) (caller : Nat)
    (request : Request) (point : Point) (current : point.Current (chainAt table request.key)) :
    Guarded Undisturbed (fun before label after => avowStep host before label = some after)
      ⟨table, AList.insert caller ⟨request, point⟩ calls, issued⟩ (.advance caller)
      ⟨(access table request.key point).1,
        AList.insert caller ⟨request, (access table request.key point).2⟩ calls, issued⟩ := by
  refine ⟨fun call found => ?_, ?_⟩
  · rw [AList.lookup_insert] at found
    cases found
    exact current
  · simp only [avowStep, AList.lookup_insert, Option.bind_eq_bind, Option.bind_some, AList.insert_insert]

theorem build_at (table : ChainTable) (calls : FiniteMap Nat Call) (issued : List Attestation) (caller : Nat)
    (request : Request) (random : List UInt8) (timestamp : DateTime) (previous : Option String) :
    Guarded Undisturbed (fun before label after => avowStep host before label = some after)
      ⟨table, AList.insert caller ⟨request, .build previous⟩ calls, issued⟩ (.build caller random timestamp)
      ⟨table, AList.insert caller
          ⟨request, .whereis (.append (request.build host random timestamp previous))⟩ calls,
        issued ++ [request.build host random timestamp previous]⟩ := by
  refine ⟨trivial, ?_⟩
  simp only [avowStep, AList.lookup_insert, Option.bind_eq_bind, Option.bind_some, AList.insert_insert]

theorem chainAt_insert (chains : FiniteMap ChainKey (List Attestation)) (key other : ChainKey)
    (chain : List Attestation) : chainAt (some (AList.insert key chain chains)) other =
      if other = key then chain else chainAt (some chains) other := by
  simp only [chainAt, Option.bind_some, FiniteMap.lookup_insert_if]
  split
  · rfl
  · rfl

/-- Where `init_store` leaves the table. -/
def initStore (table : ChainTable) : FiniteMap ChainKey (List Attestation) := table.getD ∅

theorem chainAt_initStore (table : ChainTable) (key : ChainKey) :
    chainAt (some (initStore table)) key = chainAt table key := by
  cases table with
  | none => simp [chainAt, initStore]
  | some chains => rfl

variable (host) in
theorem init_head (table : ChainTable) (calls : FiniteMap Nat Call) (issued : List Attestation) (caller : Nat)
    (request : Request) : ∃ labels, Run (Guarded Undisturbed fun before label after => avowStep host before label = some after)
      ⟨table, AList.insert caller ⟨request, .whereis .head⟩ calls, issued⟩ labels
      ⟨some (initStore table), AList.insert caller ⟨request, .lookupHead⟩ calls, issued⟩ := by
  cases table with
  | none => exact ⟨_, (Run.start.next (advance_at _ _ _ _ _ _ (by trivial))).next (advance_at _ _ _ _ _ _ (by trivial))⟩
  | some chains => exact ⟨_, Run.start.next (advance_at _ _ _ _ _ _ (by trivial))⟩

variable (host) in
/-- A call that nobody disturbs goes through, and appends its attestation. -/
theorem serve (state : AvowState) (caller : Nat) (request : Request) (random : List UInt8) (timestamp : DateTime)
    (free : state.calls.lookup caller = none) :
    let made := request.build host random timestamp (chainHead (state.chain request.key))
    ∃ labels after,
      Run (Guarded Undisturbed fun before label after => avowStep host before label = some after) state labels after ∧
      after.issued = state.issued ++ [made] ∧ after.chain request.key = state.chain request.key ++ [made] ∧
      after.calls = AList.insert caller ⟨request, .returned made⟩ state.calls := by
  obtain ⟨table, calls, issued⟩ := state
  have called : Guarded Undisturbed (fun before label after => avowStep host before label = some after)
      ⟨table, calls, issued⟩ (.call caller request)
      ⟨table, AList.insert caller ⟨request, .whereis .head⟩ calls, issued⟩ := by
    refine ⟨trivial, ?_⟩
    simp only [avowStep, free, Option.isSome_none, Bool.false_eq_true, if_false]
  obtain ⟨labels, made⟩ := init_head host table calls issued caller request
  have read := made.next (advance_at _ _ _ _ _ _ (by trivial))
  have built := read.next (build_at _ _ _ _ _ random timestamp _)
  have found := built.next (advance_at _ _ _ _ _ _ (by trivial))
  have looked := (found.next (advance_at _ _ _ _ _ _ (by trivial))).next (advance_at _ _ _ _ _ _ (by trivial))
  -- the write is of what both lookups found
  have written := looked.next (advance_at _ _ _ _ _ _ (by constructor <;> cases request <;> rfl))
  refine ⟨_, _, (Run.single called).append written, ?_, ?_, ?_⟩
  · simp only [AvowState.chain, chainAt_initStore]
  · simp only [access, Option.isSome_some, if_true, Stage.ready, AvowState.chain, chainAt_insert, chainAt_initStore]
  · simp only [access, Option.isSome_some, if_true, Stage.ready, AvowState.chain, chainAt_initStore]

end Burble.Verification.Avow
