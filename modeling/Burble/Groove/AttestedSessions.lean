import Burble.Groove.ServerChange

namespace Burble.Groove

def isConnect (event : String) : Bool := event = "groove:connect"

/-- A disconnect or the expiry of a lease. -/
def isTerminal (event : String) : Bool := event = "groove:disconnect" || event = "groove:lease-expired"

/-- The number of records about a session whose event is of a kind. -/
def recordCount (kind : String → Bool) (handle : String) (attested : List (String × Attestation)) : Nat :=
  attested.countP fun entry => entry.1 = handle && kind entry.2.body.event

/-- Every record, newest first, shows the hash of the one before it, and the first one the genesis hash. -/
def Linked (hashOf : AttestationBody → String) : List Attestation → Prop
  | [] => True
  | record :: older =>
    record.hash = hashOf record.body ∧ record.body.prevHash = (older.head?.map Attestation.hash).getD genesisHash ∧
      Linked hashOf older

/-- What is stored of the chain is its newest part. -/
structure Chained (hashOf : AttestationBody → String) (server : Server) : Prop where
  stored : server.attestations = (server.attested.map Prod.snd).take maxAttestationDepth
  linked : Linked hashOf (server.attested.map Prod.snd)

theorem Chained.record {hashOf : AttestationBody → String} {server : Server} (chained : Chained hashOf server)
    (handle event consumer : String) (capabilities : List String) (timestamp : String) (residue : Option Nat) :
    Chained hashOf (server.recordAttestation hashOf handle event consumer capabilities timestamp residue) where
  stored := by
    simp only [Server.recordAttestation, List.map_cons]
    rw [chained.stored, ← List.take_succ_cons, List.take_take, Nat.min_eq_left (Nat.le_succ _)]
  linked := by
    -- the newest stored record is the newest of all
    have newest : ∀ records : List Attestation, (records.take maxAttestationDepth).head? = records.head? := by
      intro records
      cases records <;> rfl
    refine ⟨rfl, ?_, chained.linked⟩
    simp only [chained.stored, newest]

/-- One message as it was handled, with what was replied. -/
structure Handled where
  moment : Moment
  op : Op
  reply : Reply

def Serves (hashOf : AttestationBody → String) (before : Server) (e : Handled) (after : Server) : Prop :=
  ∃ sent, before.handle hashOf e.moment e.op = (e.reply, after, sent)

/-- The session ids drawn so far. -/
def drawnHandles (history : List Handled) : List String := history.filterMap (·.op.draws)

/-- The queue, the chain and the sessions of the server, once these session ids have been drawn. -/
structure Accounted (hashOf : AttestationBody → String) (drawn : List String) (server : Server) : Prop where
  depth : server.depth = server.queue.length
  bounded : server.queue.length ≤ maxQueueDepth
  chained : Chained hashOf server
  drawn : ∀ entry ∈ server.attested, entry.1 ∈ drawn
  present {handle : String} {info : ConnInfo} : server.connections.lookup handle = some info →
    recordCount isConnect handle server.attested = 1 ∧ recordCount isTerminal handle server.attested = 0
  once (handle : String) : recordCount isConnect handle server.attested ≤ 1 ∧
    recordCount isTerminal handle server.attested ≤ 1

theorem recordCount_record (hashOf : AttestationBody → String) (kind : String → Bool) (other handle event consumer : String)
    (capabilities : List String) (timestamp : String) (residue : Option Nat) (server : Server) :
    recordCount kind other
        (server.recordAttestation hashOf handle event consumer capabilities timestamp residue).attested =
      recordCount kind other server.attested + if handle = other ∧ kind event = true then 1 else 0 := by
  simp only [recordCount, Server.recordAttestation, List.countP_cons, Bool.and_eq_true, decide_eq_true_eq]

namespace Accounted
variable {hashOf : AttestationBody → String} {moment : Moment} {drawn : List String} {before after : Server}

theorem start : Accounted hashOf drawn Server.init where
  depth := rfl
  bounded := Nat.zero_le _
  chained := ⟨rfl, trivial⟩
  drawn _ member := absurd member List.not_mem_nil
  present found := absurd found (by simp [Server.init])
  once _ := ⟨Nat.zero_le _, Nat.zero_le _⟩

theorem more (accounted : Accounted hashOf drawn before) (handles : List String) :
    Accounted hashOf (drawn ++ handles) before :=
  { accounted with drawn := fun entry member => List.mem_append_left _ (accounted.drawn entry member) }

/-- A session id that was not drawn has no records. -/
theorem count_eq_zero (accounted : Accounted hashOf drawn before) {handle : String} (unknown : handle ∉ drawn)
    (kind : String → Bool) : recordCount kind handle before.attested = 0 := by
  refine List.countP_eq_zero.mpr fun entry member counted => unknown ?_
  have same : entry.1 = handle := by
    simp only [Bool.and_eq_true, decide_eq_true_eq] at counted
    exact counted.1
  exact same ▸ accounted.drawn entry member

/-- The end of a session: its messages go, and its one terminal record is made. -/
theorem finish (accounted : Accounted hashOf drawn before) {event : String} (residue : Option Nat)
    {handle : String} {info : ConnInfo} (found : before.connections.lookup handle = some info)
    (terminal : event = "groove:disconnect" ∨ event = "groove:lease-expired") (stamp : String → String) :
    Accounted hashOf drawn (before.finish hashOf event residue stamp handle info) where
  depth := rfl
  bounded := (List.length_filter_le ..).trans accounted.bounded
  chained := by
    refine Chained.record ?_ ..
    exact ⟨accounted.chained.stored, accounted.chained.linked⟩
  drawn entry member := by
    rcases List.mem_cons.mp member with rfl | older
    · -- a session that is present has a record
      by_contra unknown
      have none := accounted.count_eq_zero unknown isConnect
      have one := (accounted.present found).1
      simp only at none
      omega
    · exact accounted.drawn entry older
  present {other session} still := by
    have lookup : (before.connections.erase handle).lookup other = some session := still
    rw [FiniteMap.lookup_erase_if] at lookup
    split at lookup
    · cases lookup
    next elsewhere =>
      simp only [Server.finish, recordCount_record, if_neg fun both => elsewhere (Eq.symm (And.left both)), Nat.add_zero]
      exact accounted.present lookup
  once other := by
    obtain ⟨connects, ends⟩ := accounted.once other
    have started : isConnect event = false := by
      rcases terminal with rfl | rfl <;> decide
    simp only [Server.finish, recordCount_record, started, Bool.false_eq_true, and_false, if_false, Nat.add_zero]
    refine ⟨connects, ?_⟩
    by_cases same : handle = other
    · subst same
      rw [(accounted.present found).2]
      split <;> decide
    · rw [if_neg fun both => same both.1]
      exact ends

/-- A new session, under an id that was not drawn before. -/
theorem connected (accounted : Accounted hashOf drawn before) {handle : String} (unknown : handle ∉ drawn) (info : ConnInfo)
    (timestamp : String) :
    Accounted hashOf (drawn ++ [handle]) ((before.setConnection handle info).recordAttestation hashOf handle
      "groove:connect" info.peerId info.matchedCapabilities timestamp none) where
  depth := accounted.depth
  bounded := accounted.bounded
  chained := by
    refine Chained.record ?_ ..
    exact ⟨accounted.chained.stored, accounted.chained.linked⟩
  drawn entry member := by
    rcases List.mem_cons.mp member with rfl | older
    · simp
    · exact List.mem_append_left _ (accounted.drawn entry older)
  present {other session} found := by
    have lookup : (before.connections.insert handle info).lookup other = some session := found
    rw [FiniteMap.lookup_insert_if] at lookup
    have starts : isConnect "groove:connect" = true := by decide
    have ends : isTerminal "groove:connect" = false := by decide
    simp only [recordCount_record, starts, ends, Bool.false_eq_true, and_false, and_true, if_false, Nat.add_zero]
    by_cases same : other = handle
    · subst same
      simp only [if_true]
      exact ⟨congrArg (· + 1) (accounted.count_eq_zero unknown _), accounted.count_eq_zero unknown _⟩
    · rw [if_neg same] at lookup
      rw [if_neg (Ne.symm same)]
      exact accounted.present lookup
  once other := by
    obtain ⟨connects, terminals⟩ := accounted.once other
    have starts : isConnect "groove:connect" = true := by decide
    have ends : isTerminal "groove:connect" = false := by decide
    simp only [recordCount_record, starts, ends, Bool.false_eq_true, and_false, and_true, if_false, Nat.add_zero]
    refine ⟨?_, terminals⟩
    by_cases same : handle = other
    · subst same
      simp only [if_true]
      exact (congrArg (· + 1) (accounted.count_eq_zero unknown _)).le
    · rw [if_neg same]
      exact connects

/-- A session that is present is changed in place. -/
theorem setConnection (accounted : Accounted hashOf drawn before) {handle : String} {info : ConnInfo}
    (found : before.connections.lookup handle = some info) (changed : ConnInfo) :
    Accounted hashOf drawn (before.setConnection handle changed) :=
  { accounted with
    present := fun {other session} still => by
      have lookup : (before.connections.insert handle changed).lookup other = some session := still
      rw [FiniteMap.lookup_insert_if] at lookup
      split at lookup
      next same =>
        subst same
        exact accounted.present found
      next => exact accounted.present lookup
    chained := ⟨accounted.chained.stored, accounted.chained.linked⟩ }

theorem push (accounted : Accounted hashOf drawn before) (message : Message) : Accounted hashOf drawn (before.push message) := by
  have depth := accounted.depth
  have bounded := accounted.bounded
  unfold Server.push
  split
  next full =>
    have some : 1 ≤ before.queue.length := by
      have positive : 1 ≤ maxQueueDepth := by decide
      omega
    have same : (before.queue.tail ++ [message]).length = before.queue.length := by
      simp only [List.length_append, List.length_tail, List.length_singleton]
      omega
    exact { accounted with
      depth := depth.trans same.symm
      bounded := same ▸ bounded
      chained := ⟨accounted.chained.stored, accounted.chained.linked⟩ }
  next room =>
    have longer : (before.queue ++ [message]).length = before.queue.length + 1 := by simp
    have fits : (before.queue ++ [message]).length ≤ maxQueueDepth := by omega
    exact { accounted with
      depth := by rw [longer, depth]
      bounded := fits
      chained := ⟨accounted.chained.stored, accounted.chained.linked⟩ }

/-- Every change but a new session. -/
theorem change (accounted : Accounted hashOf drawn before) {change : Change} (changes : Changes hashOf moment before change after)
    (old : ∀ handle, change ≠ .connected handle) : Accounted hashOf drawn after := by
  cases changes with
  | pushed message => exact accounted.push message
  | popped =>
    exact { accounted with
      depth := rfl
      bounded := Nat.zero_le _
      chained := ⟨accounted.chained.stored, accounted.chained.linked⟩ }
  | connected n handle => exact absurd rfl (old handle)
  | expired n found => exact accounted.finish _ found (.inr rfl) _
  | disconnected n found => exact accounted.finish _ found (.inl rfl) _
  | refreshed n m found => exact accounted.setConnection found _
  | adjusted found => exact accounted.setConnection found _
  | dropped found =>
    exact { accounted with
      present := fun {other session} still => by
        have lookup := still
        simp only [FiniteMap.lookup_erase_if] at lookup
        split at lookup
        · cases lookup
        · exact accounted.present lookup
      chained := ⟨accounted.chained.stored, accounted.chained.linked⟩ }

theorem run (accounted : Accounted hashOf drawn before) {changes : List Change}
    (run : Run (Changes hashOf moment) before changes after) (old : ∀ handle, .connected handle ∉ changes) :
    Accounted hashOf drawn after := by
  induction run with
  | start => exact accounted
  | next _ taken ih =>
    have earlier := ih fun handle member => old handle (List.mem_append_left _ member)
    exact earlier.change taken fun handle same => old handle (List.mem_append_right _ (by simp [same]))

end Accounted

/-- Among new records, those that end a session. -/
def ended (new : List (String × Attestation)) : List (String × Attestation) :=
  new.filter fun entry => isTerminal entry.2.body.event

/-- A message is attributable to a session of a peer: it names the session's handle, or it names no
handle and comes from the session or the peer. -/
def Attributable (message : Message) (handle peerId : String) : Prop :=
  .string handle ∈ message.handles ∨
    message.handles = [] ∧ ∃ key ∈ [Key.atom "from", .text "from"], ∃ sender ∈ [handle, peerId],
      message.lookup key = some (.string sender)

theorem isText_iff {value : Json} {text : String} : Json.isText value text = true ↔ value = .string text := by
  cases value <;> simp [Json.isText]

theorem fromPeer_iff {message : Message} {handle peerId : String} :
    message.fromPeer handle peerId = true ↔ Attributable message handle peerId := by
  unfold Message.fromPeer Attributable
  by_cases none : message.handles = []
  · rw [if_pos (by rw [none]; rfl)]
    simp only [none, List.not_mem_nil, true_and, false_or, List.any_eq_true, Option.any_eq_true, Bool.or_eq_true, isText_iff]
    constructor
    · rintro ⟨key, member, value, found, rfl | rfl⟩
      · exact ⟨key, member, handle, by simp, found⟩
      · exact ⟨key, member, peerId, by simp, found⟩
    · rintro ⟨key, member, sender, isSender, found⟩
      refine ⟨key, member, _, found, ?_⟩
      rcases List.mem_cons.mp isSender with rfl | last
      · exact .inl rfl
      · exact .inr (congrArg Json.string (List.mem_singleton.mp last))
  · rw [if_neg (by simpa using none)]
    simp only [none, false_and, or_false, List.any_eq_true, isText_iff, exists_eq_right]

instance (message : Message) (handle peerId : String) : Decidable (Attributable message handle peerId) :=
  decidable_of_iff (message.fromPeer handle peerId = true) fromPeer_iff

/-- What a part of a step has come to: the records it made, the messages it left and the sessions it ended.
Without a record, only a sweep removes a session, and only one that has no lease. -/
structure Purges (swept : Prop) (before current : Server) (new : List (String × Attestation)) : Prop where
  attested : current.attested = new ++ before.attested
  queue : current.queue = before.queue.filter fun message =>
    (ended new).all fun entry => ! message.fromPeer entry.1 entry.2.body.consumer
  ended {entry : String × Attestation} : entry ∈ ended new →
    (∃ info, before.connections.lookup entry.1 = some info ∧ info.peerId = entry.2.body.consumer) ∧
      current.connections.lookup entry.1 = none
  kept {handle : String} {info : ConnInfo} : current.connections.lookup handle = some info →
    ∃ old, before.connections.lookup handle = some old ∧ info.peerId = old.peerId ∧ info.leased.isSome = old.leased.isSome
  gone {handle : String} {info : ConnInfo} : before.connections.lookup handle = some info →
    current.connections.lookup handle = none → (∃ entry ∈ Groove.ended new, entry.1 = handle) ∨ info.leased = none ∧ swept

namespace Purges
variable {hashOf : AttestationBody → String} {moment : Moment} {before current after : Server}
variable {new : List (String × Attestation)} {swept : Prop}

theorem start (before : Server) : Purges swept before before [] where
  attested := rfl
  queue := (List.filter_eq_self.mpr fun _ _ => rfl).symm
  ended member := absurd member List.not_mem_nil
  kept found := ⟨_, found, rfl, rfl⟩
  gone found none := by cases found.symm.trans none

theorem finish (purges : Purges swept before current new) {event : String} (residue : Option Nat) {handle : String} {info : ConnInfo}
    (found : current.connections.lookup handle = some info) (terminal : isTerminal event = true) (stamp : String → String) :
    ∃ record, Purges swept before (current.finish hashOf event residue stamp handle info) ((handle, record) :: new) := by
  obtain ⟨old, there, peerId, _⟩ := purges.kept found
  obtain ⟨record, isEvent, consumer, attested⟩ : ∃ record : Attestation, record.body.event = event ∧
      record.body.consumer = info.peerId ∧
      (current.finish hashOf event residue stamp handle info).attested = (handle, record) :: current.attested :=
    ⟨_, rfl, rfl, rfl⟩
  have queue : (current.finish hashOf event residue stamp handle info).queue =
      current.queue.filter fun message => ! message.fromPeer handle info.peerId := rfl
  have lookup (other : String) : (current.finish hashOf event residue stamp handle info).connections.lookup other =
      if other = handle then none else current.connections.lookup other := FiniteMap.lookup_erase_if ..
  have more : Groove.ended ((handle, record) :: new) = (handle, record) :: Groove.ended new :=
    List.filter_cons_of_pos (isEvent ▸ terminal)
  refine ⟨record, by rw [attested, purges.attested]; rfl, ?_, fun {entry} member => ?_, fun {other session} still => ?_,
    fun {other session} was isNone => ?_⟩
  · rw [queue, purges.queue, List.filter_filter, more, ← consumer]
    rfl
  · rw [lookup]
    rcases List.mem_cons.mp (more ▸ member) with rfl | older
    · exact ⟨⟨old, there, peerId.symm.trans consumer.symm⟩, if_pos rfl⟩
    · obtain ⟨was, isNone⟩ := purges.ended older
      rw [isNone]
      exact ⟨was, ite_self _⟩
  · rw [lookup] at still
    split at still
    · cases still
    · exact purges.kept still
  · rw [more]
    by_cases same : other = handle
    · exact .inl ⟨_, List.mem_cons_self, same.symm⟩
    · rw [lookup, if_neg same] at isNone
      rcases purges.gone was isNone with ⟨entry, member, isOther⟩ | legacy
      · exact .inl ⟨entry, List.mem_cons_of_mem _ member, isOther⟩
      · exact .inr legacy

theorem setConnection (purges : Purges swept before current new) {handle : String} {info changed : ConnInfo}
    (found : current.connections.lookup handle = some info) (peerId : changed.peerId = info.peerId)
    (leased : changed.leased.isSome = info.leased.isSome) : Purges swept before (current.setConnection handle changed) new := by
  have lookup (other : String) : (current.setConnection handle changed).connections.lookup other =
      if other = handle then some changed else current.connections.lookup other := FiniteMap.lookup_insert_if ..
  refine { purges with ended := fun {entry} member => ?_, kept := fun {other session} still => ?_, gone := fun was none => ?_ }
  · obtain ⟨was, isNone⟩ := purges.ended member
    refine ⟨was, ?_⟩
    rw [lookup, if_neg]
    · exact isNone
    · intro same
      rw [same, found] at isNone
      cases isNone
  · rw [lookup] at still
    split at still
    next same =>
      cases still
      obtain ⟨old, there, samePeer, sameLease⟩ := purges.kept found
      exact ⟨old, same ▸ there, peerId.trans samePeer, leased.trans sameLease⟩
    next => exact purges.kept still
  · rw [lookup] at none
    split at none
    · cases none
    · exact purges.gone was none

theorem change (purges : Purges swept before current new) {change : Change} (changes : Changes hashOf moment current change after)
    (old : ∀ handle, change ≠ .connected handle) (unqueued : change ≠ .queued) (sweeps : ∀ handle, change = .dropped handle → swept) : ∃ new, Purges swept before after new := by
  cases changes with
  | pushed => exact absurd rfl unqueued
  | popped => exact absurd rfl unqueued
  | connected n handle => exact absurd rfl (old handle)
  | expired n found =>
    have terminal : isTerminal "groove:lease-expired" = true := by decide
    obtain ⟨record, finished⟩ := purges.finish (some 0) found terminal moment.stamp
    exact ⟨_, finished⟩
  | disconnected n found =>
    have terminal : isTerminal "groove:disconnect" = true := by decide
    obtain ⟨record, finished⟩ := purges.finish none found terminal moment.stamp
    exact ⟨_, finished⟩
  | refreshed n m found =>
    refine ⟨new, purges.setConnection found ?_ ?_⟩
    · unfold Server.refreshLease
      split
      · split <;> rfl
      · rfl
    · unfold Server.refreshLease
      split
      next leased isLeased =>
        split
        · rfl
        · rw [isLeased]
          rfl
      · rfl
  | adjusted found same => exact ⟨new, purges.setConnection found same.peerId (by rw [same.leased])⟩
  | @dropped handle info found legacy =>
    have lookup (other : String) : (current.connections.erase handle).lookup other =
        if other = handle then none else current.connections.lookup other := FiniteMap.lookup_erase_if ..
    refine ⟨new, { purges with ended := fun {entry} member => ?_, kept := fun {other session} still => ?_, gone := ?_ }⟩
    · obtain ⟨was, isNone⟩ := purges.ended member
      refine ⟨was, (lookup _).trans ?_⟩
      rw [isNone]
      split <;> rfl
    · have left := (lookup other).symm.trans still
      split at left
      · cases left
      · exact purges.kept left
    · intro other session was isNone
      have left := (lookup other).symm.trans isNone
      by_cases same : other = handle
      · subst same
        obtain ⟨old, there, _, leased⟩ := purges.kept found
        cases there.symm.trans was
        rw [legacy] at leased
        exact .inr ⟨Option.isNone_iff_eq_none.mp (Option.isSome_eq_false_iff.mp leased.symm), sweeps other rfl⟩
      · rw [if_neg same] at left
        exact purges.gone was left

theorem run {changes : List Change} (run : Run (Changes hashOf moment) before changes after)
    (old : ∀ handle, .connected handle ∉ changes) (unqueued : .queued ∉ changes)
    (sweeps : ∀ handle, .dropped handle ∈ changes → swept) : ∃ new, Purges swept before after new := by
  induction run with
  | start => exact ⟨[], .start before⟩
  | @next changes current change after _ taken ih =>
    obtain ⟨new, purges⟩ := ih (fun handle member => old handle (List.mem_append_left _ member))
      (fun member => unqueued (List.mem_append_left _ member)) fun handle member => sweeps handle (List.mem_append_left _ member)
    exact purges.change taken (fun handle same => old handle (List.mem_append_right _ (by simp [same])))
      (fun same => unqueued (List.mem_append_right _ (by simp [same])))
      fun handle same => sweeps handle (List.mem_append_right _ (by simp [same]))

end Purges

section Running
variable {hashOf : AttestationBody → String} {history : List Handled} {before after server : Server} {e : Handled}

/-- What one message does: it connects one session, queues or drains messages, or ends sessions. -/
theorem serves_cases (taken : Serves hashOf before e after) :
    (∃ handle, e.op.draws = some handle ∧ (after = before ∨ ∃ changes, (changes = [] ∨ changes = [.adjusted handle]) ∧
      Run (Changes hashOf e.moment) before (.connected handle :: changes) after)) ∨
    e.op.draws = none ∧ (after = before ∨ Changes hashOf e.moment before .queued after) ∨
    e.op.draws = none ∧ ∃ changes, Run (Changes hashOf e.moment) before changes after ∧
      (∀ change ∈ changes, e.op.Makes e.reply change) ∧ (∀ handle, Change.connected handle ∉ changes) ∧
      Change.queued ∉ changes := by
  obtain ⟨sent, served⟩ := taken
  cases draws : e.op.draws with
  | some handle =>
    rcases handle_draws served draws with ⟨same, _⟩ | connects
    · exact .inl ⟨handle, rfl, .inl same⟩
    · exact .inl ⟨handle, rfl, .inr connects⟩
  | none =>
    refine .inr ?_
    cases queueing : e.op.isQueueing with
    | true =>
      refine .inl ⟨rfl, ?_⟩
      obtain ⟨moment, op, reply⟩ := e
      cases op with
      | push message =>
        cases served
        exact .inr (.pushed message)
      | pop =>
        cases served
        exact .inr .popped
      | _ => cases queueing
    | false =>
      obtain ⟨changes, last, run, makes, _⟩ := handle_traced served
      refine .inr ⟨rfl, changes ++ last, run, makes, fun handle member => ?_, fun member => ?_⟩
      · have drawn : e.op.draws = some handle := makes _ member
        rw [draws] at drawn
        cases drawn
      · have queued : e.op.isQueueing = true := makes _ member
        rw [queueing] at queued
        cases queued

/-- A record is never taken back. -/
theorem Changes.attested {moment : Moment} {change : Change} (changes : Changes hashOf moment before change after) :
    before.attested <:+ after.attested := by
  cases changes with
  | pushed message =>
    unfold Server.push
    split <;> exact List.suffix_refl _
  | popped | refreshed | adjusted | dropped => exact List.suffix_refl _
  | connected | expired | disconnected => exact List.suffix_cons _ _

theorem run_attested {moment : Moment} {changes : List Change} (run : Run (Changes hashOf moment) before changes after) :
    before.attested <:+ after.attested := by
  induction run with
  | start => exact List.suffix_refl _
  | next _ taken ih => exact ih.trans taken.attested

theorem Serves.attested (taken : Serves hashOf before e after) : before.attested <:+ after.attested := by
  obtain ⟨sent, served⟩ := taken
  obtain ⟨changes, last, run, _⟩ := handle_traced served
  exact run_attested run

/-- The step lemma: a session id that is drawn for a connection is new. -/
theorem Accounted.serves {drawn : List String} (accounted : Accounted hashOf drawn before)
    (taken : Serves hashOf before e after) (fresh : ∀ handle, e.op.draws = some handle → handle ∉ drawn) :
    Accounted hashOf (drawn ++ e.op.draws.toList) after := by
  rcases serves_cases taken with ⟨handle, draws, same | ⟨changes, isScope, run⟩⟩ | ⟨draws, same | queued⟩ |
    ⟨draws, changes, run, _, old, _⟩
  · exact same ▸ accounted.more _
  · rw [draws]
    obtain ⟨middle, made, rest⟩ := Run.cons_iff.mp run
    have connects : Accounted hashOf (drawn ++ [handle]) middle := by
      cases made with
      | connected n _ info _ timestamp => exact accounted.connected (fresh handle draws) info timestamp
    refine connects.run rest fun other member => ?_
    rcases isScope with rfl | rfl
    · exact absurd member List.not_mem_nil
    · cases List.mem_singleton.mp member
  · exact same ▸ accounted.more _
  · exact (accounted.change queued fun _ same => by cases same).more _
  · exact (accounted.run run old).more _

/-- The connection of a session makes its record. -/
theorem connected_record {handle : String} {lease : Option Lease} (taken : Serves hashOf before e after)
    (connects : e.reply = .connected handle lease) :
    ∃ entry ∈ after.attested, entry.1 = handle ∧ isConnect entry.2.body.event = true := by
  obtain ⟨sent, served⟩ := taken
  rcases handle_draws served (handle_connected (connects ▸ served)) with ⟨_, reason, failed⟩ | ⟨changes, _, run⟩
  · cases connects.symm.trans failed
  · obtain ⟨middle, made, rest⟩ := Run.cons_iff.mp run
    cases made with
    | connected n _ info _ timestamp =>
      have starts : isConnect "groove:connect" = true := by decide
      exact ⟨_, (run_attested rest).subset List.mem_cons_self, rfl, starts⟩

theorem run_accounted (run : Run (Serves hashOf) Server.init history server) (distinct : (drawnHandles history).Nodup) :
    Accounted hashOf (drawnHandles history) server ∧
      ∀ e ∈ history, ∀ handle lease, e.reply = .connected handle lease →
        ∃ entry ∈ server.attested, entry.1 = handle ∧ isConnect entry.2.body.event = true := by
  induction run with
  | start => exact ⟨.start, fun e member => absurd member List.not_mem_nil⟩
  | @next earlier current e after _ taken ih =>
    have drawn : drawnHandles (earlier ++ [e]) = drawnHandles earlier ++ e.op.draws.toList := by
      simp only [drawnHandles, List.filterMap_append, List.filterMap_cons, List.filterMap_nil]
      cases e.op.draws <;> rfl
    rw [drawn] at distinct ⊢
    obtain ⟨before, _, apart⟩ := List.nodup_append.mp distinct
    obtain ⟨accounted, recorded⟩ := ih before
    refine ⟨accounted.serves taken fun handle draws known => ?_, fun other member handle lease connects => ?_⟩
    · exact apart handle known handle (by simp [draws]) rfl
    · rcases List.mem_append.mp member with old | new
      · obtain ⟨entry, there, isRecord⟩ := recorded other old handle lease connects
        exact ⟨entry, taken.attested.subset there, isRecord⟩
      · cases List.mem_singleton.mp new
        exact connected_record taken connects

/-- A part of a step that ends no session. -/
def Spares (before after : Server) : Prop :=
  (∃ new, after.attested = new ++ before.attested ∧ ended new = []) ∧
    ∀ handle, before.connections.lookup handle ≠ none → after.connections.lookup handle ≠ none

theorem Spares.trans {first second third : Server} (one : Spares first second) (two : Spares second third) :
    Spares first third := by
  obtain ⟨⟨new, attested, none⟩, present⟩ := one
  obtain ⟨⟨newer, later, again⟩, still⟩ := two
  refine ⟨⟨newer ++ new, by rw [later, attested, List.append_assoc], ?_⟩, fun handle was => still handle (present handle was)⟩
  simp only [ended] at none again ⊢
  rw [List.filter_append, none, again, List.append_nil]

theorem Changes.spares {moment : Moment} {change : Change} (changes : Changes hashOf moment before change after)
    (harmless : change = .queued ∨ ∃ handle, change = .connected handle ∨ change = .adjusted handle) : Spares before after := by
  have inserted (handle : String) (info : ConnInfo) (other : String) (was : before.connections.lookup other ≠ none) :
      (before.connections.insert handle info).lookup other ≠ none := by
    rw [FiniteMap.lookup_insert_if]
    split
    · exact Option.some_ne_none _
    · exact was
  cases changes with
  | pushed message =>
    unfold Server.push
    split <;> exact ⟨⟨[], rfl, rfl⟩, fun _ was => was⟩
  | popped => exact ⟨⟨[], rfl, rfl⟩, fun _ was => was⟩
  | connected n handle info =>
    have starts : isTerminal "groove:connect" = false := by decide
    refine ⟨⟨[_], rfl, ?_⟩, inserted handle info⟩
    exact List.filter_cons_of_neg (Bool.not_eq_true _ ▸ starts)
  | adjusted => exact ⟨⟨[], rfl, rfl⟩, inserted _ _⟩
  | expired | disconnected | refreshed | dropped => rcases harmless with same | ⟨_, same | same⟩ <;> cases same

/-- The records of one message, the sessions that it ends, and what is left of the queue when it ends any. -/
structure Settles (before : Server) (op : Op) (after : Server) (new : List (String × Attestation)) : Prop where
  attested : after.attested = new ++ before.attested
  queue : ended new ≠ [] → after.queue = before.queue.filter fun message =>
    ∀ entry ∈ ended new, ¬ Attributable message entry.1 entry.2.body.consumer
  ended : ∀ entry ∈ ended new,
    (∃ info, before.connections.lookup entry.1 = some info ∧ info.peerId = entry.2.body.consumer) ∧
      after.connections.lookup entry.1 = none
  gone : ∀ handle info, before.connections.lookup handle = some info → after.connections.lookup handle = none →
    (∃ entry ∈ Groove.ended new, entry.1 = handle) ∨ info.leased = none ∧ op = .checkHeartbeats

theorem Spares.settles (spares : Spares before after) (op : Op) : ∃ new, Settles before op after new := by
  obtain ⟨⟨new, attested, none⟩, present⟩ := spares
  refine ⟨new, attested, fun some => absurd none some, fun entry member => ?_, fun handle info found gone => ?_⟩
  · rw [none] at member
    cases member
  · exact absurd gone (present handle (found ▸ Option.some_ne_none info))

theorem Purges.settles {new : List (String × Attestation)} {op : Op}
    (purges : Purges (op = .checkHeartbeats) before after new) : Settles before op after new where
  attested := purges.attested
  queue _ := by
    rw [purges.queue]
    refine List.filter_congr fun message _ => ?_
    rw [Bool.eq_iff_iff, List.all_eq_true, decide_eq_true_eq]
    refine forall₂_congr fun entry _ => ?_
    rw [← fromPeer_iff, Bool.not_eq_true, Bool.not_eq_true']
  ended _ := purges.ended
  gone _ _ := purges.gone

theorem Serves.settles (taken : Serves hashOf before e after) : ∃ new, Settles before e.op after new := by
  have stays : Spares before before := ⟨⟨[], rfl, rfl⟩, fun _ was => was⟩
  rcases serves_cases taken with ⟨handle, draws, same | ⟨changes, isScope, run⟩⟩ | ⟨draws, same | queued⟩ |
    ⟨draws, changes, run, makes, old, unqueued⟩
  · exact same ▸ stays.settles _
  · obtain ⟨middle, made, rest⟩ := Run.cons_iff.mp run
    have connects : Spares before middle := made.spares (.inr ⟨handle, .inl rfl⟩)
    rcases isScope with rfl | rfl
    · cases Run.nil_iff.mp rest
      exact connects.settles _
    · obtain ⟨last, bound, rest⟩ := Run.cons_iff.mp rest
      cases Run.nil_iff.mp rest
      exact (connects.trans (bound.spares (.inr ⟨handle, .inr rfl⟩))).settles _
  · exact same ▸ stays.settles _
  · exact (queued.spares (.inl rfl)).settles _
  · have swept (handle : String) (member : .dropped handle ∈ changes) : e.op = .checkHeartbeats :=
      makes (.dropped handle) member
    obtain ⟨new, purges⟩ := Purges.run run old unqueued swept
    exact ⟨new, purges.settles⟩

/-- Handle messages one after the other. -/
def serveAll (hashOf : AttestationBody → String) : List (Moment × Op) → Server → List Handled × Server
  | [], server => ([], server)
  | (moment, op) :: rest, server =>
    let (reply, next, _) := server.handle hashOf moment op
    let (history, last) := serveAll hashOf rest next
    (⟨moment, op, reply⟩ :: history, last)

theorem serveAll_run (messages : List (Moment × Op)) (server : Server) :
    Run (Serves hashOf) server (serveAll hashOf messages server).1 (serveAll hashOf messages server).2 := by
  induction messages generalizing server with
  | nil => exact .start
  | cons message rest ih => exact Run.cons_iff.mpr ⟨_, ⟨_, rfl⟩, ih _⟩

/-- In every run in which each connection draws a session id of its own: the stored records are the
newest of a chain that begins at the genesis hash; every session that was connected has one connect
record, and no session has more than one, or more than one terminal record; the depth is the length of
the queue; and a message that ends sessions wipes what is attributable to them and keeps the rest of the
queue in order. Only a session without a lease that timed out goes without a record. -/
theorem sessions_attested (run : Run (Serves hashOf) Server.init history server) (distinct : (drawnHandles history).Nodup) :
    (server.attestations = (server.attested.map Prod.snd).take maxAttestationDepth ∧
      Linked hashOf (server.attested.map Prod.snd)) ∧
    (∀ handle, recordCount isConnect handle server.attested ≤ 1 ∧ recordCount isTerminal handle server.attested ≤ 1) ∧
    (∀ e ∈ history, ∀ handle lease, e.reply = .connected handle lease → recordCount isConnect handle server.attested = 1) ∧
    (server.depth = server.queue.length ∧ server.queue.length ≤ maxQueueDepth) ∧
    ∀ e after, Serves hashOf server e after → ∃ new, Settles server e.op after new := by
  obtain ⟨accounted, recorded⟩ := run_accounted run distinct
  refine ⟨⟨accounted.chained.stored, accounted.chained.linked⟩, accounted.once, ?_, ⟨accounted.depth, accounted.bounded⟩,
    fun e after taken => taken.settles⟩
  intro e member handle lease connects
  obtain ⟨entry, there, isHandle, isRecord⟩ := recorded e member handle lease connects
  have positive : 0 < recordCount isConnect handle server.attested :=
    List.countP_pos_iff.mpr ⟨entry, there, by simp [isHandle, isRecord]⟩
  have most := (accounted.once handle).1
  omega

end Running

/-- Clocks that stand still while a message is handled. -/
def Moment.still (now : Int) : Moment := ⟨now, now, fun _ => now, fun _ => ⟨le_refl _, le_refl _⟩, now, id⟩

/-- A service connects under a soft lease, and two messages are queued, one that names its session. -/
def echoing : List (Moment × Op) :=
  let lease : Json := .object [("mode", .string "soft"), ("ttl_ms", .integer 60)]
  let manifest : JsonMap := ((AList.singleton "service_id" (.string "echo")).insert "consumes"
    (.array [.string "voice"])).insert "lease" lease
  [(.still 0, .connect manifest ⟨"one", 1⟩), (.still 1, .push (AList.singleton (.text "session_id") (.string "one"))),
    (.still 2, .push (AList.singleton (.text "from") (.string "gossamer")))]

theorem sessions_attested_echoing :
    recordCount isConnect "one" (serveAll (·.event) echoing .init).2.attested = 1 ∧
      ∃ new, Settles (serveAll (·.event) echoing .init).2 (.disconnect "one")
        ((serveAll (·.event) echoing .init).2.handle (·.event) (.still 3) (.disconnect "one")).2.1 new ∧
          ended new ≠ [] := by
  have distinct : (drawnHandles (serveAll (·.event) echoing .init).1).Nodup := by decide
  have connects : ∃ e ∈ (serveAll (·.event) echoing .init).1, ∃ lease, e.reply = .connected "one" lease :=
    ⟨_, List.mem_cons_self, _, rfl⟩
  have found : ((serveAll (·.event) echoing .init).2.connections.lookup "one").isSome = true := by decide
  have left : ((serveAll (·.event) echoing .init).2.handle (·.event) (.still 3)
      (.disconnect "one")).2.1.connections.lookup "one" = none := by decide
  obtain ⟨e, member, lease, connected⟩ := connects
  obtain ⟨info, isInfo⟩ := Option.isSome_iff_exists.mp found
  obtain ⟨_, _, counted, _, settles⟩ := sessions_attested (serveAll_run echoing .init) distinct
  obtain ⟨new, settled⟩ := settles ⟨.still 3, .disconnect "one", _⟩ _ ⟨_, rfl⟩
  refine ⟨counted e member "one" lease connected, new, settled, ?_⟩
  rcases settled.gone "one" info isInfo left with ⟨entry, isEnded, _⟩ | ⟨_, same⟩
  · exact List.ne_nil_of_mem isEnded
  · cases same

end Burble.Groove
