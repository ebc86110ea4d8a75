import Burble.Sessions.ConnectedSeats

namespace Burble.Sessions
variable {Pid Digest : Type} {secrets : Secrets Digest} {clock : Clock} {a b after : Authority Pid Digest}

namespace Exchange

/-- The secrets that a reply hands out. -/
def issued (e : Exchange Pid) : List String :=
  match e.reply with
  | .provisioned p => p.epoch :: p.grants.toList.map fun entry => entry.2.ticket
  | .claimed lease receipt => [receipt.rejoinToken, lease.id]
  | _ => []

/-- The credential of a claim that succeeds. -/
def spent (e : Exchange Pid) : Option Credential :=
  match e.request, e.reply with
  | .claim _ _ _ _ _ _ credential, .claimed _ _ => some credential
  | _, _ => none

/-- A provision offers a ticket under an epoch. -/
def Offers (e : Exchange Pid) (epoch ticket : String) : Prop :=
  ∃ p, e.reply = .provisioned p ∧ p.epoch = epoch ∧ ∃ role grant, p.grants.lookup role = some grant ∧ grant.ticket = ticket

/-- A claim under an epoch hands out a rejoin token. -/
def Hands (e : Exchange Pid) (epoch token : String) : Prop :=
  ∃ lease receipt, e.reply = .claimed lease receipt ∧ lease.epoch = epoch ∧ receipt.rejoinToken = token

theorem Offers.issued {e : Exchange Pid} {epoch ticket : String} (offers : e.Offers epoch ticket) :
    epoch ∈ e.issued ∧ ticket ∈ e.issued := by
  obtain ⟨p, provisioned, rfl, role, grant, found, rfl⟩ := offers
  simp only [Exchange.issued, provisioned]
  exact ⟨List.mem_cons_self, List.mem_cons_of_mem _ (List.mem_map.mpr ⟨(role, grant), FiniteMap.mem_toList.mpr found, rfl⟩)⟩

theorem Hands.issued {e : Exchange Pid} {epoch token : String} (hands : e.Hands epoch token) : token ∈ e.issued := by
  obtain ⟨lease, receipt, claimed, _, rfl⟩ := hands
  simp only [Exchange.issued, claimed]
  exact List.mem_cons_self

theorem Provisions.issued {e : Exchange Pid} {id epoch : String} {deadline : Int} (provisions : e.Provisions id epoch deadline) :
    epoch ∈ e.issued := by
  obtain ⟨p, provisioned, _, rfl, _⟩ := provisions
  simp only [Exchange.issued, provisioned]
  exact List.mem_cons_self

end Exchange

/-- The credentials of the claims that have succeeded, in order. -/
def spent (history : List (Exchange Pid)) : List Credential := history.filterMap Exchange.spent

section Provisions

/-- Seats and grants in the making, with the number of the secret that is the ticket of each role. -/
structure Ticketed (secrets : Secrets Digest) (first : Nat) (place : String → Nat)
    (made : FiniteMap String (Seat Pid Digest) × FiniteMap String Grant × Nat) : Prop where
  seats {role : String} {seat : Seat Pid Digest} : made.1.lookup role = some seat →
    (∃ subject, seat = .vacant subject (secrets.digest (secrets.secret (place role)))) ∧
      ∃ grant, made.2.1.lookup role = some grant
  grants {role : String} {grant : Grant} : made.2.1.lookup role = some grant →
    first ≤ place role ∧ place role < made.2.2 ∧ grant.ticket = secrets.secret (place role)
  apart {role other : String} {grant another : Grant} : made.2.1.lookup role = some grant →
    made.2.1.lookup other = some another → place role = place other → role = other
  grows : first ≤ made.2.2

theorem provisionSeat_ticketed {first : Nat} {place : String → Nat}
    {made : FiniteMap String (Seat Pid Digest) × FiniteMap String Grant × Nat} (ticketed : Ticketed secrets first place made)
    (entry : String × String) :
    Ticketed secrets first (Function.update place entry.1 made.2.2) (provisionSeat secrets made entry) := by
  obtain ⟨role, subject⟩ := entry
  obtain ⟨seats, grants, drawn⟩ := made
  have same : Function.update place role drawn role = drawn := Function.update_self ..
  have others {other : String} (elsewhere : other ≠ role) : Function.update place role drawn other = place other :=
    Function.update_of_ne elsewhere ..
  have known {other : String} {grant : Grant} (elsewhere : other ≠ role)
      (found : (grants.insert role ⟨subject, secrets.secret drawn⟩).lookup other = some grant) :
      grants.lookup other = some grant := by
    rwa [FiniteMap.lookup_insert_if, if_neg elsewhere] at found
  refine ⟨fun {other seat} found => ?_, fun {other grant} found => ?_, fun {one other grant another} isOne isOther equal => ?_,
    ticketed.grows.trans (Nat.le_succ _)⟩
  · simp only [provisionSeat, FiniteMap.lookup_insert_if] at found ⊢
    by_cases isRole : other = role
    · subst isRole
      rw [if_pos rfl] at found ⊢
      cases found
      exact ⟨⟨subject, by rw [same]⟩, _, rfl⟩
    · rw [if_neg isRole] at found ⊢
      rw [others isRole]
      exact ticketed.seats found
  · by_cases isRole : other = role
    · subst isRole
      simp only [provisionSeat, FiniteMap.lookup_insert_if, if_true] at found
      cases found
      rw [same]
      exact ⟨ticketed.grows, Nat.lt_succ_self _, rfl⟩
    · obtain ⟨lower, upper, ticket⟩ := ticketed.grants (known isRole found)
      rw [others isRole]
      exact ⟨lower, Nat.lt_succ_of_lt upper, ticket⟩
  · have above {part : String} {held : Grant} (elsewhere : part ≠ role)
        (found : (grants.insert role ⟨subject, secrets.secret drawn⟩).lookup part = some held) : place part < drawn :=
      (ticketed.grants (known elsewhere found)).2.1
    by_cases oneIs : one = role
    · by_cases otherIs : other = role
      · rw [oneIs, otherIs]
      · have below := above otherIs isOther
        rw [oneIs, same, others otherIs] at equal
        omega
    · by_cases otherIs : other = role
      · have below := above oneIs isOne
        rw [otherIs, same, others oneIs] at equal
        omega
      · rw [others oneIs, others otherIs] at equal
        exact ticketed.apart (known oneIs isOne) (known otherIs isOther) equal

variable (Pid) in
theorem provision_ticketed (secrets : Secrets Digest) (clock : Clock) (drawn : Nat) (id audience : String)
    (roster : FiniteMap String String) (ttl : Int) (revision : Nat) :
    ∃ place, Ticketed secrets (drawn + 1) place
      ((provision secrets clock drawn id audience roster ttl revision : Session Pid Digest × Provision × Nat).1.seats,
        (provision secrets clock drawn id audience roster ttl revision : Session Pid Digest × Provision × Nat).2.1.grants,
        (provision secrets clock drawn id audience roster ttl revision : Session Pid Digest × Provision × Nat).2.2) := by
  have built : ∀ (entries : List (String × String)) (place : String → Nat)
      (made : FiniteMap String (Seat Pid Digest) × FiniteMap String Grant × Nat), Ticketed secrets (drawn + 1) place made →
      ∃ place, Ticketed secrets (drawn + 1) place (entries.foldl (provisionSeat secrets) made) := by
    intro entries
    induction entries with
    | nil => exact fun place made ticketed => ⟨place, ticketed⟩
    | cons entry rest ih => exact fun place made ticketed => ih _ _ (provisionSeat_ticketed ticketed entry)
  exact built roster.toList (fun _ => 0) (∅, ∅, drawn + 1)
    ⟨fun found => absurd found (by simp), fun found => absurd found (by simp), fun found => absurd found (by simp), le_rfl⟩

end Provisions

/-- What a seat knows of its credentials: the digest of its ticket, whether it was used, and the
digest of its rejoin token. -/
def Seat.credentials (seat : Seat Pid Digest) : Digest × Bool × Option Digest := (seat.ticketDigest, seat.used, seat.rejoinDigest)

/-- Every seat is a seat on record before, of a session of the same epoch and with the same credentials. -/
def SeatsFrom (a b : Authority Pid Digest) : Prop :=
  ∀ id session role seat, OnRecord b id session role seat →
    ∃ old before, OnRecord a id old role before ∧ session.epoch = old.epoch ∧ seat.credentials = before.credentials

namespace SeatsFrom

theorem refl (a : Authority Pid Digest) : SeatsFrom a a :=
  fun _ session _ seat there => ⟨session, seat, there, rfl, rfl⟩

theorem trans {c : Authority Pid Digest} (first : SeatsFrom a b) (next : SeatsFrom b c) : SeatsFrom a c := by
  intro id session role seat there
  obtain ⟨middle, held, onRecord, epoch, same⟩ := next id session role seat there
  obtain ⟨old, before, found, epoch', same'⟩ := first id middle role held onRecord
  exact ⟨old, before, found, epoch.trans epoch', same.trans same'⟩

theorem disconnect (a : Authority Pid Digest) (id role : String) (fence : Bool) :
    SeatsFrom a (disconnect id role fence a) := by
  intro other session part seat there
  obtain ⟨old, before, found, epoch, _, ⟨_, rfl⟩ | rfl⟩ := disconnect_onRecord there
  · exact ⟨old, seat, found, epoch, rfl⟩
  · exact ⟨old, before, found, epoch, rfl⟩

theorem drop (a : Authority Pid Digest) (id : String) : SeatsFrom a { a with sessions := a.sessions.erase id } := by
  intro other session role seat there
  have atSession := there.atSession
  rw [FiniteMap.lookup_erase_if] at atSession
  split at atSession
  · cases atSession
  · exact ⟨session, seat, ⟨atSession, there.atSeat⟩, rfl, rfl⟩

theorem freed (free : Freed a b) : SeatsFrom a b :=
  free.keeps (refl a) (fun c id role fence same => same.trans (disconnect c id role fence)) fun _ id same =>
    revoke_keeps _ same (fun d role kept => kept.trans (disconnect d id role true)) fun d kept => kept.trans (drop d id)

theorem restart (a : Authority Pid Digest) : SeatsFrom a a.restart :=
  fun _ _ _ _ there => absurd there.atSession (by simp [Authority.restart])

theorem unwatch (a : Authority Pid Digest) (ref : Nat) : SeatsFrom a (a.unwatch (some ref)) :=
  fun _ session _ seat there => ⟨session, seat, ⟨there.atSession, there.atSeat⟩, rfl, rfl⟩

theorem putSeat {id role : String} {session : Session Pid Digest} {seat changed : Seat Pid Digest}
    (there : OnRecord a id session role seat) (same : changed.credentials = seat.credentials) :
    SeatsFrom a (a.putSeat id role changed) := by
  intro other next part held found
  obtain ⟨old, atOld, epoch, _, ⟨rfl, rfl, rfl⟩ | ⟨_, kept⟩⟩ := putSeat_onRecord found
  · obtain rfl := Option.some.inj (atOld.symm.trans there.atSession)
    exact ⟨old, seat, there, epoch, same⟩
  · exact ⟨old, held, kept, epoch, rfl⟩

end SeatsFrom

/-- What the seats say of the secrets handed out and of the credentials that claims have spent. -/
structure SpentOnce (secrets : Secrets Digest) (history : List (Exchange Pid)) (a : Authority Pid Digest) : Prop where
  issued {e : Exchange Pid} {text : String} : e ∈ history → text ∈ e.issued → ∃ n < a.drawn, text = secrets.secret n
  apart : history.Pairwise fun e later => e.issued.Disjoint later.issued
  spentDrawn {credential : Credential} : credential ∈ spent history →
    ∃ n < a.drawn, credential = .ticket (secrets.secret n) ∨ credential = .rejoin (secrets.secret n)
  once : (spent history).Nodup
  tickets {id role : String} {session : Session Pid Digest} {seat : Seat Pid Digest} : OnRecord a id session role seat →
    ∃ n < a.drawn, seat.ticketDigest = secrets.digest (secrets.secret n) ∧
      (∃ e ∈ history, e.Offers session.epoch (secrets.secret n)) ∧
      (seat.used = false → .ticket (secrets.secret n) ∉ spent history)
  ticketOwn {id other role part : String} {session next : Session Pid Digest} {seat held : Seat Pid Digest} :
    OnRecord a id session role seat → OnRecord a other next part held → seat.ticketDigest = held.ticketDigest →
    id = other ∧ role = part
  rejoins {id role : String} {session : Session Pid Digest} {seat : Seat Pid Digest} {digest : Digest} :
    OnRecord a id session role seat → seat.rejoinDigest = some digest →
    ∃ n < a.drawn, digest = secrets.digest (secrets.secret n) ∧
      (∃ e ∈ history, e.Hands session.epoch (secrets.secret n)) ∧ .rejoin (secrets.secret n) ∉ spent history
  rejoinOwn {id other role part : String} {session next : Session Pid Digest} {seat held : Seat Pid Digest}
    {digest : Digest} : OnRecord a id session role seat → OnRecord a other next part held →
    seat.rejoinDigest = some digest → held.rejoinDigest = some digest → id = other ∧ role = part

namespace SpentOnce
variable {history : List (Exchange Pid)} {e : Exchange Pid}

theorem start : SpentOnce secrets ([] : List (Exchange Pid)) (init : Authority Pid Digest) where
  issued member := absurd member List.not_mem_nil
  apart := .nil
  spentDrawn member := absurd member List.not_mem_nil
  once := .nil
  tickets there := absurd there.atSession (by simp [init])
  ticketOwn there := absurd there.atSession (by simp [init])
  rejoins there := absurd there.atSession (by simp [init])
  rejoinOwn there := absurd there.atSession (by simp [init])

theorem credentials_eq {seat held : Seat Pid Digest} (same : seat.credentials = held.credentials) :
    seat.ticketDigest = held.ticketDigest ∧ seat.used = held.used ∧ seat.rejoinDigest = held.rejoinDigest := by
  simpa only [Seat.credentials, Prod.mk.injEq] using same

/-- Seats that are those of before know nothing new. -/
theorem kept (sound : SpentOnce secrets history a) (same : SeatsFrom a b) (drawn : b.drawn = a.drawn) :
    SpentOnce secrets history b where
  issued := drawn ▸ sound.issued
  apart := sound.apart
  spentDrawn := drawn ▸ sound.spentDrawn
  once := sound.once
  tickets there := by
    obtain ⟨old, before, found, epoch, equal⟩ := same _ _ _ _ there
    obtain ⟨ticket, used, _⟩ := credentials_eq equal
    rw [epoch, ticket, used, drawn]
    exact sound.tickets found
  ticketOwn one other equal := by
    obtain ⟨_, _, found, _, same₁⟩ := same _ _ _ _ one
    obtain ⟨_, _, found', _, same₂⟩ := same _ _ _ _ other
    exact sound.ticketOwn found found' (by rw [← (credentials_eq same₁).1, equal, (credentials_eq same₂).1])
  rejoins there known := by
    obtain ⟨old, before, found, epoch, equal⟩ := same _ _ _ _ there
    rw [(credentials_eq equal).2.2] at known
    rw [epoch, drawn]
    exact sound.rejoins found known
  rejoinOwn one other known known' := by
    obtain ⟨_, _, found, _, same₁⟩ := same _ _ _ _ one
    obtain ⟨_, _, found', _, same₂⟩ := same _ _ _ _ other
    rw [(credentials_eq same₁).2.2] at known
    rw [(credentials_eq same₂).2.2] at known'
    exact sound.rejoinOwn found found' known known'

/-- An exchange that hands out nothing and spends nothing. -/
theorem record (sound : SpentOnce secrets history a) (none : e.issued = []) (free : e.spent = Option.none) :
    SpentOnce secrets (history ++ [e]) a := by
  have same : spent (history ++ [e]) = spent history := by
    simp [spent, List.filterMap_append, free]
  refine { sound with issued := ?_, apart := ?_, spentDrawn := ?_, once := ?_, tickets := ?_, rejoins := ?_ }
  · intro other text member handed
    rcases List.mem_append.mp member with before | last
    · exact sound.issued before handed
    · rw [List.mem_singleton.mp last, none] at handed
      exact absurd handed List.not_mem_nil
  · refine List.pairwise_append.mpr ⟨sound.apart, List.pairwise_singleton .., fun one _ other last => ?_⟩
    rw [List.mem_singleton.mp last, none]
    exact List.disjoint_nil_right _
  · rw [same]
    exact sound.spentDrawn
  · rw [same]
    exact sound.once
  · intro id role session seat there
    obtain ⟨n, bound, digest, ⟨first, member, offers⟩, unspent⟩ := sound.tickets there
    exact ⟨n, bound, digest, ⟨first, List.mem_append_left _ member, offers⟩, same ▸ unspent⟩
  · intro id role session seat digest there known
    obtain ⟨n, bound, equal, ⟨first, member, hands⟩, unspent⟩ := sound.rejoins there known
    exact ⟨n, bound, equal, ⟨first, List.mem_append_left _ member, hands⟩, same ▸ unspent⟩

/-- Secrets that are drawn for an exchange are handed out by no exchange before it. -/
theorem issue (sound : SpentOnce secrets history a) {drawn : Nat} (grows : a.drawn ≤ drawn)
    (distinct : Set.InjOn secrets.secret (Set.Iio drawn))
    (fresh : ∀ text ∈ e.issued, ∃ n, a.drawn ≤ n ∧ n < drawn ∧ text = secrets.secret n) :
    (∀ other ∈ history ++ [e], ∀ text ∈ other.issued, ∃ n < drawn, text = secrets.secret n) ∧
      (history ++ [e]).Pairwise fun one later => one.issued.Disjoint later.issued := by
  constructor
  · intro other member text handed
    rcases List.mem_append.mp member with before | last
    · obtain ⟨n, bound, same⟩ := sound.issued before handed
      exact ⟨n, bound.trans_le grows, same⟩
    · rw [List.mem_singleton.mp last] at handed
      obtain ⟨n, _, bound, same⟩ := fresh text handed
      exact ⟨n, bound, same⟩
  · refine List.pairwise_append.mpr ⟨sound.apart, List.pairwise_singleton .., fun one before other last => ?_⟩
    rw [List.mem_singleton.mp last]
    intro text handed again
    obtain ⟨m, below, isOld⟩ := sound.issued before handed
    obtain ⟨n, above, bound, isNew⟩ := fresh text again
    have same : m = n := distinct (below.trans_le grows) bound (isOld.symm.trans isNew)
    omega

/-- A new session: its tickets are fresh, unspent, and each is of one role. -/
theorem provisioned (sound : SpentOnce secrets history a) {clock : Clock} {request : Request Pid} {monitor drawn : Nat}
    {id : String} {session : Session Pid Digest} {p : Provision} {place : String → Nat}
    (distinct : Set.InjOn secrets.secret (Set.Iio drawn)) (injective : Function.Injective secrets.digest)
    (ticketed : Ticketed secrets (a.drawn + 1) place (session.seats, p.grants, drawn))
    (epoch : session.epoch = secrets.secret a.drawn) (sameEpoch : p.epoch = session.epoch) :
    SpentOnce secrets (history ++ [⟨clock, request, monitor, .provisioned p⟩])
      { a.putSession id session with drawn } := by
  have grows : a.drawn ≤ drawn := (Nat.le_succ _).trans ticketed.grows
  have fresh (text : String) (handed : text ∈ (⟨clock, request, monitor, .provisioned p⟩ : Exchange Pid).issued) :
      ∃ n, a.drawn ≤ n ∧ n < drawn ∧ text = secrets.secret n := by
    rcases List.mem_cons.mp handed with rfl | ticket
    · exact ⟨a.drawn, le_rfl, ticketed.grows, sameEpoch.trans epoch⟩
    · obtain ⟨⟨role, grant⟩, member, rfl⟩ := List.mem_map.mp ticket
      obtain ⟨lower, upper, same⟩ := ticketed.grants (FiniteMap.mem_toList.mp member)
      exact ⟨place role, (Nat.le_succ _).trans lower, upper, same⟩
  obtain ⟨issued, apart⟩ := sound.issue (e := ⟨clock, request, monitor, .provisioned p⟩) grows distinct fresh
  have same : spent (history ++ [(⟨clock, request, monitor, .provisioned p⟩ : Exchange Pid)]) = spent history := by
    have free : (⟨clock, request, monitor, .provisioned p⟩ : Exchange Pid).spent = none := by
      cases request <;> rfl
    simp [spent, List.filterMap_append, free]
  -- a seat on record is one of the new session, or one of before
  have cases {other role : String} {next : Session Pid Digest} {seat : Seat Pid Digest}
      (there : OnRecord { a.putSession id session with drawn } other next role seat) :
      (other = id ∧ next = session ∧ session.seats.lookup role = some seat) ∨ OnRecord a other next role seat := by
    have atSession : (a.putSession id session).sessions.lookup other = some next := there.atSession
    rw [putSession_lookup] at atSession
    split at atSession
    next isId =>
      cases atSession
      exact .inl ⟨isId, rfl, there.atSeat⟩
    next => exact .inr ⟨atSession, there.atSeat⟩
  have ticketOf {role : String} {seat : Seat Pid Digest} (found : session.seats.lookup role = some seat) :
      a.drawn + 1 ≤ place role ∧ place role < drawn ∧ seat.ticketDigest = secrets.digest (secrets.secret (place role)) ∧
        seat.rejoinDigest = none ∧ ∃ grant, p.grants.lookup role = some grant ∧ grant.ticket = secrets.secret (place role) := by
    obtain ⟨⟨subject, rfl⟩, grant, granted⟩ := ticketed.seats found
    obtain ⟨lower, upper, ticket⟩ := ticketed.grants granted
    exact ⟨lower, upper, rfl, rfl, grant, granted, ticket⟩
  -- the ticket of a new seat is not that of a seat of before
  have different {other role part : String} {next : Session Pid Digest} {seat held : Seat Pid Digest}
      (found : session.seats.lookup role = some seat) (there : OnRecord a other next part held) :
      seat.ticketDigest ≠ held.ticketDigest := by
    obtain ⟨lower, upper, isNew, _⟩ := ticketOf found
    obtain ⟨n, bound, isOld, _⟩ := sound.tickets there
    rw [isNew, isOld]
    intro equal
    have same : place role = n := distinct upper (bound.trans_le grows) (injective equal)
    omega
  refine ⟨fun member handed => issued _ member _ handed, apart, ?_, same ▸ sound.once, ?_, ?_, ?_, ?_⟩
  · rw [same]
    intro credential member
    obtain ⟨n, bound, is⟩ := sound.spentDrawn member
    exact ⟨n, bound.trans_le grows, is⟩
  · intro other role next seat there
    rw [same]
    rcases cases there with ⟨rfl, rfl, found⟩ | before
    · obtain ⟨lower, upper, digest, _, grant, granted, ticket⟩ := ticketOf found
      refine ⟨place role, upper, digest, ⟨_, List.mem_append_right _ List.mem_cons_self, p, rfl, sameEpoch, role, grant, granted,
        ticket⟩, fun _ spent => ?_⟩
      obtain ⟨n, bound, is⟩ := sound.spentDrawn spent
      rcases is with is | is
      · have same : place role = n := distinct upper (bound.trans_le grows) (Credential.ticket.inj is)
        omega
      · cases is
    · obtain ⟨n, bound, digest, ⟨first, member, offers⟩, unspent⟩ := sound.tickets before
      exact ⟨n, bound.trans_le grows, digest, ⟨first, List.mem_append_left _ member, offers⟩, unspent⟩
  · intro one other role part next next' seat held there there' equal
    rcases cases there with ⟨rfl, rfl, found⟩ | before
    · rcases cases there' with ⟨rfl, _, found'⟩ | before'
      · obtain ⟨_, upper, digest, _, grant, granted, _⟩ := ticketOf found
        obtain ⟨_, upper', digest', _, grant', granted', _⟩ := ticketOf found'
        rw [digest, digest'] at equal
        exact ⟨rfl, ticketed.apart granted granted' (distinct upper upper' (injective equal))⟩
      · exact absurd equal (different found before')
    · rcases cases there' with ⟨rfl, rfl, found'⟩ | before'
      · exact absurd equal.symm (different found' before)
      · exact sound.ticketOwn before before' equal
  · intro other role next seat digest there known
    rw [same]
    rcases cases there with ⟨rfl, rfl, found⟩ | before
    · obtain ⟨_, _, _, unknown, _⟩ := ticketOf found
      cases unknown.symm.trans known
    · obtain ⟨n, bound, equal, ⟨first, member, hands⟩, unspent⟩ := sound.rejoins before known
      exact ⟨n, bound.trans_le grows, equal, ⟨first, List.mem_append_left _ member, hands⟩, unspent⟩
  · intro one other role part next next' seat held digest there there' known known'
    rcases cases there with ⟨rfl, rfl, found⟩ | before
    · obtain ⟨_, _, _, unknown, _⟩ := ticketOf found
      cases unknown.symm.trans known
    · rcases cases there' with ⟨rfl, rfl, found'⟩ | before'
      · obtain ⟨_, _, _, unknown, _⟩ := ticketOf found'
        cases unknown.symm.trans known'
      · exact sound.rejoinOwn before before' known known'

variable [DecidableEq Digest]

/-- A credential that passes the check of a seat is the seat's ticket, unused, or its rejoin token. -/
theorem checkCredential_ok {seat : Seat Pid Digest} {credential : Credential}
    (checked : checkCredential secrets seat credential = .ok ()) :
    (∃ token, credential = .ticket token ∧ seat.used = false ∧ seat.ticketDigest = secrets.digest token) ∨
      ∃ token, credential = .rejoin token ∧ seat.rejoinDigest = some (secrets.digest token) := by
  cases credential with
  | ticket token =>
    simp only [checkCredential] at checked
    split at checked
    · cases checked
    next unused =>
      split at checked
      next proven =>
        refine .inl ⟨token, rfl, by simpa using unused, ?_⟩
        have both : byteSize token = 43 ∧ some (secrets.digest token) = some seat.ticketDigest := by
          simpa only [tokenMatches, decide_eq_true_eq] using proven
        exact (Option.some.inj both.2).symm
      next => cases checked
  | rejoin token =>
    simp only [checkCredential] at checked
    split at checked
    · split at checked
      next proven =>
        have both : byteSize token = 43 ∧ some (secrets.digest token) = seat.rejoinDigest := by
          simpa only [tokenMatches, decide_eq_true_eq] using proven
        exact .inr ⟨token, rfl, both.2.symm⟩
      next => cases checked
    · cases checked
  | other => cases checked

/-- The credential of a claim that succeeds is of a secret handed out for the session's epoch, and
was not spent before. -/
theorem unspent (sound : SpentOnce secrets history a) (injective : Function.Injective secrets.digest) {id role : String}
    {session : Session Pid Digest} {seat : Seat Pid Digest} (there : OnRecord a id session role seat)
    {credential : Credential} (checked : checkCredential secrets seat credential = .ok ()) :
    credential ∉ spent history ∧ ∃ n < a.drawn,
      (credential = .ticket (secrets.secret n) ∧ seat.ticketDigest = secrets.digest (secrets.secret n) ∧
        ∃ e ∈ history, e.Offers session.epoch (secrets.secret n)) ∨
      (credential = .rejoin (secrets.secret n) ∧ seat.rejoinDigest = some (secrets.digest (secrets.secret n)) ∧
        ∃ e ∈ history, e.Hands session.epoch (secrets.secret n)) := by
  rcases checkCredential_ok checked with ⟨token, rfl, unused, isTicket⟩ | ⟨token, rfl, isRejoin⟩
  · obtain ⟨n, bound, digest, offered, free⟩ := sound.tickets there
    obtain rfl := injective (isTicket.symm.trans digest)
    exact ⟨free unused, n, bound, .inl ⟨rfl, digest, offered⟩⟩
  · obtain ⟨n, bound, digest, handed, free⟩ := sound.rejoins there isRejoin
    obtain rfl := injective digest
    exact ⟨free, n, bound, .inr ⟨rfl, isRejoin, handed⟩⟩

/-- A seat is claimed: its credential is spent, and a fresh rejoin token takes the place of the old one. -/
theorem claimed (sound : SpentOnce secrets history a) {clock : Clock} {pid : Pid} {identity : Option Identity}
    {monitor : Nat} {id audience role : String} {session : Session Pid Digest} {seat : Seat Pid Digest}
    {credential : Credential} (there : OnRecord a id session role seat)
    (checked : checkCredential secrets seat credential = .ok ()) {lease : Lease} {receipt : Receipt}
    (epoch : lease.epoch = session.epoch) (leaseId : lease.id = secrets.secret (a.drawn + 1))
    (token : receipt.rejoinToken = secrets.secret a.drawn) {after : Authority Pid Digest} {ref : Nat} {expiresAt : Int}
    (sessions : after.sessions = (a.putSeat id role (seat.claimed pid ref lease.id expiresAt
      (secrets.digest (secrets.secret a.drawn)))).sessions) (drawn : after.drawn = a.drawn + 2)
    (distinct : Set.InjOn secrets.secret (Set.Iio after.drawn)) (injective : Function.Injective secrets.digest) :
    SpentOnce secrets
      (history ++ [⟨clock, .claim pid identity id audience role session.epoch credential, monitor, .claimed lease receipt⟩])
      after := by
  rw [drawn] at distinct
  have grows : a.drawn ≤ a.drawn + 2 := Nat.le_add_right ..
  generalize exchange :
    (⟨clock, .claim pid identity id audience role session.epoch credential, monitor, .claimed lease receipt⟩ : Exchange Pid) = e
  have fresh : ∀ text ∈ e.issued, ∃ n, a.drawn ≤ n ∧ n < a.drawn + 2 ∧ text = secrets.secret n := by
    subst exchange
    intro text handed
    simp only [Exchange.issued, List.mem_cons, List.not_mem_nil, or_false] at handed
    rcases handed with rfl | rfl
    · exact ⟨a.drawn, le_rfl, by omega, token⟩
    · exact ⟨a.drawn + 1, by omega, by omega, leaseId⟩
  have hands : e.Hands session.epoch (secrets.secret a.drawn) := by
    subst exchange
    exact ⟨lease, receipt, rfl, epoch, token⟩
  have same : spent (history ++ [e]) = spent history ++ [credential] := by
    subst exchange
    simp [spent, List.filterMap_append, Exchange.spent]
  obtain ⟨issued, apart⟩ := sound.issue grows distinct fresh
  obtain ⟨free, n, bound, isKind⟩ := sound.unspent injective there checked
  -- a seat on record is the one claimed, or another one of before
  have cases {other part : String} {next : Session Pid Digest} {held : Seat Pid Digest}
      (found : OnRecord after other next part held) :
      ∃ old before, OnRecord a other old part before ∧ next.epoch = old.epoch ∧ held.ticketDigest = before.ticketDigest ∧
        (other = id ∧ part = role ∧ old = session ∧ held.used = true ∧
          held.rejoinDigest = some (secrets.digest (secrets.secret a.drawn)) ∨
          ¬ (other = id ∧ part = role) ∧ held = before) := by
    have put : OnRecord (a.putSeat id role (seat.claimed pid ref lease.id expiresAt
        (secrets.digest (secrets.secret a.drawn)))) other next part held := ⟨sessions ▸ found.atSession, found.atSeat⟩
    obtain ⟨old, atOld, sameEpoch, _, ⟨rfl, rfl, rfl⟩ | ⟨elsewhere, kept⟩⟩ := putSeat_onRecord put
    · obtain rfl := Option.some.inj (atOld.symm.trans there.atSession)
      exact ⟨old, seat, there, sameEpoch, rfl, .inl ⟨rfl, rfl, rfl, rfl, rfl⟩⟩
    · exact ⟨old, held, kept, sameEpoch, rfl, .inr ⟨elsewhere, rfl⟩⟩
  refine ⟨fun member handed => drawn ▸ issued _ member _ handed, apart, ?_, ?_, ?_, ?_, ?_, ?_⟩
  · rw [same, drawn]
    intro used member
    rcases List.mem_append.mp member with before | last
    · obtain ⟨m, below, is⟩ := sound.spentDrawn before
      exact ⟨m, below.trans_le grows, is⟩
    · obtain rfl := List.mem_singleton.mp last
      exact ⟨n, bound.trans_le grows, isKind.imp And.left And.left⟩
  · rw [same]
    exact sound.once.append (List.nodup_singleton _) (List.disjoint_singleton.mpr free)
  · intro other part next held found
    obtain ⟨old, before, onRecord, sameEpoch, ticket, kind⟩ := cases found
    obtain ⟨m, below, digest, ⟨first, member, offers⟩, unspent⟩ := sound.tickets onRecord
    rw [same, drawn, sameEpoch]
    refine ⟨m, below.trans_le grows, ticket.trans digest, ⟨first, List.mem_append_left _ member, offers⟩, fun unused => ?_⟩
    rcases kind with ⟨_, _, _, used, _⟩ | ⟨elsewhere, rfl⟩
    · cases used.symm.trans unused
    · intro spent
      rcases List.mem_append.mp spent with past | last
      · exact unspent unused past
      · rcases isKind with ⟨isTicket, own, _⟩ | ⟨isRejoin, _⟩
        · have equal := Credential.ticket.inj ((List.mem_singleton.mp last).trans isTicket)
          rw [equal] at digest
          exact elsewhere (sound.ticketOwn onRecord there (digest.trans own.symm))
        · cases (List.mem_singleton.mp last).trans isRejoin
  · intro one other part part' next next' held held' found found' equal
    obtain ⟨_, _, onRecord, _, ticket, _⟩ := cases found
    obtain ⟨_, _, onRecord', _, ticket', _⟩ := cases found'
    exact sound.ticketOwn onRecord onRecord' (by rw [← ticket, equal, ticket'])
  · intro other part next held digest found known
    obtain ⟨old, before, onRecord, sameEpoch, _, kind⟩ := cases found
    rw [same, drawn, sameEpoch]
    rcases kind with ⟨rfl, rfl, rfl, _, rejoin⟩ | ⟨elsewhere, rfl⟩
    · refine ⟨a.drawn, by omega, (Option.some.inj (rejoin.symm.trans known)).symm,
        ⟨e, List.mem_append_right _ List.mem_cons_self, hands⟩, fun spent => ?_⟩
      rcases List.mem_append.mp spent with past | last
      · obtain ⟨m, below, is | is⟩ := sound.spentDrawn past
        · cases is
        · have equal : a.drawn = m := distinct (by simp) (below.trans_le grows) (Credential.rejoin.inj is)
          omega
      · rcases isKind with ⟨isTicket, _⟩ | ⟨isRejoin, _⟩
        · cases (List.mem_singleton.mp last).trans isTicket
        · have equal : a.drawn = n := distinct (by simp) (bound.trans_le grows)
            (Credential.rejoin.inj ((List.mem_singleton.mp last).trans isRejoin))
          omega
    · obtain ⟨m, below, isDigest, ⟨first, member, handed⟩, unspent⟩ := sound.rejoins onRecord known
      refine ⟨m, below.trans_le grows, isDigest, ⟨first, List.mem_append_left _ member, handed⟩, fun spent => ?_⟩
      rcases List.mem_append.mp spent with past | last
      · exact unspent past
      · rcases isKind with ⟨isTicket, _⟩ | ⟨isRejoin, own, _⟩
        · cases (List.mem_singleton.mp last).trans isTicket
        · have equal := Credential.rejoin.inj ((List.mem_singleton.mp last).trans isRejoin)
          rw [isDigest, equal] at known
          exact elsewhere (sound.rejoinOwn onRecord there known own)
  · intro one other part part' next next' held held' digest found found' known known'
    obtain ⟨old, before, onRecord, _, _, kind⟩ := cases found
    obtain ⟨old', before', onRecord', _, _, kind'⟩ := cases found'
    -- the fresh token is not that of a seat of before
    have unlike {id role : String} {session : Session Pid Digest} {seat : Seat Pid Digest}
        (found : OnRecord a id session role seat) :
        seat.rejoinDigest ≠ some (secrets.digest (secrets.secret a.drawn)) := by
      intro rejoin
      obtain ⟨m, below, isDigest, _⟩ := sound.rejoins found rejoin
      have equal : a.drawn = m := distinct (by simp) (below.trans_le grows) (injective isDigest)
      omega
    rcases kind with ⟨rfl, rfl, _, _, rejoin⟩ | ⟨_, rfl⟩
    · rcases kind' with ⟨rfl, rfl, _⟩ | ⟨_, rfl⟩
      · exact ⟨rfl, rfl⟩
      · exact absurd (known'.trans (known.symm.trans rejoin)) (unlike onRecord')
    · rcases kind' with ⟨rfl, rfl, _, _, rejoin⟩ | ⟨_, rfl⟩
      · exact absurd (known.trans (known'.symm.trans rejoin)) (unlike onRecord)
      · exact sound.rejoinOwn onRecord onRecord' known known'

/-- What is left of a request once seats are freed keeps what is said of the credentials. -/
theorem outcome (sound : SpentOnce secrets history a) (injective : Function.Injective secrets.digest)
    (distinct : Set.InjOn secrets.secret (Set.Iio after.drawn)) {clock : Clock} {request : Request Pid} {reply : Reply}
    (monitor : Nat) (outcome : Outcome secrets clock a request reply after) :
    SpentOnce secrets (history ++ [⟨clock, request, monitor, reply⟩]) after := by
  have recorded (provisions : ∀ p, reply ≠ .provisioned p) (claims : ∀ lease receipt, reply ≠ .claimed lease receipt) :
      SpentOnce secrets (history ++ [⟨clock, request, monitor, reply⟩]) a := by
    refine sound.record ?_ ?_
    · unfold Exchange.issued
      split
      next p provisioned => exact absurd provisioned (provisions p)
      next lease receipt claimed => exact absurd claimed (claims lease receipt)
      next => rfl
    · unfold Exchange.spent
      split
      next claimed => exact absurd claimed (claims _ _)
      next => rfl
  cases outcome with
  | quiet _ _ provisions claims => exact recorded provisions claims
  | restarted => exact (recorded (by simp) (by simp)).kept (.restart a) rfl
  | unwatched _ ref => exact (recorded (by simp) (by simp)).kept (.unwatch a ref) (unwatch_drawn ..)
  | sequenced _ there => exact (recorded (by simp) (by simp)).kept (.putSeat there rfl) (putSeat_drawn ..)
  | @provisioned _ id audience roster ttl revision absent =>
    obtain ⟨place, ticketed⟩ := provision_ticketed Pid secrets clock a.drawn id audience roster ttl revision
    exact sound.provisioned distinct injective ticketed rfl rfl
  | claimed pid identity audience there free checked expiresAt =>
    exact sound.claimed there checked rfl rfl rfl rfl rfl distinct injective

variable [DecidableEq Pid]

theorem of_run (run : Run (Serves secrets) init history a) (distinct : Set.InjOn secrets.secret (Set.Iio a.drawn))
    (injective : Function.Injective secrets.digest) : SpentOnce secrets history a := by
  induction run with
  | start => exact .start
  | @next history before e after _ taken ih =>
    obtain ⟨clock, request, monitor, reply⟩ := e
    have grows : before.drawn ≤ after.drawn := by
      have drawn := handle_drawn secrets clock request before
      rwa [taken.2] at drawn
    have sound := ih (distinct.mono (Set.Iio_subset_Iio grows))
    obtain ⟨freed, free, outcome⟩ := handle_outcome taken.2
    exact (sound.kept (.freed free) free.drawn).outcome injective distinct monitor outcome

end SpentOnce

end Burble.Sessions
