import Burble.Sessions.SpentOnce
import Burble.Sessions.LeaseAuthority

namespace Burble.Sessions
variable {Pid Digest : Type}

/-- A secret is handed out at one place of a history. -/
theorem issued_place {history past past' later later' : List (Exchange Pid)} {e e' : Exchange Pid} {text : String}
    (apart : history.Pairwise fun one later => one.issued.Disjoint later.issued)
    (split : history = past ++ e :: later) (split' : history = past' ++ e' :: later') (handed : text ∈ e.issued)
    (handed' : text ∈ e'.issued) : past = past' ∧ e = e' ∧ later = later' := by
  induction history generalizing past past' with
  | nil => exact absurd split (by simp)
  | cons first rest ih =>
    obtain ⟨ahead, apart⟩ := List.pairwise_cons.mp apart
    cases past with
    | nil =>
      obtain ⟨rfl, rfl⟩ := List.cons.inj split
      cases past' with
      | nil =>
        obtain ⟨rfl, rfl⟩ := List.cons.inj split'
        exact ⟨rfl, rfl, rfl⟩
      | cons other past' =>
        obtain ⟨_, rfl⟩ := List.cons.inj split'
        exact absurd handed' (ahead e' (List.mem_append_right _ List.mem_cons_self) handed)
    | cons other past =>
      obtain ⟨rfl, isRest⟩ := List.cons.inj split
      cases past' with
      | nil =>
        obtain ⟨rfl, _⟩ := List.cons.inj split'
        exact absurd handed (ahead e (isRest ▸ List.mem_append_right _ List.mem_cons_self) handed')
      | cons another past' =>
        obtain ⟨rfl, isRest'⟩ := List.cons.inj split'
        obtain ⟨rfl, sameEvent, sameLater⟩ := ih apart isRest isRest'
        exact ⟨rfl, sameEvent, sameLater⟩

/-- A credential of an epoch: the epoch itself, a ticket that a provision offered under it, or a
rejoin token that a claim handed out under it. -/
def OfEpoch (history : List (Exchange Pid)) (claimedEpoch : String) (credential : Credential) (epoch : String) : Prop :=
  claimedEpoch = epoch ∨
    (∃ ticket, credential = .ticket ticket ∧ ∃ e ∈ history, e.Offers epoch ticket) ∨
    ∃ token, credential = .rejoin token ∧ ∃ e ∈ history, e.Hands epoch token

section Claims
variable [DecidableEq Digest] {secrets : Secrets Digest} {history : List (Exchange Pid)} {a after : Authority Pid Digest}

/-- A claim that succeeds finds its seat on record once the expired sessions are swept. -/
theorem claim_claimed {clock : Clock} {pid : Pid} {identity : Option Identity} {id audience role epoch : String}
    {credential : Credential} {lease : Lease} {receipt : Receipt}
    (served : claim secrets clock pid identity id audience role epoch credential a = (.claimed lease receipt, after)) :
    ∃ session seat, OnRecord (expire clock a) id session role seat ∧ session.epoch = epoch ∧
      checkCredential secrets seat credential = .ok () := by
  unfold claim at served
  simp only at served
  split at served
  next => cases served
  next expiresAt session seat passed =>
    obtain ⟨there, sameEpoch, checked, _⟩ := claimChecks_ok passed
    exact ⟨session, seat, there, sameEpoch, checked⟩

/-- The epoch of the credential of a claim that succeeds is that of the session. -/
theorem SpentOnce.ofEpoch (sound : SpentOnce secrets history a) (injective : Function.Injective secrets.digest)
    {id role : String} {session : Session Pid Digest} {seat : Seat Pid Digest} (there : OnRecord a id session role seat)
    {credential : Credential} (checked : checkCredential secrets seat credential = .ok ()) {epoch : String}
    (ofEpoch : OfEpoch history session.epoch credential epoch) : session.epoch = epoch := by
  obtain ⟨_, n, _, kind⟩ := sound.unspent injective there checked
  have place {e e' : Exchange Pid} {text : String} (member : e ∈ history) (member' : e' ∈ history) (handed : text ∈ e.issued)
      (handed' : text ∈ e'.issued) : e = e' := by
    obtain ⟨past, later, split⟩ := List.mem_iff_append.mp member
    obtain ⟨past', later', split'⟩ := List.mem_iff_append.mp member'
    exact (issued_place sound.apart split split' handed handed').2.1
  rcases ofEpoch with same | ⟨ticket, isTicket, e, member, offers⟩ | ⟨token, isRejoin, e, member, hands⟩
  · exact same
  · rcases kind with ⟨is, _, e', member', offers'⟩ | ⟨is, _⟩
    · obtain rfl := Credential.ticket.inj (isTicket.symm.trans is)
      obtain rfl := place member member' offers.issued.2 offers'.issued.2
      obtain ⟨p, provisioned, rfl, _⟩ := offers
      obtain ⟨p', provisioned', same, _⟩ := offers'
      cases provisioned.symm.trans provisioned'
      exact same.symm
    · cases isTicket.symm.trans is
  · rcases kind with ⟨is, _⟩ | ⟨is, _, e', member', hands'⟩
    · cases isRejoin.symm.trans is
    · obtain rfl := Credential.rejoin.inj (isRejoin.symm.trans is)
      obtain rfl := place member member' hands.issued hands'.issued
      obtain ⟨lease, receipt, claimed, rfl, _⟩ := hands
      obtain ⟨lease', receipt', claimed', same, _⟩ := hands'
      cases claimed.symm.trans claimed'
      exact same.symm

end Claims

variable [DecidableEq Pid] [DecidableEq Digest] {secrets : Secrets Digest} {history : List (Exchange Pid)}
variable {a : Authority Pid Digest}

theorem Backed.of_run (run : Run (Serves secrets) init history a) : Backed a := by
  induction run with
  | start => exact .start
  | next _ taken ih =>
    obtain ⟨freed, free, outcome⟩ := handle_outcome taken.2
    exact (ih.freed free).outcome outcome

/-- In every run: no credential is spent by two claims; a claim that succeeds uses no credential and no
epoch of a provision that was superseded or is past its deadline; and the monitors are exactly those of
the connected seats, so a monitor that goes off always finds its seat. -/
theorem credentials_spent_once (run : Run (Serves secrets) init history a)
    (distinct : Set.InjOn secrets.secret (Set.Iio a.drawn)) (injective : Function.Injective secrets.digest) :
    (spent history).Nodup ∧
    (∀ clock pid identity id audience role claimedEpoch credential lease receipt after monitor,
      Serves secrets a ⟨clock, .claim pid identity id audience role claimedEpoch credential, monitor, .claimed lease receipt⟩
        after →
      ∀ past (p : Exchange Pid) later provisioned epoch deadline, history = past ++ p :: later →
        p.Provisions provisioned epoch deadline → OfEpoch history claimedEpoch credential epoch →
        (∀ e ∈ later, ¬ e.Supersedes provisioned deadline) ∧ clock.sweep < deadline) ∧
    MonitorsExact a := by
  have sound := Sound.of_run run distinct
  have once := SpentOnce.of_run run distinct injective
  refine ⟨once.once, ?_, sound.monitorsExact (.of_run run)⟩
  intro clock pid identity id audience role claimedEpoch credential lease receipt after monitor taken
    past p later provisioned epoch deadline split provisions ofEpoch
  obtain ⟨session, seat, there, rfl, checked⟩ := claim_claimed taken.2
  have swept := once.kept (.freed (.expire clock a)) (expire_drawn clock a)
  obtain rfl := swept.ofEpoch injective there checked ofEpoch
  -- the session was provisioned at the same place of the history
  obtain ⟨past', q, later', split', happened, calm⟩ := (sound.expire clock).epochs there.atSession
  obtain ⟨rfl, rfl, rfl⟩ := issued_place once.apart split split' provisions.issued happened.issued
  obtain ⟨made, isMade, rfl, _, rfl⟩ := provisions
  obtain ⟨made', isMade', rfl, _, sameDeadline⟩ := happened
  cases isMade.symm.trans isMade'
  rw [← sameDeadline]
  exact ⟨calm, expire_live clock a _ _ there.atSession⟩

theorem credentials_spent_once_rejoining :
    spent (serveAll letters rejoining init).1 = [.ticket (letters.secret 1), .rejoin (letters.secret 2)] ∧
    (spent (serveAll letters rejoining init).1).Nodup ∧ MonitorsExact (serveAll letters rejoining init).2 :=
  have once := credentials_spent_once (serveAll_run letters rejoining init) letters_distinct Function.injective_id
  ⟨by decide, once.1, once.2.2⟩

end Burble.Sessions
