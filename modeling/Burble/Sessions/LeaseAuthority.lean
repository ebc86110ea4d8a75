import Burble.Sessions.AdmissionSound

namespace Burble.Sessions
variable {Pid Digest : Type}

/-- The effect of a request was run, whatever came of it. -/
def Exchange.Ran (e : Exchange Pid) : Prop := e.reply = .ok ∨ e.reply = .failed ∨ e.reply = .unavailable

/-- A request was refused, or the effect it ran failed. -/
def Exchange.Rejected (e : Exchange Pid) : Prop := (∃ reason, e.reply = .error reason) ∨ e.reply = .failed

/-- A process may run an effect under a lease: the lease is the last one issued for its seat, the
process holds it, nothing has ended it since, and its epoch is the current one of the session. -/
def Authorised (history : List (Exchange Pid)) (clock : Clock) (pid : Pid) (lease : Lease) : Prop :=
  ∃ deadline expiresAt monitor,
    EpochCurrent history lease.sessionId lease.epoch deadline ∧ clock.sweep < deadline ∧
    LeaseHeld history pid lease expiresAt monitor deadline ∧ clock.system < expiresAt

variable [DecidableEq Pid] {secrets : Secrets Digest} {history : List (Exchange Pid)}
variable {a after : Authority Pid Digest}

theorem Sound.authorised (sound : Sound secrets history a) {clock : Clock} {pid : Pid} {lease : Option Lease}
    {seat : Seat Pid Digest} (live : Live clock a) (held : current clock a pid lease = .ok seat) :
    ∃ shown, lease = some shown ∧ Authorised history clock pid shown := by
  obtain ⟨shown, session, expiry, isShown, there, epoch, holder, subject, leased, expires, alive⟩ := current_ok held
  obtain ⟨taker, expiresAt, monitor, isPid, isExpiry, _, grant⟩ := sound.held there leased
  have samePid : taker = pid := Option.some.inj (isPid.symm.trans holder)
  have sameExpiry : expiresAt = expiry := Option.some.inj (isExpiry.symm.trans expires)
  rw [epoch, subject, samePid, sameExpiry] at grant
  have current := sound.epochs there.atSession
  rw [epoch] at current
  exact ⟨shown, isShown, session.deadline, expiry, monitor, current, live _ _ there.atSession, grant, alive⟩

/-- An effect is run only after its lease passed the check. -/
theorem effect_ran {clock : Clock} {pid : Pid} {lease : Option Lease} {seq : Sequence} {result : EffectResult}
    {reply : Reply} (served : effect clock pid lease seq result a = (reply, after))
    (ran : ∀ reason, reply ≠ .error reason) : ∃ seat, current clock (expire clock a) pid lease = .ok seat := by
  unfold effect at served
  simp only at served
  split at served
  next reason _ =>
    cases served
    exact absurd rfl (ran reason)
  next =>
    cases served
    exact absurd rfl (ran .staleLease)
  next seat held => exact ⟨seat, held⟩

/-- A rejected effect leaves the authority as the sweep before it left it. -/
theorem effect_rejected {clock : Clock} {pid : Pid} {lease : Option Lease} {seq : Sequence} {result : EffectResult}
    {reply : Reply} (served : effect clock pid lease seq result a = (reply, after))
    (rejected : (∃ reason, reply = .error reason) ∨ reply = .failed) : after = expire clock a := by
  have accepted : reply ≠ .ok ∧ reply ≠ .unavailable := by
    rcases rejected with ⟨reason, rfl⟩ | rfl
    · exact ⟨by simp, by simp⟩
    · exact ⟨by simp, by simp⟩
  unfold effect at served
  simp only at served
  split at served
  · cases served; rfl
  · cases served; rfl
  · split at served
    · cases served; rfl
    · split at served
      · cases served; exact absurd rfl accepted.1
      · cases served; rfl
      · cases served; rfl
      · cases served; exact absurd rfl accepted.2

variable [DecidableEq Digest]

/-- In every run: an effect is run only for the process that holds the last lease issued for the
seat, unended, unexpired and of the current epoch; the sequence numbers accepted for a seat increase,
over all its leases; and a rejected effect leaves every session that is not past its deadline as it was. -/
theorem effects_authorised_in_order (run : Run (Serves secrets) init history a)
    (distinct : Set.InjOn secrets.secret (Set.Iio a.drawn)) :
    (∀ e after pid lease seq result, Serves secrets a e after → e.request = .effect pid lease seq result → e.Ran →
      ∃ shown, lease = some shown ∧ Authorised history e.clock pid shown) ∧
    (∀ seat, (accepted seat history).Pairwise (· < ·)) ∧
    (∀ e after pid lease seq result, Serves secrets a e after → e.request = .effect pid lease seq result →
      e.Rejected → ∀ id, after.sessions.lookup id = a.sessions.lookup id ∨
        after.sessions.lookup id = none ∧ ∃ session, a.sessions.lookup id = some session ∧
          session.deadline ≤ e.clock.sweep) := by
  have sound := Sound.of_run run distinct
  refine ⟨?_, sound.ordered, ?_⟩
  · intro e after pid lease seq result taken isEffect ran
    obtain ⟨clock, request, monitor, reply⟩ := e
    obtain ⟨_, served⟩ := taken
    cases isEffect
    have passed : ∀ reason, reply ≠ .error reason := by
      rintro reason rfl
      simp [Exchange.Ran] at ran
    obtain ⟨seat, held⟩ := effect_ran served passed
    exact (sound.expire clock).authorised (expire_live clock a) held
  · intro e after pid lease seq result taken isEffect rejected id
    obtain ⟨clock, request, monitor, reply⟩ := e
    obtain ⟨_, served⟩ := taken
    cases isEffect
    rw [effect_rejected served rejected, expire_lookup]
    cases atId : a.sessions.lookup id with
    | none => exact .inl rfl
    | some session =>
      by_cases late : session.deadline ≤ clock.sweep
      · exact .inr ⟨Option.filter_some_neg (by simpa using late), session, rfl, late⟩
      · exact .inl (Option.filter_some_pos (by simpa using late))

/-- Serve requests one after the other. -/
def serveAll (secrets : Secrets Digest) :
    List (Clock × Request Pid) → Authority Pid Digest → List (Exchange Pid) × Authority Pid Digest
  | [], a => ([], a)
  | (clock, request) :: rest, a =>
    let (reply, after) := handle secrets clock request a
    let (history, last) := serveAll secrets rest after
    (⟨clock, request, a.refs, reply⟩ :: history, last)

theorem serveAll_run (secrets : Secrets Digest) (requests : List (Clock × Request Pid)) (a : Authority Pid Digest) :
    Run (Serves secrets) a (serveAll secrets requests a).1 (serveAll secrets requests a).2 := by
  induction requests generalizing a with
  | nil => exact .start
  | cons entry rest ih =>
    have first : Serves secrets a ⟨entry.1, entry.2, a.refs, (handle secrets entry.1 entry.2 a).1⟩
        (handle secrets entry.1 entry.2 a).2 := ⟨rfl, rfl⟩
    exact (Run.single first).append (ih _)

/-- Secrets of the length the authority draws, told apart by their letter. -/
def letters : Secrets String := ⟨fun n => String.ofList (List.replicate 43 (Char.ofNat (97 + n))), id⟩

/-- An editor claims the seat, sends number 5, loses its connection, rejoins from another
process and sends number 6. -/
def rejoining : List (Clock × Request Nat) :=
  let instant (second : Int) : Clock := ⟨second, 1000 + second, second⟩
  let editor : Option Identity := some ⟨"participant_17", 2000⟩
  let lease (n : Nat) : Option Lease := some ⟨"doc", letters.secret 0, "editor", "participant_17", letters.secret n⟩
  [(instant 0, .create "doc" "review" (AList.singleton "editor" "participant_17") 60),
   (instant 1, .claim 7 editor "doc" "review" "editor" (letters.secret 0) (.ticket (letters.secret 1))),
   (instant 2, .effect 7 (lease 3) (.integer 5) .ok),
   (instant 3, .down 0),
   (instant 4, .claim 8 editor "doc" "review" "editor" (letters.secret 0) (.rejoin (letters.secret 2))),
   (instant 5, .effect 8 (lease 5) (.integer 6) .ok)]

theorem letters_distinct : Set.InjOn letters.secret (Set.Iio (serveAll letters rejoining init).2.drawn) := by
  have drawn : (serveAll letters rejoining init).2.drawn = 6 := by decide
  have different : ∀ m < 6, ∀ n < 6, letters.secret m = letters.secret n → m = n := by decide
  rw [drawn]
  exact fun m below n bound => different m below n bound

theorem effects_authorised_in_order_rejoining :
    accepted ("doc", letters.secret 0, "editor") (serveAll letters rejoining init).1 = [5, 6] ∧
    (accepted ("doc", letters.secret 0, "editor") (serveAll letters rejoining init).1).Pairwise (· < ·) :=
  ⟨by decide,
    (effects_authorised_in_order (serveAll_run letters rejoining init) letters_distinct).2.1 _⟩

end Burble.Sessions
