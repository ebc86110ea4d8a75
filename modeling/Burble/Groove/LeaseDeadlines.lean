import Burble.Groove.AttestedSessions

namespace Burble.Groove

/-- A session that is gone, or past its deadline. -/
def Server.Past (server : Server) (handle : String) (now : Int) : Prop :=
  ∀ info, server.connections.lookup handle = some info → ∃ leased ∈ info.leased, leased.deadline ≤ now

/-- A session that is there, under a lease. -/
def Server.Under (server : Server) (handle : String) (leased : Leased) : Prop :=
  ∃ info, server.connections.lookup handle = some info ∧ info.leased = some leased

def Op.isHeartbeat : Op → Bool
  | .heartbeat _ => true
  | .voiceOperation action .. => action = "heartbeat"
  | _ => false

/-- A message that ended a session on request. -/
def Handled.Disconnects (e : Handled) (handle : String) : Prop :=
  e.op.session = some handle ∧ e.op.isDisconnect = true ∧ e.reply = .ok

/-- One message is handled after the other, and the clock does not go back. -/
def Clocked (history : List Handled) : Prop :=
  history.Pairwise fun e later => e.moment.stop ≤ later.moment.start

theorem Moment.start_le_stop (moment : Moment) : moment.start ≤ moment.stop :=
  (moment.within 0).1.trans (moment.within 0).2

section Past
variable {server : Server} {handle : String} {leased : Leased} {now later : Int}

theorem Server.Past.of_none (gone : server.connections.lookup handle = none) : server.Past handle now :=
  fun _ found => nomatch gone.symm.trans found

theorem Server.Past.mono (past : server.Past handle now) (order : now ≤ later) : server.Past handle later := by
  intro info found
  obtain ⟨leased, isLeased, late⟩ := past info found
  exact ⟨leased, isLeased, late.trans order⟩

theorem Server.Under.past (under : server.Under handle leased) (late : leased.deadline ≤ now) : server.Past handle now := by
  obtain ⟨info, found, isLeased⟩ := under
  intro other same
  cases found.symm.trans same
  exact ⟨leased, isLeased, late⟩

end Past

section Changing
variable {hashOf : AttestationBody → String} {moment : Moment} {before after : Server} {handle : String} {leased : Leased}
  {now : Int} {change : Change} {changes : List Change}

theorem Changes.absent (changed : Changes hashOf moment before change after) (gone : before.connections.lookup handle = none)
    (old : change ≠ .connected handle) : after.connections.lookup handle = none := by
  by_cases here : change.session = some handle
  · cases changed with
    | pushed | popped => cases here
    | connected =>
      cases here
      exact absurd rfl old
    | expired n found | disconnected n found | refreshed n m found | adjusted found | dropped found =>
      cases here
      cases gone.symm.trans found
  · exact (changed.elsewhere here).trans gone

/-- A session under a lease stays so, is refreshed under a hard lease, or goes: on request, or late. -/
theorem Changes.under (changed : Changes hashOf moment before change after) (under : before.Under handle leased)
    (old : change ≠ .connected handle) : after.Under handle leased ∨
    (change = .refreshed handle ∧ leased.lease.mode = .hard ∧ moment.start < leased.deadline ∧
      ∃ n, after.Under handle ⟨leased.lease, moment.read n + leased.lease.ttlMs⟩) ∨
    after.connections.lookup handle = none ∧ (change = .disconnected handle ∨ leased.deadline ≤ moment.stop) := by
  obtain ⟨info, found, isLeased⟩ := under
  by_cases here : change.session = some handle
  · cases changed with
    | pushed | popped => cases here
    | connected =>
      cases here
      exact absurd rfl old
    | expired n found' isLeased' late =>
      cases here
      cases found.symm.trans found'
      cases isLeased.symm.trans isLeased'
      exact .inr (.inr ⟨AList.lookup_erase _ _, .inr (late.trans (moment.within n).2)⟩)
    | disconnected n found' =>
      cases here
      exact .inr (.inr ⟨AList.lookup_erase _ _, .inl rfl⟩)
    | refreshed n m found' alive =>
      cases here
      cases found.symm.trans found'
      have early := (moment.within n).1.trans_lt (alive leased isLeased)
      cases mode : leased.lease.mode with
      | soft =>
        refine .inl ⟨_, AList.lookup_insert _, ?_⟩
        simp only [Server.refreshLease, isLeased, mode]
      | hard =>
        refine .inr (.inl ⟨rfl, rfl, early, m, _, AList.lookup_insert _, ?_⟩)
        simp only [Server.refreshLease, isLeased, mode]
    | adjusted found' same =>
      cases here
      cases found.symm.trans found'
      exact .inl ⟨_, AList.lookup_insert _, same.leased.trans isLeased⟩
    | dropped found' legacy =>
      cases here
      cases found.symm.trans found'
      cases isLeased.symm.trans legacy
  · exact .inl ⟨info, (changed.elsewhere here).trans found, isLeased⟩

theorem run_absent (run : Run (Changes hashOf moment) before changes after)
    (gone : before.connections.lookup handle = none) (old : .connected handle ∉ changes) :
    after.connections.lookup handle = none := by
  induction run with
  | start => exact gone
  | next _ taken ih =>
    have earlier := ih fun member => old (List.mem_append_left _ member)
    exact taken.absent earlier fun same => old (by simp [same])

theorem run_under (run : Run (Changes hashOf moment) before changes after) (under : before.Under handle leased)
    (old : .connected handle ∉ changes) (plain : .refreshed handle ∉ changes) : after.Under handle leased ∨
    after.connections.lookup handle = none ∧ (.disconnected handle ∈ changes ∨ leased.deadline ≤ moment.stop) := by
  induction run with
  | start => exact .inl under
  | @next earlier current change after _ taken ih =>
    have old' : change ≠ .connected handle := fun same => old (by simp [same])
    rcases ih (fun member => old (List.mem_append_left _ member)) (fun member => plain (List.mem_append_left _ member)) with
      still | ⟨gone, why⟩
    · rcases taken.under still old' with kept | ⟨rfl, _⟩ | ⟨gone, rfl | late⟩
      · exact .inl kept
      · exact absurd (List.mem_append_right _ List.mem_cons_self) plain
      · exact .inr ⟨gone, .inl (List.mem_append_right _ List.mem_cons_self)⟩
      · exact .inr ⟨gone, .inr late⟩
    · exact .inr ⟨taken.absent gone old', why.imp_left (List.mem_append_left _)⟩

end Changing

section Serving
variable {hashOf : AttestationBody → String} {before after server last : Server} {e : Handled} {handle : String}
  {leased : Leased} {now : Int} {history later : List Handled}

theorem Op.Makes.old {op : Op} {reply : Reply} {change : Change} (makes : op.Makes reply change)
    (other : op.draws ≠ some handle) : change ≠ .connected handle := by
  rintro rfl
  exact other makes

theorem Serves.absent (taken : Serves hashOf before e after) (other : e.op.draws ≠ some handle)
    (gone : before.connections.lookup handle = none) : after.connections.lookup handle = none := by
  obtain ⟨sent, served⟩ := taken
  obtain ⟨changes, last, run, makes, _⟩ := handle_traced served
  exact run_absent run gone fun member => (makes _ member).old other rfl

/-- The step lemma: a lease is kept, or refreshed if it is hard, or its session goes: on request, or late. -/
theorem Serves.under (taken : Serves hashOf before e after) (other : e.op.draws ≠ some handle)
    (under : before.Under handle leased) : after.Under handle leased ∨
    (e.op.session = some handle ∧ leased.lease.mode = .hard ∧ e.moment.start < leased.deadline ∧
      ∃ n, after.Under handle ⟨leased.lease, e.moment.read n + leased.lease.ttlMs⟩) ∨
    after.connections.lookup handle = none ∧ (e.Disconnects handle ∨ leased.deadline ≤ e.moment.stop) := by
  obtain ⟨sent, served⟩ := taken
  obtain ⟨changes, last, run, makes, plain, short⟩ := handle_traced served
  obtain ⟨middle, first, second⟩ := run.split
  have old (change : Change) (member : change ∈ changes ++ last) : change ≠ .connected handle := (makes _ member).old other
  have asked (member : .disconnected handle ∈ changes ++ last) : e.Disconnects handle :=
    makes (.disconnected handle) member
  rcases run_under first under (fun member => old _ (List.mem_append_left _ member) rfl) (plain handle) with
    still | ⟨gone, why⟩
  · cases last with
    | nil =>
      cases Run.nil_iff.mp second
      exact .inl still
    | cons change rest =>
      have single : rest = [] := List.eq_nil_of_length_eq_zero (Nat.le_zero.mp (Nat.le_of_succ_le_succ short))
      cases single
      obtain ⟨_, changed, finish⟩ := Run.cons_iff.mp second
      cases Run.nil_iff.mp finish
      rcases changed.under still (old _ (by simp)) with kept | ⟨rfl, refreshed⟩ | ⟨gone, rfl | late⟩
      · exact .inl kept
      · exact .inr (.inl ⟨makes (.refreshed handle) (by simp), refreshed⟩)
      · exact .inr (.inr ⟨gone, .inl (asked (by simp))⟩)
      · exact .inr (.inr ⟨gone, .inr late⟩)
  · refine .inr (.inr ⟨?_, why.imp_left fun member => asked (List.mem_append_left _ member)⟩)
    exact run_absent second gone fun member => old _ (List.mem_append_right _ member) rfl

/-- No message revives a session that is past its deadline. -/
theorem Serves.past (taken : Serves hashOf before e after) (other : e.op.draws ≠ some handle) (past : before.Past handle now)
    (late : now ≤ e.moment.start) : after.Past handle now := by
  cases found : before.connections.lookup handle with
  | none => exact .of_none (taken.absent other found)
  | some info =>
    obtain ⟨leased, isLeased, elapsed⟩ := past info found
    rcases taken.under other ⟨info, found, isLeased⟩ with still | ⟨_, _, early, _⟩ | ⟨gone, _⟩
    · exact still.past elapsed
    · omega
    · exact .of_none gone

variable (hashOf) in
/-- A session that is past its deadline is not found. -/
theorem expireIfElapsed_past {moment : Moment} (past : before.Past handle now) (late : now ≤ moment.start) (n : Nat) :
    (before.expireIfElapsed hashOf (moment.read n) moment.stamp handle).connections.lookup handle = none := by
  rcases expireIfElapsed_cases hashOf moment n handle before with ⟨same, alive⟩ | ⟨info, leased, _, _, _, same⟩
  · rw [same]
    by_contra present
    obtain ⟨info, found⟩ := Option.ne_none_iff_exists'.mp present
    obtain ⟨leased, isLeased, elapsed⟩ := past info found
    have early := alive info found leased isLeased
    have order := (moment.within n).1
    omega
  · rw [same]
    exact AList.lookup_erase _ _

theorem Serves.refused (taken : Serves hashOf before e after) (past : before.Past handle now) (late : now ≤ e.moment.start)
    (on : e.op.session = some handle) : e.reply = .error .notFound := by
  obtain ⟨sent, served⟩ := taken
  obtain ⟨moment, op, reply⟩ := e
  have gone := expireIfElapsed_past hashOf past late
  cases op with
  | disconnect =>
    cases on
    simp only [Server.handle, Server.disconnectSession, gone] at served
    split at served <;> exact (congrArg Prod.fst served).symm
  | heartbeat =>
    cases on
    simp only [Server.handle, Server.heartbeatSession, gone] at served
    split at served <;> exact (congrArg Prod.fst served).symm
  | voiceOperation =>
    cases on
    simp only [Server.handle, Server.voiceOperation, gone] at served
    exact (congrArg Prod.fst served).symm
  | _ => cases on

/-- The run lemma: a session that is past its deadline stays so, and every message on it is refused. -/
theorem run_past (run : Run (Serves hashOf) server later last) (other : ∀ e ∈ later, e.op.draws ≠ some handle)
    (past : server.Past handle now) (late : ∀ e ∈ later, now ≤ e.moment.start) :
    (∀ e ∈ later, e.op.session = some handle → e.reply = .error .notFound) ∧ last.Past handle now := by
  induction run with
  | start => exact ⟨fun e member => absurd member List.not_mem_nil, past⟩
  | @next earlier current e after _ taken ih =>
    obtain ⟨refused, still⟩ := ih (fun e member => other e (List.mem_append_left _ member))
      fun e member => late e (List.mem_append_left _ member)
    have isLast : e ∈ earlier ++ [e] := List.mem_append_right _ List.mem_cons_self
    refine ⟨fun asked member on => ?_, taken.past (other e isLast) still (late e isLast)⟩
    rcases List.mem_append.mp member with old | new
    · exact refused asked old on
    · cases List.mem_singleton.mp new
      exact taken.refused still (late _ isLast) on

/-- A soft lease is never extended. -/
theorem run_soft (run : Run (Serves hashOf) server later last) (other : ∀ e ∈ later, e.op.draws ≠ some handle)
    (under : server.Under handle leased) (soft : leased.lease.mode = .soft) :
    last.Under handle leased ∨ last.connections.lookup handle = none := by
  induction run with
  | start => exact .inl under
  | @next earlier current e after _ taken ih =>
    have other' : e.op.draws ≠ some handle := other e (List.mem_append_right _ List.mem_cons_self)
    rcases ih fun e member => other e (List.mem_append_left _ member) with still | gone
    · rcases taken.under other' still with kept | ⟨_, hard, _⟩ | ⟨gone, _⟩
      · exact .inl kept
      · cases soft.symm.trans hard
      · exact .inr gone
    · exact .inr (taken.absent other' gone)

/-- A message on the way ended the session on request, or came to it past the deadline of its lease then. -/
def EndsLate (hashOf : AttestationBody → String) (server : Server) (later : List Handled) (handle : String) (lease : Lease) :
    Prop :=
  ∃ past e rest middle leased, later = past ++ e :: rest ∧ Run (Serves hashOf) server past middle ∧
    middle.Under handle leased ∧ leased.lease = lease ∧ (e.Disconnects handle ∨ leased.deadline ≤ e.moment.stop)

theorem EndsLate.next {lease : Lease} (ends : EndsLate hashOf server later handle lease) (e : Handled) :
    EndsLate hashOf server (later ++ [e]) handle lease := by
  obtain ⟨past, first, rest, middle, leased, rfl, found⟩ := ends
  exact ⟨past, first, rest ++ [e], middle, leased, by simp, found⟩

/-- A leased session goes on request, or once the deadline of its lease is over. -/
theorem run_reaped (run : Run (Serves hashOf) server later last) (other : ∀ e ∈ later, e.op.draws ≠ some handle)
    (under : server.Under handle leased) : (∃ expiresAt, last.Under handle ⟨leased.lease, expiresAt⟩) ∨
      last.connections.lookup handle = none ∧ EndsLate hashOf server later handle leased.lease := by
  induction run with
  | start => exact .inl ⟨leased.expiresAt, under⟩
  | @next earlier current e after past taken ih =>
    have other' : e.op.draws ≠ some handle := other e (List.mem_append_right _ List.mem_cons_self)
    rcases ih fun e member => other e (List.mem_append_left _ member) with ⟨expiresAt, still⟩ | ⟨gone, ends⟩
    · rcases taken.under other' still with kept | ⟨_, _, _, n, refreshed⟩ | ⟨gone, why⟩
      · exact .inl ⟨expiresAt, kept⟩
      · exact .inl ⟨_, refreshed⟩
      · exact .inr ⟨gone, earlier, e, [], current, _, rfl, past, still, rfl, why⟩
    · exact .inr ⟨taken.absent other' gone, ends.next e⟩

/-- The check of a deadline removes the session, or leaves everything. -/
theorem expireIfElapsed_found {moment : Moment} {n : Nat} {info : ConnInfo}
    (found : (before.expireIfElapsed hashOf (moment.read n) moment.stamp handle).connections.lookup handle = some info) :
    before.expireIfElapsed hashOf (moment.read n) moment.stamp handle = before := by
  rcases expireIfElapsed_cases hashOf moment n handle before with ⟨same, _⟩ | ⟨_, _, _, _, _, same⟩
  · exact same
  · rw [same] at found
    cases (AList.lookup_erase _ _).symm.trans found

/-- A heartbeat that succeeds on a hard lease moves its expiry. -/
theorem heartbeatSession_refreshes {moment : Moment} {n m : Nat} {reply : Reply} (under : before.Under handle leased)
    (hard : leased.lease.mode = .hard)
    (served : before.heartbeatSession hashOf (moment.read n) (moment.read m) moment.stamp handle = (reply, after))
    (ok : reply = .ok) : after.Under handle ⟨leased.lease, moment.read m + leased.lease.ttlMs⟩ := by
  obtain ⟨info, found, isLeased⟩ := under
  unfold Server.heartbeatSession at served
  simp only at served
  split at served
  · cases served
    cases ok
  next other found' =>
    have same := expireIfElapsed_found found'
    rw [same] at found' served
    cases found.symm.trans found'
    cases served
    refine ⟨_, AList.lookup_insert _, ?_⟩
    simp only [Server.refreshLease, isLeased, hard]

theorem Serves.refreshes (taken : Serves hashOf before e after) (under : before.Under handle leased)
    (hard : leased.lease.mode = .hard) (on : e.op.session = some handle) (beats : e.op.isHeartbeat = true)
    (ok : e.reply = .ok) : ∃ n, after.Under handle ⟨leased.lease, e.moment.read n + leased.lease.ttlMs⟩ := by
  obtain ⟨sent, served⟩ := taken
  obtain ⟨moment, op, reply⟩ := e
  cases op with
  | heartbeat =>
    cases on
    simp only [Server.handle] at served
    split at served
    · cases served
      cases ok
    · generalize beat : Server.heartbeatSession hashOf _ _ _ _ _ = result at served
      obtain ⟨_, _⟩ := result
      cases served
      exact ⟨1, heartbeatSession_refreshes under hard beat ok⟩
  | voiceOperation =>
    cases on
    have isHeartbeat := of_decide_eq_true beats
    simp only [Server.handle, Server.voiceOperation] at served
    split at served
    · cases served
      cases ok
    next info found =>
      rw [expireIfElapsed_found found] at served
      split at served
      · cases served
        cases ok
      · split at served
        · split at served
          · cases served
            cases ok
          · generalize beat : Server.heartbeatSession hashOf _ _ _ _ _ = result at served
            obtain ⟨_, _⟩ := result
            cases served
            exact ⟨4, heartbeatSession_refreshes under hard beat ok⟩
        · cases served
          cases ok
  | disconnect => cases beats
  | _ => cases on

end Serving

end Burble.Groove
