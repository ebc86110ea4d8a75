import Burble.Fallible
import Burble.Runs
import Burble.Groove.LeaseDeadlines

namespace Burble.Groove

/-- Two entries of a session between which no reply distinguishes. -/
structure ConnInfo.Alike (info other : ConnInfo) : Prop where
  leased : info.leased = other.leased
  scope : info.voiceScope = other.voiceScope
  inbox : info.voiceInbox = other.voiceInbox
  epoch : info.voiceEpoch = other.voiceEpoch

/-- Two servers have the session alike, or neither has it. -/
def Server.Alike (server other : Server) (handle : String) : Prop :=
  Option.Rel ConnInfo.Alike (server.connections.lookup handle) (other.connections.lookup handle)

theorem ConnInfo.Alike.symm {info other : ConnInfo} (alike : info.Alike other) : other.Alike info :=
  ⟨alike.leased.symm, alike.scope.symm, alike.inbox.symm, alike.epoch.symm⟩

theorem ConnInfo.Alike.trans {info other last : ConnInfo} (alike : info.Alike other) (next : other.Alike last) :
    info.Alike last :=
  ⟨alike.leased.trans next.leased, alike.scope.trans next.scope, alike.inbox.trans next.inbox,
    alike.epoch.trans next.epoch⟩

section Lockstep
variable {hashOf : AttestationBody → String} {server other : Server} {handle : String} {info info' : ConnInfo} {now elapsed : Int}
  {stamp : String → String}

theorem Server.Alike.of_found (found : server.connections.lookup handle = some info)
    (found' : other.connections.lookup handle = some info') (alike : info.Alike info') : server.Alike other handle := by
  rw [Server.Alike, found, found']
  exact .some alike

theorem Server.Alike.of_gone (gone : server.connections.lookup handle = none)
    (gone' : other.connections.lookup handle = none) : server.Alike other handle := by
  rw [Server.Alike, gone, gone']
  exact .none

theorem Server.Alike.cases (alike : server.Alike other handle) :
    (server.connections.lookup handle = none ∧ other.connections.lookup handle = none) ∨
    ∃ info info', server.connections.lookup handle = some info ∧ other.connections.lookup handle = some info' ∧
      info.Alike info' :=
  Fallible.rel_cases alike

variable (hashOf now stamp) in
theorem expireIfElapsed_alike (alike : server.Alike other handle) :
    (server.expireIfElapsed hashOf now stamp handle).Alike (other.expireIfElapsed hashOf now stamp handle) handle := by
  rcases alike.cases with ⟨gone, gone'⟩ | ⟨info, info', found, found', same⟩
  · simpa only [Server.expireIfElapsed, gone, gone'] using alike
  · simp only [Server.expireIfElapsed, found, found', same.leased]
    split
    · split
      · exact .of_gone (AList.lookup_erase _ _) (AList.lookup_erase _ _)
      · exact alike
    · exact alike

theorem disconnectSession_alike (alike : server.Alike other handle) :
    (server.disconnectSession hashOf now stamp handle).1 = (other.disconnectSession hashOf now stamp handle).1 ∧
    (server.disconnectSession hashOf now stamp handle).2.Alike (other.disconnectSession hashOf now stamp handle).2 handle := by
  have checked := expireIfElapsed_alike hashOf now stamp alike
  rcases checked.cases with ⟨gone, gone'⟩ | ⟨info, info', found, found', same⟩
  · simpa only [Server.disconnectSession, gone, gone', true_and] using checked
  · simp only [Server.disconnectSession, found, found', true_and]
    exact .of_gone (AList.lookup_erase _ _) (AList.lookup_erase _ _)

theorem refreshLease_alike (same : info.Alike info') : (Server.refreshLease now info).Alike (Server.refreshLease now info') := by
  obtain ⟨leased, scope, inbox, epoch⟩ := same
  simp only [Server.refreshLease, leased]
  split
  · split
    · exact ⟨leased, scope, inbox, epoch⟩
    · exact ⟨rfl, scope, inbox, epoch⟩
  · exact ⟨leased, scope, inbox, epoch⟩

theorem heartbeatSession_alike (alike : server.Alike other handle) :
    (server.heartbeatSession hashOf elapsed now stamp handle).1 = (other.heartbeatSession hashOf elapsed now stamp handle).1 ∧
    (server.heartbeatSession hashOf elapsed now stamp handle).2.Alike
      (other.heartbeatSession hashOf elapsed now stamp handle).2 handle := by
  have checked := expireIfElapsed_alike hashOf elapsed stamp alike
  rcases checked.cases with ⟨gone, gone'⟩ | ⟨info, info', found, found', same⟩
  · simpa only [Server.heartbeatSession, gone, gone', true_and] using checked
  · simp only [Server.heartbeatSession, found, found', same.leased, true_and]
    exact .of_found (AList.lookup_insert _) (AList.lookup_insert _)
      (refreshLease_alike ⟨rfl, same.scope, same.inbox, same.epoch⟩)

theorem voiceOperation_alike {moment : Moment} {action peer : String} {auth : Auth} {bytes : List UInt8}
    {requestDeadline unique : Int} {room : RoomAnswer} (alike : server.Alike other handle) :
    (server.voiceOperation hashOf moment action handle auth peer bytes requestDeadline room unique).1 =
      (other.voiceOperation hashOf moment action handle auth peer bytes requestDeadline room unique).1 ∧
    (server.voiceOperation hashOf moment action handle auth peer bytes requestDeadline room unique).2.1.Alike
      (other.voiceOperation hashOf moment action handle auth peer bytes requestDeadline room unique).2.1 handle := by
  have checked := expireIfElapsed_alike hashOf (moment.read 0) moment.stamp alike
  rcases checked.cases with ⟨gone, gone'⟩ | ⟨info, info', found, found', same⟩
  · simpa only [Server.voiceOperation, gone, gone', true_and] using checked
  · simp only [Server.voiceOperation, found, found', same.leased, same.scope, same.inbox]
    split
    · exact ⟨rfl, checked⟩
    · split
      · split
        · exact ⟨rfl, checked⟩
        · split
          · exact heartbeatSession_alike checked
          · split
            · exact disconnectSession_alike checked
            · split
              · split
                · exact ⟨rfl, checked⟩
                · refine ⟨rfl, .of_found (AList.lookup_insert _) (AList.lookup_insert _) ?_⟩
                  exact ⟨rfl, rfl, rfl, same.epoch⟩
              · exact ⟨rfl, checked⟩
      · exact ⟨rfl, checked⟩

end Lockstep

section Elsewhere
variable {hashOf : AttestationBody → String} {moment : Moment} {before after server : Server} {handle : String}

/-- A fold over entries of different sessions does to a session what the step at its own entry does. -/
theorem foldl_lookup {Entry : Type} (key : Entry → String) (step : Server → Entry → Server)
    (elsewhere : ∀ server entry, key entry ≠ handle →
      (step server entry).connections.lookup handle = server.connections.lookup handle)
    {entries : List Entry} (distinct : (entries.map key).Nodup) {entry : Entry} (member : entry ∈ entries)
    (here : key entry = handle) (server : Server) :
    ∃ current, current.connections.lookup handle = server.connections.lookup handle ∧
      (entries.foldl step server).connections.lookup handle = (step current entry).connections.lookup handle := by
  have skipped : ∀ (rest : List Entry) (server : Server), (∀ other ∈ rest, key other ≠ handle) →
      (rest.foldl step server).connections.lookup handle = server.connections.lookup handle := by
    intro rest
    induction rest with
    | nil => exact fun _ _ => rfl
    | cons other rest ih =>
      intro server apart
      rw [List.foldl_cons, ih _ fun other member => apart other (List.mem_cons_of_mem _ member)]
      exact elsewhere _ _ (apart other List.mem_cons_self)
  obtain ⟨front, back, rfl⟩ := List.append_of_mem member
  rw [List.map_append, List.map_cons, List.nodup_append] at distinct
  obtain ⟨_, second, apart⟩ := distinct
  refine ⟨front.foldl step server, skipped _ _ fun other among same => ?_, ?_⟩
  · exact apart _ (List.mem_map_of_mem among) _ List.mem_cons_self (same.trans here.symm)
  · rw [List.foldl_append, List.foldl_cons]
    refine skipped _ _ fun other among same => ?_
    exact (List.nodup_cons.mp second).1 (here.trans same.symm ▸ List.mem_map_of_mem among)

variable (hashOf server) in
theorem expireIfElapsed_elsewhere (now : Int) (stamp : String → String) {other : String} (apart : other ≠ handle) :
    (server.expireIfElapsed hashOf now stamp other).connections.lookup handle = server.connections.lookup handle := by
  unfold Server.expireIfElapsed
  split
  · split
    · split
      · exact AList.lookup_erase_ne apart.symm
      · rfl
    · rfl
  · rfl

theorem sweepConnection_elsewhere {now : Int} {stamp : String → String} {entry : String × ConnInfo} (apart : entry.1 ≠ handle) :
    (server.sweepConnection hashOf now stamp entry).connections.lookup handle = server.connections.lookup handle := by
  have inserted (info : ConnInfo) : (server.connections.insert entry.1 info).lookup handle = server.connections.lookup handle :=
    AList.lookup_insert_ne apart.symm
  have erased : (server.connections.erase entry.1).lookup handle = server.connections.lookup handle :=
    AList.lookup_erase_ne apart.symm
  unfold Server.sweepConnection
  simp only
  split
  · split
    · split
      · exact erased
      · rfl
    · split
      · rfl
      · split
        · exact erased
        · exact inserted _
  · split
    · split
      · exact erased
      · exact inserted _
    · rfl

theorem deliverTo_elsewhere {now : Int} {stamp : String → String} {delivery : Delivery} {other : String}
    (apart : other ≠ handle) :
    (server.deliverTo hashOf now stamp delivery other).connections.lookup handle = server.connections.lookup handle := by
  have checked := expireIfElapsed_elsewhere hashOf server now stamp apart
  unfold Server.deliverTo
  simp only
  split
  · split
    · exact (AList.lookup_insert_ne apart.symm).trans checked
    · exact checked
  · exact checked

theorem disconnectSession_elsewhere {now : Int} {stamp : String → String} {other : String} (apart : other ≠ handle) :
    (server.disconnectSession hashOf now stamp other).2.connections.lookup handle = server.connections.lookup handle := by
  have checked := expireIfElapsed_elsewhere hashOf server now stamp apart
  unfold Server.disconnectSession
  simp only
  split
  · exact checked
  · exact (AList.lookup_erase_ne apart.symm).trans checked

theorem heartbeatSession_elsewhere {elapsed now : Int} {stamp : String → String} {other : String} (apart : other ≠ handle) :
    (server.heartbeatSession hashOf elapsed now stamp other).2.connections.lookup handle = server.connections.lookup handle := by
  have checked := expireIfElapsed_elsewhere hashOf server elapsed stamp apart
  unfold Server.heartbeatSession
  simp only
  split
  · exact checked
  · exact (AList.lookup_insert_ne apart.symm).trans checked

theorem voiceOperation_elsewhere {action other peer : String} {auth : Auth} {bytes : List UInt8} {requestDeadline unique : Int}
    {room : RoomAnswer} (apart : other ≠ handle) :
    (server.voiceOperation hashOf moment action other auth peer bytes requestDeadline room unique).2.1.connections.lookup handle =
      server.connections.lookup handle := by
  have checked := expireIfElapsed_elsewhere hashOf server (moment.read 0) moment.stamp apart
  unfold Server.voiceOperation
  simp only
  split
  · exact checked
  · split
    · exact checked
    · split
      · split
        · exact checked
        · split
          · exact (heartbeatSession_elsewhere apart).trans checked
          · split
            · exact (disconnectSession_elsewhere apart).trans checked
            · split
              · split
                · exact checked
                · exact (AList.lookup_insert_ne apart.symm).trans checked
              · exact checked
      · exact checked

variable (hashOf) in
/-- A sweep leaves what replies depend on, or expires the session. -/
theorem sweep_lookup (now : Int) (stamp : String → String) {info : ConnInfo} {leased : Leased}
    (found : server.connections.lookup handle = some info) (isLeased : info.leased = some leased) :
    (∃ marked, (server.sweep hashOf now stamp).connections.lookup handle = some marked ∧ info.Alike marked) ∨
      (server.sweep hashOf now stamp).connections.lookup handle = none ∧ leased.deadline ≤ now := by
  obtain ⟨current, same, swept⟩ := foldl_lookup Prod.fst (Server.sweepConnection hashOf now stamp)
    (fun _ _ apart => sweepConnection_elsewhere apart) (FiniteMap.distinct_keys server.connections)
    (FiniteMap.mem_toList.mpr found) rfl server
  rw [Server.sweep, swept]
  have stays : ∃ marked, current.connections.lookup handle = some marked ∧ info.Alike marked :=
    ⟨info, same.trans found, rfl, rfl, rfl, rfl⟩
  simp only [Server.sweepConnection, isLeased]
  split
  next soft =>
    split
    next late => exact .inr ⟨AList.lookup_erase _ _, by simpa only [Leased.deadline, soft] using late⟩
    next => exact .inl stays
  next hard =>
    split
    next => exact .inl stays
    next =>
      split
      next missed =>
        exact .inr ⟨AList.lookup_erase _ _, by simpa only [Leased.deadline, hard] using (missed_iff leased _).mp missed⟩
      next => exact .inl ⟨_, AList.lookup_insert _, isLeased, rfl, rfl, rfl⟩

variable (hashOf moment) in
/-- A delivery does to a session what it does at its turn. -/
theorem voiceDelivery_lookup (delivery : Delivery) {info : ConnInfo} (found : server.connections.lookup handle = some info) :
    ∃ n, ∃ current : Server, current.connections.lookup handle = some info ∧
      (server.voiceDelivery hashOf moment delivery).connections.lookup handle =
        (current.deliverTo hashOf (moment.read n) moment.stamp delivery handle).connections.lookup handle := by
  have present : handle ∈ server.connections.keys := AList.mem_keys.mp (AList.lookup_isSome.mp (by rw [found]; rfl))
  obtain ⟨n, bound, here⟩ := List.getElem_of_mem present
  have member : (handle, n) ∈ server.connections.keys.zipIdx :=
    List.mem_zipIdx_iff_getElem?.mpr (List.getElem?_eq_some_iff.mpr ⟨bound, here⟩)
  have distinct : (server.connections.keys.zipIdx.map Prod.fst).Nodup := by
    rw [List.zipIdx_map_fst]
    exact server.connections.nodupKeys
  obtain ⟨current, same, delivered⟩ := foldl_lookup Prod.fst
    (fun server entry => server.deliverTo hashOf (moment.read entry.2) moment.stamp delivery entry.1)
    (fun _ _ apart => deliverTo_elsewhere apart) distinct member rfl server
  exact ⟨n, current, same.trans found, delivered⟩

theorem deliverTo_lookup {now : Int} {stamp : String → String} (delivery : Delivery) {info : ConnInfo}
    (found : server.connections.lookup handle = some info) (alive : info.AliveAt now) :
    (server.deliverTo hashOf now stamp delivery handle).connections.lookup handle =
      some (if info.voiceScope = some ⟨delivery.recipient, delivery.room, delivery.sender⟩ ∧
          info.voiceInbox.length < maxInbox ∧ delivery.bytes.length ≤ maxFrame ∧ info.voiceEpoch < delivery.epoch then
        { info with voiceInbox := info.voiceInbox ++ [delivery.bytes] } else info) := by
  have checked : server.expireIfElapsed hashOf now stamp handle = server := by
    unfold Server.expireIfElapsed
    rw [found]
    simp only
    split
    next leased isLeased => exact if_neg (Int.not_le.mpr (alive leased isLeased))
    next => rfl
  simp only [Server.deliverTo, checked, found]
  split
  · exact AList.lookup_insert _
  · exact found

/-- A message that is no sweep and no delivery is to its own session only. -/
theorem Serves.elsewhere {e : Handled} (taken : Serves hashOf before e after) (drawn : e.op.draws ≠ some handle)
    (session : e.op.session ≠ some handle) (sweep : e.op ≠ .checkHeartbeats)
    (delivery : ∀ delivery, e.op ≠ .voiceDelivery delivery) :
    after.connections.lookup handle = before.connections.lookup handle := by
  obtain ⟨sent, served⟩ := taken
  have result : (before.handle hashOf e.moment e.op).2.1 = after := by rw [served]
  obtain ⟨moment, op, reply⟩ := e
  cases op with
  | push message =>
    cases result
    simp only [Server.handle, Server.push]
    split <;> rfl
  | disconnect =>
    cases result
    simp only [Server.handle]
    split
    · rfl
    · exact disconnectSession_elsewhere fun same => session (congrArg some same)
  | heartbeat =>
    cases result
    simp only [Server.handle]
    split
    · rfl
    · exact heartbeatSession_elsewhere fun same => session (congrArg some same)
  | voiceOperation =>
    cases result
    exact voiceOperation_elsewhere fun same => session (congrArg some same)
  | connect manifest drawn =>
    rcases handle_draws served rfl with ⟨same, _⟩ | ⟨changes, isScope, run⟩
    · rw [same]
    · refine run_elsewhere run ?_
      rcases isScope with rfl | rfl <;> simpa [Change.session] using fun same => drawn (congrArg some same)
  | voiceConnect auth scope lease requestDeadline room drawn =>
    rcases handle_draws served rfl with ⟨same, _⟩ | ⟨changes, isScope, run⟩
    · rw [same]
    · refine run_elsewhere run ?_
      rcases isScope with rfl | rfl <;> simpa [Change.session] using fun same => drawn (congrArg some same)
  | checkHeartbeats => exact absurd rfl sweep
  | voiceDelivery sent => exact absurd rfl (delivery sent)
  | _ =>
    cases result
    rfl

end Elsewhere

section Agreeing
variable {hashOf : AttestationBody → String} {server other after after' : Server} {handle : String} {leased : Leased} {now later : Int}
  {e e' : Handled}

/-- Two servers have a leased session alike, or both have lost it for good. -/
def Server.Agrees (server other : Server) (handle : String) (now : Int) : Prop :=
  (server.Alike other handle ∧ ∃ leased, server.Under handle leased) ∨ server.Past handle now ∧ other.Past handle now

theorem Server.Alike.symm (alike : server.Alike other handle) : other.Alike server handle := by
  rcases alike.cases with ⟨gone, gone'⟩ | ⟨info, info', found, found', same⟩
  · exact .of_gone gone' gone
  · exact .of_found found' found same.symm

theorem Server.Alike.under (alike : server.Alike other handle) (under : server.Under handle leased) : other.Under handle leased := by
  obtain ⟨info, found, isLeased⟩ := under
  rcases alike.cases with ⟨gone, _⟩ | ⟨_, info', found', here, same⟩
  · cases gone.symm.trans found
  · cases found.symm.trans found'
    exact ⟨info', here, same.leased.symm.trans isLeased⟩

theorem Server.Agrees.symm (agrees : server.Agrees other handle now) : other.Agrees server handle now := by
  rcases agrees with ⟨alike, leased, under⟩ | ⟨past, past'⟩
  · exact .inl ⟨alike.symm, leased, alike.under under⟩
  · exact .inr ⟨past', past⟩

theorem Server.Agrees.mono (agrees : server.Agrees other handle now) (order : now ≤ later) : server.Agrees other handle later :=
  agrees.imp_right fun past => ⟨past.1.mono order, past.2.mono order⟩

theorem Server.Alike.agrees (alike : server.Alike other handle)
    (there : (∃ leased, server.Under handle leased) ∨ server.connections.lookup handle = none) :
    server.Agrees other handle now := by
  rcases there with under | gone
  · exact .inl ⟨alike, under⟩
  · rcases alike.cases with ⟨_, gone'⟩ | ⟨_, _, found, _⟩
    · exact .inr ⟨.of_none gone, .of_none gone'⟩
    · cases gone.symm.trans found

/-- A sweep keeps what is past the deadline so, whenever it runs. -/
theorem Serves.sweep_past (taken : Serves hashOf server e after) (sweep : e.op = .checkHeartbeats)
    (past : server.Past handle now) : after.Past handle now := by
  have drawn : e.op.draws ≠ some handle := by
    rw [sweep]
    nofun
  cases found : server.connections.lookup handle with
  | none => exact .of_none (taken.absent drawn found)
  | some info =>
    obtain ⟨leased, isLeased, late⟩ := past info found
    rcases taken.under drawn ⟨info, found, isLeased⟩ with still | ⟨session, _⟩ | ⟨gone, _⟩
    · exact still.past late
    · rw [sweep] at session
      cases session
    · exact .of_none gone

/-- The servers agree across a sweep of one of them. -/
theorem Server.Agrees.sweep (agrees : server.Agrees other handle now) (taken : Serves hashOf server e after)
    (sweep : e.op = .checkHeartbeats) (order : e.moment.stop ≤ now) : after.Agrees other handle now := by
  rcases agrees with ⟨alike, leased, under⟩ | ⟨past, past'⟩
  · obtain ⟨sent, served⟩ := taken
    rw [sweep] at served
    have result : server.sweep hashOf (e.moment.read 0) e.moment.stamp = after := congrArg (fun made => made.2.1) served
    obtain ⟨info, found, isLeased⟩ := under
    rw [← result]
    rcases sweep_lookup hashOf (e.moment.read 0) e.moment.stamp found isLeased with
      ⟨marked, found', same⟩ | ⟨gone, late⟩
    · refine .inl ⟨?_, leased, marked, found', same.leased.symm.trans isLeased⟩
      rcases alike.cases with ⟨none, _⟩ | ⟨_, info', here, there, alike⟩
      · cases none.symm.trans found
      · cases found.symm.trans here
        exact .of_found found' there (same.symm.trans alike)
    · have elapsed : leased.deadline ≤ now := (late.trans (e.moment.within 0).2).trans order
      exact .inr ⟨.of_none gone, (alike.under ⟨info, found, isLeased⟩).past elapsed⟩
  · exact .inr ⟨taken.sweep_past sweep past, past'⟩

/-- A delivery leaves a leased session, or removes it late. -/
theorem Serves.delivery_agrees {delivery : Delivery} (alike : server.Alike other handle) (under : server.Under handle leased)
    (taken : Serves hashOf server e after) (taken' : Serves hashOf other e' after') (isDelivery : e.op = .voiceDelivery delivery)
    (sameOp : e.op = e'.op) (sameMoment : e.moment = e'.moment) : after.Agrees after' handle e.moment.stop := by
  by_cases late : leased.deadline ≤ e.moment.stop
  · -- whatever the clocks read at the session, no later message finds it
    have ends {server after : Server} {e : Handled} (taken : Serves hashOf server e after) (under : server.Under handle leased)
        (isDelivery : e.op = .voiceDelivery delivery) (late : leased.deadline ≤ e.moment.stop) :
        after.Past handle e.moment.stop := by
      rcases taken.under (by rw [isDelivery]; nofun) under with still | ⟨session, _⟩ | ⟨gone, _⟩
      · exact still.past late
      · rw [isDelivery] at session
        cases session
      · exact .of_none gone
    refine .inr ⟨ends taken under isDelivery late, ?_⟩
    rw [sameMoment] at late ⊢
    exact ends taken' (alike.under under) (sameOp.symm.trans isDelivery) late
  · obtain ⟨sent, served⟩ := taken
    obtain ⟨sent', served'⟩ := taken'
    rw [isDelivery] at served
    rw [← sameOp, isDelivery, ← sameMoment] at served'
    obtain ⟨info, found, isLeased⟩ := under
    rcases alike.cases with ⟨none, _⟩ | ⟨_, info', here, there, same⟩
    · cases none.symm.trans found
    cases found.symm.trans here
    have alive (n : Nat) : info.AliveAt (e.moment.read n) := by
      intro other member
      cases isLeased.symm.trans member
      have bound := (e.moment.within n).2
      omega
    have alive' (n : Nat) : info'.AliveAt (e.moment.read n) := fun other member => alive n other (same.leased.trans member)
    have result : server.voiceDelivery hashOf e.moment delivery = after := congrArg (fun made => made.2.1) served
    have result' : other.voiceDelivery hashOf e.moment delivery = after' := congrArg (fun made => made.2.1) served'
    obtain ⟨n, current, isInfo, delivered⟩ := voiceDelivery_lookup hashOf e.moment delivery found
    obtain ⟨n', current', isInfo', delivered'⟩ := voiceDelivery_lookup hashOf e.moment delivery there
    rw [result, deliverTo_lookup delivery isInfo (alive n)] at delivered
    rw [result', deliverTo_lookup delivery isInfo' (alive' n'), ← same.scope, ← same.inbox, ← same.epoch] at delivered'
    refine .inl ⟨.of_found delivered delivered' ?_, leased, _, delivered, ?_⟩
    · split
      · exact ⟨same.leased, rfl, rfl, rfl⟩
      · exact same
    · split <;> exact isLeased

end Agreeing

section Connecting
variable {hashOf : AttestationBody → String} {server other after after' : Server} {handle : String} {e e' : Handled}
  {timestamp : String} {now : Int} {drawn : Drawn} {peerId : String} {consumes : List String} {rawLease : Json}
  {lease lease' : Option Lease} {handle' : String}

theorem accept_connected (served : server.accept hashOf now timestamp drawn peerId consumes rawLease = (.connected handle lease, after)) :
    parseLease rawLease = .ok lease ∧ drawn.handle = handle ∧ after.connections.lookup handle = some {
      peerId, state := .connected, connectedAt := now, lastHeartbeat := now,
      matchedCapabilities := consumes.filter (· ∈ offers), leased := lease.map fun lease => ⟨lease, now + lease.ttlMs⟩,
      missedWindows := 0, voiceScope := none, voiceInbox := [], voiceEpoch := drawn.epoch } := by
  unfold Server.accept at served
  simp only at served
  split at served
  · cases served
  · split at served
    · cases served
    · split at served
      · cases served
      next accepted parsed =>
        cases served
        exact ⟨parsed, rfl, AList.lookup_insert _⟩

/-- Two servers that connect a session have it alike. -/
theorem accept_alike
    (served : server.accept hashOf now timestamp drawn peerId consumes rawLease = (.connected handle lease, after))
    (served' : other.accept hashOf now timestamp drawn peerId consumes rawLease = (.connected handle' lease', after')) :
    handle = handle' ∧ ∃ info, after.connections.lookup handle = some info ∧ after'.connections.lookup handle = some info ∧
      info.leased = lease.map fun lease => ⟨lease, now + lease.ttlMs⟩ := by
  obtain ⟨parsed, rfl, found⟩ := accept_connected served
  obtain ⟨parsed', rfl, found'⟩ := accept_connected served'
  cases parsed.symm.trans parsed'
  exact ⟨rfl, _, found, found', rfl⟩

theorem Serves.connect_agrees {lease lease' : Lease} (taken : Serves hashOf server e after) (taken' : Serves hashOf other e' after')
    (sameOp : e.op = e'.op) (sameMoment : e.moment = e'.moment) (connects : e.reply = .connected handle (some lease))
    (connects' : e'.reply = .connected handle (some lease')) : after.Agrees after' handle now := by
  obtain ⟨sent, served⟩ := taken
  obtain ⟨sent', served'⟩ := taken'
  obtain ⟨moment, op, reply⟩ := e
  obtain ⟨moment', op', reply'⟩ := e'
  cases sameOp
  cases sameMoment
  cases connects
  cases connects'
  have draws := handle_connected served
  have alike {info info' : ConnInfo} {leased : Leased} (found : after.connections.lookup handle = some info)
      (found' : after'.connections.lookup handle = some info') (same : info.Alike info') (isLeased : info.leased = some leased) :
      after.Agrees after' handle now := .inl ⟨.of_found found found' same, leased, info, found, isLeased⟩
  cases op with
  | connect manifest drawn =>
    simp only [Server.handle] at served served'
    split at served
    next peerId consumes valid =>
      rw [valid] at served'
      simp only at served'
      generalize accepts : Server.accept hashOf _ _ _ _ _ _ server = result at served
      generalize accepts' : Server.accept hashOf _ _ _ _ _ _ other = result' at served'
      obtain ⟨_, _⟩ := result
      obtain ⟨_, _⟩ := result'
      cases served
      cases served'
      obtain ⟨_, info, found, found', isLeased⟩ := accept_alike accepts accepts'
      exact alike found found' ⟨rfl, rfl, rfl, rfl⟩ isLeased
    next => cases served
  | voiceConnect auth scope rawLease requestDeadline room drawn =>
    simp only [Server.handle, Server.voiceConnect] at served served'
    split at served
    · cases served
    next allowed =>
      rw [allowed] at served'
      simp only at served'
      split at served
      next given accepted next joined =>
        split at served'
        next given' accepted' next' joined' =>
          obtain ⟨rfl, info, found, found', isLeased⟩ := accept_alike joined joined'
          rw [found] at served
          rw [found'] at served'
          cases served
          cases served'
          exact alike (AList.lookup_insert _) (AList.lookup_insert _) ⟨rfl, rfl, rfl, rfl⟩ isLeased
        next => cases served'
      next => cases served
  | _ => cases draws

end Connecting

section Visible
variable {hashOf : AttestationBody → String} {server other after after' : Server} {handle : String} {e e' : Handled} {now : Int}

/-- A message on a session that two servers have alike is answered alike. -/
theorem Serves.session_alike (alike : server.Alike other handle) (taken : Serves hashOf server e after)
    (taken' : Serves hashOf other e' after') (sameOp : e.op = e'.op) (sameMoment : e.moment = e'.moment)
    (on : e.op.session = some handle) : after.Alike after' handle ∧ e.reply = e'.reply := by
  obtain ⟨sent, served⟩ := taken
  obtain ⟨sent', served'⟩ := taken'
  obtain ⟨moment, op, reply⟩ := e
  obtain ⟨moment', op', reply'⟩ := e'
  cases sameOp
  cases sameMoment
  have sameScope : server.voiceScoped handle = other.voiceScoped handle := by
    rcases alike.cases with ⟨gone, gone'⟩ | ⟨_, _, found, found', same⟩
    · simp only [Server.voiceScoped, gone, gone']
    · simp only [Server.voiceScoped, found, found', Option.any_some, same.scope]
  have answers {result result' : Reply × Server × Option Delivery} (made : result = (reply, after, sent))
      (made' : result' = (reply', after', sent')) (same : result.1 = result'.1 ∧ result.2.1.Alike result'.2.1 handle) :
      after.Alike after' handle ∧ reply = reply' := by
    cases made
    cases made'
    exact same.symm
  refine answers served served' ?_
  cases op with
  | disconnect =>
    cases on
    simp only [Server.handle, sameScope]
    split
    · exact ⟨rfl, alike⟩
    · exact disconnectSession_alike alike
  | heartbeat =>
    cases on
    simp only [Server.handle, sameScope]
    split
    · exact ⟨rfl, alike⟩
    · exact heartbeatSession_alike alike
  | voiceOperation =>
    cases on
    exact voiceOperation_alike alike
  | _ => cases on

/-- The step lemma: servers that agree do so across a message that both handle, and answer it alike. -/
theorem Server.Agrees.both (agrees : server.Agrees other handle now) (taken : Serves hashOf server e after)
    (taken' : Serves hashOf other e' after') (sameOp : e.op = e'.op) (sameMoment : e.moment = e'.moment)
    (late : now ≤ e.moment.start) (visible : e.op ≠ .checkHeartbeats)
    (leases : e.op.draws = some handle → ∃ lease lease', e.reply = .connected handle (some lease) ∧
      e'.reply = .connected handle (some lease')) :
    after.Agrees after' handle e.moment.stop ∧ (e.op.session = some handle → e.reply = e'.reply) := by
  by_cases drawn : e.op.draws = some handle
  · obtain ⟨lease, lease', connects, connects'⟩ := leases drawn
    refine ⟨taken.connect_agrees taken' sameOp sameMoment connects connects', fun on => ?_⟩
    cases op : e.op <;> simp [op, Op.draws, Op.session] at drawn on
  have drawn' : e'.op.draws ≠ some handle := sameOp ▸ drawn
  rcases agrees with ⟨alike, leased, under⟩ | ⟨past, past'⟩
  · have there : (∃ leased, after.Under handle leased) ∨ after.connections.lookup handle = none := by
      rcases taken.under drawn under with kept | ⟨_, _, _, _, kept⟩ | ⟨gone, _⟩
      · exact .inl ⟨_, kept⟩
      · exact .inl ⟨_, kept⟩
      · exact .inr gone
    by_cases on : e.op.session = some handle
    · obtain ⟨still, same⟩ := taken.session_alike alike taken' sameOp sameMoment on
      exact ⟨still.agrees there, fun _ => same⟩
    · refine ⟨?_, fun here => absurd here on⟩
      by_cases isDelivery : ∃ delivery, e.op = .voiceDelivery delivery
      · obtain ⟨delivery, isDelivery⟩ := isDelivery
        exact taken.delivery_agrees alike under taken' isDelivery sameOp sameMoment
      · have kept := taken.elsewhere drawn on visible fun delivery same => isDelivery ⟨delivery, same⟩
        have kept' := taken'.elsewhere drawn' (sameOp ▸ on) (sameOp ▸ visible)
          fun delivery same => isDelivery ⟨delivery, sameOp.trans same⟩
        have still : after.Alike after' handle := by
          rw [Server.Alike, kept, kept']
          exact alike
        exact still.agrees there
  · have late' : now ≤ e'.moment.start := sameMoment ▸ late
    have order : now ≤ e.moment.stop := late.trans e.moment.start_le_stop
    refine ⟨.inr ⟨(taken.past drawn past late).mono order, (taken'.past drawn' past' late').mono order⟩, fun on => ?_⟩
    rw [taken.refused past late on, taken'.refused past' late' (sameOp ▸ on)]

end Visible

def Op.isSweep : Op → Bool
  | .checkHeartbeats => true
  | _ => false

/-- What is handled besides the periodic sweeps. -/
def unswept (history : List Handled) : List Handled := history.filter fun e => !e.op.isSweep

def Handled.message (e : Handled) : Moment × Op := (e.moment, e.op)

/-- A session was connected under a lease. -/
def Leases (history : List Handled) (handle : String) : Prop :=
  ∃ e ∈ history, ∃ lease, e.reply = .connected handle (some lease)

section Runs
variable {hashOf : AttestationBody → String} {history history' later : List Handled} {server server' last : Server}
  {handle : String} {e : Handled}

/-- A message comes after those handled before, and connects a session under a lease if it is to connect that one. -/
def Timed (hashOf : AttestationBody → String) (handle : String) (before : Server × List Handled) (e : Handled)
    (after : Server × List Handled) : Prop :=
  Serves hashOf before.1 e after.1 ∧ after.2 = before.2 ++ [e] ∧ (∀ past ∈ before.2, past.moment.stop ≤ e.moment.start) ∧
    (e.op.draws = some handle → ∃ lease, e.reply = .connected handle (some lease))

theorem run_timed (run : Run (Serves hashOf) .init history server) (clocked : Clocked history)
    (leases : ∀ e ∈ history, e.op.draws = some handle → ∃ lease, e.reply = .connected handle (some lease)) :
    Run (Timed hashOf handle) (.init, []) history (server, history) := by
  induction run with
  | start => exact .start
  | @next earlier current e after _ taken ih =>
    obtain ⟨before, _, apart⟩ := List.pairwise_append.mp clocked
    refine (ih before fun e member => leases e (List.mem_append_left _ member)).next ⟨taken, rfl, fun past member => ?_, ?_⟩
    · exact apart past member e List.mem_cons_self
    · exact leases e (List.mem_append_right _ List.mem_cons_self)

theorem draws_unique (distinct : (drawnHandles history).Nodup) {one other : Handled} (first : one ∈ history) (second : other ∈ history)
    (draws : one.op.draws = some handle) (draws' : other.op.draws = some handle) : one = other := by
  have differ := List.pairwise_filterMap.mp distinct
  have forward : history.Pairwise fun one other => one.op.draws = some handle → other.op.draws = some handle → one = other :=
    differ.imp fun apart draws draws' => absurd rfl (apart handle draws handle draws')
  have backward : history.Pairwise fun one other => other.op.draws = some handle → one.op.draws = some handle → other = one :=
    differ.imp fun apart draws' draws => absurd rfl (apart handle draws handle draws')
  exact List.Pairwise.forall_of_forall_of_flip (fun _ _ _ _ => rfl) forward backward first second draws draws'

/-- The connection of a session is the one message that draws its id. -/
theorem Leases.connects (run : Run (Serves hashOf) .init history server) (distinct : (drawnHandles history).Nodup)
    (leases : Leases history handle) : ∀ e ∈ history, e.op.draws = some handle → ∃ lease, e.reply = .connected handle (some lease) := by
  obtain ⟨first, among, lease, connects⟩ := leases
  have drawn : first.op.draws = some handle := by
    obtain ⟨before, after, rfl⟩ := List.append_of_mem among
    obtain ⟨middle, _, rest⟩ := run.split
    obtain ⟨_, ⟨sent, served⟩, _⟩ := Run.cons_iff.mp rest
    exact handle_connected (connects ▸ served)
  intro e member draws
  cases draws_unique distinct member among draws drawn
  exact ⟨lease, connects⟩

theorem drawnHandles_unswept (history : List Handled) : drawnHandles (unswept history) = drawnHandles history := by
  rw [drawnHandles, unswept, List.filterMap_filter, drawnHandles]
  refine List.filterMap_congr fun e _ => ?_
  cases e.op <;> rfl

theorem drawnHandles_message (history : List Handled) :
    drawnHandles history = (history.map Handled.message).filterMap fun message => message.2.draws := by
  rw [List.filterMap_map]
  rfl

/-- The run lemma: wherever the sweeps fall, the messages on a leased session are answered alike. -/
theorem sweeps_unseen (run : Run (Serves hashOf) .init history server) (run' : Run (Serves hashOf) .init history' server')
    (clocked : Clocked history) (clocked' : Clocked history') (distinct : (drawnHandles history).Nodup)
    (same : (unswept history).map Handled.message = (unswept history').map Handled.message)
    (leases : Leases history handle) (leases' : Leases history' handle) :
    List.Forall₂ (fun e e' => e.op.session = some handle → e.reply = e'.reply) (unswept history) (unswept history') := by
  have distinct' : (drawnHandles history').Nodup := by
    rw [← drawnHandles_unswept, drawnHandles_message, ← same, ← drawnHandles_message, drawnHandles_unswept]
    exact distinct
  have timed := run_timed run clocked (leases.connects run distinct)
  have timed' := run_timed run' clocked' (leases'.connects run' distinct')
  let agree (before other : Server × List Handled) : Prop :=
    ∀ now, (∀ past ∈ before.2 ++ other.2, past.moment.stop ≤ now) → before.1.Agrees other.1 handle now
  have symmetric {before other : Server × List Handled} (agrees : agree before other) : agree other before :=
    fun now bound => (agrees now fun past member => bound past (by simpa [or_comm] using member)).symm
  have hidden {before other : Server × List Handled} {e : Handled} {after : Server × List Handled} (agrees : agree before other)
      (sweep : (!e.op.isSweep) = false) (taken : Timed hashOf handle before e after) : agree after other := by
    intro now bound
    obtain ⟨served, appended, _⟩ := taken
    have isSweep : e.op = .checkHeartbeats := by
      generalize e.op = op at sweep
      cases op <;> simp [Op.isSweep] at sweep ⊢
    rw [appended] at bound
    refine (agrees now fun past member => bound past ?_).sweep served isSweep (bound e (by simp))
    rcases List.mem_append.mp member with here | there <;> simp [*]
  have both {before other : Server × List Handled} {e e' : Handled} {after after' : Server × List Handled}
      (agrees : agree before other) (visible : (!e.op.isSweep) = true) (sameMessage : e.message = e'.message) (taken : Timed hashOf handle before e after)
      (taken' : Timed hashOf handle other e' after') :
      agree after after' ∧ (e.op.session = some handle → e.reply = e'.reply) := by
    obtain ⟨served, appended, late, connects⟩ := taken
    obtain ⟨served', appended', late', connects'⟩ := taken'
    have sameMoment : e.moment = e'.moment := congrArg Prod.fst sameMessage
    have sameOp : e.op = e'.op := congrArg Prod.snd sameMessage
    have still : before.1.Agrees other.1 handle e.moment.start := agrees _ fun past member => by
      rcases List.mem_append.mp member with here | there
      · exact late past here
      · exact sameMoment ▸ late' past there
    have shown : e.op ≠ .checkHeartbeats := by
      intro sweep
      rw [sweep] at visible
      cases visible
    obtain ⟨agrees', alike⟩ := still.both served served' sameOp sameMoment (le_refl _) shown fun draws => by
      obtain ⟨lease, connected⟩ := connects draws
      obtain ⟨lease', connected'⟩ := connects' (sameOp ▸ draws)
      exact ⟨lease, lease', connected, connected'⟩
    exact ⟨fun now bound => agrees'.mono (bound e (by simp [appended])), alike⟩
  have start : agree (.init, []) (.init, []) := fun now _ => .inr ⟨.of_none rfl, .of_none rfl⟩
  have seen : List.Forall₂ (fun e e' : Handled => e.message = e'.message) (unswept history) (unswept history') := by
    have each : List.Forall₂ Eq ((unswept history).map Handled.message) ((unswept history').map Handled.message) := by
      rw [same, List.forall₂_eq_eq_eq]
    rwa [List.forall₂_map_left_iff, List.forall₂_map_right_iff] at each
  exact (Run.alike (fun e : Handled => !e.op.isSweep) agree (fun e e' => e.message = e'.message)
    (fun e e' => e.op.session = some handle → e.reply = e'.reply) hidden
    (fun agrees sweep taken => symmetric (hidden (symmetric agrees) sweep taken)) both start timed timed' seen).2

/-- In every run whose clock does not go back, and in which each connection draws an id of its own: a soft lease is never
extended; a session that is gone or past its deadline is not found by any message that starts later, and does not
come back; a hard lease moves with each heartbeat that succeeds, and its session goes only on request or once the
deadline of its lease is over; and what a leased session is answered does not depend on where the sweeps fall. -/
theorem leases_stay_expired (run : Run (Serves hashOf) .init history server) (onward : Run (Serves hashOf) server later last)
    (clocked : Clocked (history ++ later)) (distinct : (drawnHandles (history ++ later)).Nodup)
    (known : handle ∈ drawnHandles history) :
    (∀ leased, server.Under handle leased → leased.lease.mode = .soft →
      last.Under handle leased ∨ last.connections.lookup handle = none) ∧
    (∀ now, server.Past handle now → (∀ e ∈ later, now ≤ e.moment.start) →
      (∀ e ∈ later, e.op.session = some handle → e.reply = .error .notFound) ∧ last.Past handle now) ∧
    (∀ leased, server.Under handle leased → leased.lease.mode = .hard →
      (∀ e after, Serves hashOf server e after → e.op.session = some handle → e.op.isHeartbeat = true → e.reply = .ok →
        ∃ n, after.Under handle ⟨leased.lease, e.moment.read n + leased.lease.ttlMs⟩) ∧
      (last.connections.lookup handle = none → EndsLate hashOf server later handle leased.lease)) ∧
    ∀ history' server', Run (Serves hashOf) .init history' server' → Clocked history' →
      (unswept history).map Handled.message = (unswept history').map Handled.message →
      Leases history handle → Leases history' handle →
      List.Forall₂ (fun e e' => e.op.session = some handle → e.reply = e'.reply) (unswept history) (unswept history') := by
  have split : drawnHandles (history ++ later) = drawnHandles history ++ drawnHandles later := List.filterMap_append
  rw [split] at distinct
  obtain ⟨before, _, apart⟩ := List.nodup_append.mp distinct
  have other : ∀ e ∈ later, e.op.draws ≠ some handle := fun e member draws =>
    apart handle known handle (List.mem_filterMap.mpr ⟨e, member, draws⟩) rfl
  refine ⟨fun leased under soft => run_soft onward other under soft, fun now past late => run_past onward other past late,
    fun leased under hard => ⟨fun e after taken on beats ok => taken.refreshes under hard on beats ok, fun gone => ?_⟩,
    fun history' server' run' clocked' same leases leases' =>
      sweeps_unseen run run' (List.pairwise_append.mp clocked).1 clocked' before same leases leases'⟩
  rcases run_reaped onward other under with ⟨_, info, found, _⟩ | ⟨_, ends⟩
  · cases gone.symm.trans found
  · exact ends

end Runs

section Sample

/-- The soft lease of the session runs out at 60, before its heartbeat at 70. -/
def expiring (sweeps : List (Moment × Op)) : List (Moment × Op) := echoing ++ sweeps ++ [(.still 70, .heartbeat "one")]

theorem clocked_iff {history : List Handled} : Clocked history ↔
    (history.map Handled.message).Pairwise fun earlier later => earlier.1.stop ≤ later.1.start := by
  rw [List.pairwise_map]
  rfl

theorem serveAll_message (hashOf : AttestationBody → String) (messages : List (Moment × Op)) (server : Server) :
    (serveAll hashOf messages server).1.map Handled.message = messages := by
  induction messages generalizing server with
  | nil => rfl
  | cons message rest ih => exact congrArg (message :: ·) (ih _)

theorem leases_stay_expired_echoing :
    (∀ e ∈ (serveAll (·.event) [(.still 80, .disconnect "one")] (serveAll (·.event) (expiring []) .init).2).1,
      e.op.session = some "one" → e.reply = .error .notFound) ∧
    List.Forall₂ (fun e e' => e.op.session = some "one" → e.reply = e'.reply)
      (unswept (serveAll (·.event) (expiring []) .init).1)
      (unswept (serveAll (·.event) (expiring [(.still 65, .checkHeartbeats)]) .init).1) := by
  have clocked : Clocked ((serveAll (·.event) (expiring []) .init).1 ++
      (serveAll (·.event) [(.still 80, .disconnect "one")] (serveAll (·.event) (expiring []) .init).2).1) := by
    rw [clocked_iff, List.map_append, serveAll_message, serveAll_message]
    decide
  have clocked' : Clocked (serveAll (·.event) (expiring [(.still 65, .checkHeartbeats)]) .init).1 := by
    rw [clocked_iff, serveAll_message]
    decide
  have leases (sweeps : List (Moment × Op)) : Leases (serveAll (·.event) (expiring sweeps) .init).1 "one" :=
    ⟨_, List.mem_cons_self, _, rfl⟩
  have known : "one" ∈ drawnHandles (serveAll (·.event) (expiring []) .init).1 := by decide
  have gone : (serveAll (·.event) (expiring []) .init).2.connections.lookup "one" = none := by decide
  obtain ⟨_, refused, _, unseen⟩ := leases_stay_expired (serveAll_run (expiring []) .init)
    (serveAll_run [(.still 80, .disconnect "one")] _) clocked (by decide) known
  have late : ∀ e ∈ (serveAll (·.event) [(.still 80, .disconnect "one")] (serveAll (·.event) (expiring []) .init).2).1,
      80 ≤ e.moment.start := by
    intro e member
    cases List.mem_singleton.mp member
    exact le_refl _
  exact ⟨(refused 80 (.of_none gone) late).1, unseen _ _ (serveAll_run _ _) clocked' rfl (leases []) (leases _)⟩

end Sample

end Burble.Groove
