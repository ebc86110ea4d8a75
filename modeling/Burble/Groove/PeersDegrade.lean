import Burble.Fallible
import Burble.Groove.HealthMesh

namespace Burble.Groove

theorem nodup_eraseDups {α : Type} [DecidableEq α] (list : List α) : list.eraseDups.Nodup := by
  match list with
  | [] => exact List.nodup_nil
  | first :: rest =>
    rw [List.eraseDups_cons]
    refine List.nodup_cons.mpr ⟨fun member => ?_, nodup_eraseDups _⟩
    have kept := (List.mem_filter.mp (List.mem_eraseDups.mp member)).2
    simp at kept
termination_by list.length
decreasing_by exact Nat.lt_succ_of_le (List.length_filter_le _ _)

theorem peerKey_inj {text text' : String} {port port' : Nat} (same : peerKey text port = peerKey text' port') :
    text = text' ∧ port = port' := by
  have texts := congrArg String.toList same
  simp only [peerKey, String.toList_append, List.append_assoc] at texts
  obtain ⟨fronts, ports⟩ := numbered_inj (by decide : ':'.isDigit = false) texts
  exact ⟨String.toList_inj.mp fronts, ports⟩

/-- A peer that was probed is under the key of its service and port. -/
def ProbedPeer.Named (key : String) (peer : ProbedPeer) : Prop :=
  ∃ text, peer.serviceId.toText = some text ∧ key = peerKey text peer.port

namespace HealthMesh

/-- Every peer that was probed is up or degraded, under its key, and the only one on its port. -/
structure WellKept (mesh : HealthMesh) : Prop where
  named : ∀ key peer, mesh.peers.lookup key = some (.probed peer) → peer.Named key ∧ peer.status ≠ .down
  single : ∀ key key' peer peer', mesh.peers.lookup key = some (.probed peer) →
    mesh.peers.lookup key' = some (.probed peer') → peer.port = peer'.port → key = key'

variable {host : MeshHost} {mesh : HealthMesh} {nowMs : Int} {acc : FiniteMap String MeshPeer} {port : Nat}
  {key : String} {peer : ProbedPeer} {entry : MeshPeer} {result : TaskResult} {results : Nat → TaskResult}
  {dynamicPorts : List Nat}

theorem existing_some (found : mesh.existing port = some (key, peer)) :
    mesh.peers.lookup key = some (.probed peer) ∧ peer.port = port := by
  obtain ⟨⟨other, entry⟩, member, picked⟩ := List.exists_of_findSome?_eq_some found
  cases entry with
  | reported => cases picked
  | probed prev =>
    simp only [Option.ite_none_right_eq_some, Option.some.injEq, Prod.mk.injEq] at picked
    obtain ⟨here, rfl, rfl⟩ := picked
    exact ⟨FiniteMap.mem_toList.mp member, here⟩

theorem existing_none (none : mesh.existing port = none) (there : mesh.peers.lookup key = some (.probed peer)) :
    peer.port ≠ port := by
  have skipped := List.findSome?_eq_none_iff.mp none _ (FiniteMap.mem_toList.mpr there)
  simpa using skipped

theorem WellKept.existing_eq (kept : mesh.WellKept) (there : mesh.peers.lookup key = some (.probed peer)) :
    mesh.existing peer.port = some (key, peer) := by
  cases found : mesh.existing peer.port with
  | none => exact absurd rfl (existing_none found there)
  | some pair =>
    obtain ⟨here, port⟩ := existing_some found
    cases kept.single _ _ _ _ here there port
    cases here.symm.trans there
    rfl

/-- What the result for a port leaves in the mesh. -/
def left (mesh : HealthMesh) (nowMs : Int) (port : Nat) : TaskResult → Option (String × MeshPeer)
  | .finished answer =>
    match probePeer port answer with
    | .ok info =>
      info.serviceId.toText.map fun text =>
        (peerKey text port, .probed ⟨info.serviceId, port, .up, nowMs, info.capabilities⟩)
    | .error _ =>
      match mesh.existing port with
      | none => none
      | some (key, prev) => if prev.status = .up then some (key, .probed { prev with status := .degraded }) else none
  | .killed | .exited => none

theorem left_named (kept : mesh.WellKept) (stays : mesh.left nowMs port result = some (key, entry)) :
    ∃ peer, entry = .probed peer ∧ peer.Named key ∧ peer.status ≠ .down ∧ peer.port = port := by
  cases result with
  | killed => cases stays
  | exited => cases stays
  | finished answer =>
    rw [left] at stays
    split at stays
    next info _ =>
      obtain ⟨text, read, same⟩ := Option.map_eq_some_iff.mp stays
      cases same
      exact ⟨_, rfl, ⟨text, read, rfl⟩, nofun, rfl⟩
    next =>
      split at stays
      next => cases stays
      next found =>
        simp only [Option.ite_none_right_eq_some, Option.some.injEq, Prod.mk.injEq] at stays
        obtain ⟨_, rfl, rfl⟩ := stays
        obtain ⟨there, here⟩ := existing_some found
        exact ⟨_, rfl, (kept.named _ _ there).1, nofun, here⟩

/-- The key of whatever a port leaves is the port's. -/
theorem left_key (kept : mesh.WellKept) (stays : mesh.left nowMs port result = some (key, entry)) :
    ∃ text, key = peerKey text port := by
  obtain ⟨peer, _, ⟨text, _, same⟩, _, rfl⟩ := left_named kept stays
  exact ⟨text, same⟩

theorem gather_none (crashes : ¬ result.Readable port) (acc : FiniteMap String MeshPeer) :
    mesh.gather nowMs acc port result = none := by
  cases result with
  | killed => exact absurd trivial crashes
  | exited => rfl
  | finished answer =>
    rw [TaskResult.Readable] at crashes
    push Not at crashes
    obtain ⟨info, answered, unread⟩ := crashes
    rw [gather, answered]
    exact Option.bind_eq_none_iff.mpr fun text read => by rw [unread] at read; cases read

/-- A result adds what it leaves to peers on other ports, and changes nothing else. -/
theorem gather_spec (nowMs : Int) (kept : mesh.WellKept) (readable : result.Readable port)
    (fresh : ∀ text, acc.lookup (peerKey text port) = none) :
    ∃ after, mesh.gather nowMs acc port result = some after ∧ ∀ key entry, after.lookup key = some entry ↔
      acc.lookup key = some entry ∨ mesh.left nowMs port result = some (key, entry) := by
  have inserted (text : String) (added : MeshPeer) (key : String) (entry : MeshPeer) :
      (acc.insert (peerKey text port) added).lookup key = some entry ↔
        acc.lookup key = some entry ∨ some (peerKey text port, added) = some (key, entry) := by
    rw [FiniteMap.lookup_insert_if, Option.some.injEq, Prod.mk.injEq]
    split
    next same =>
      subst same
      simp [fresh text]
    next different => simp [Ne.symm different]
  have same (key : String) (entry : MeshPeer) :
      acc.lookup key = some entry ↔ acc.lookup key = some entry ∨ none = some (key, entry) := by simp
  cases result with
  | exited => exact absurd readable id
  | killed => exact ⟨acc, rfl, same⟩
  | finished answer =>
    rw [gather, left]
    cases answered : probePeer port answer with
    | ok info =>
      obtain ⟨text, read⟩ := Option.ne_none_iff_exists'.mp (readable info answered)
      simp only [read]
      exact ⟨_, rfl, inserted text _⟩
    | error reason =>
      cases found : mesh.existing port with
      | none => exact ⟨acc, rfl, same⟩
      | some pair =>
        obtain ⟨key, prev⟩ := pair
        obtain ⟨there, rfl⟩ := existing_some found
        obtain ⟨⟨text, read, rfl⟩, alive⟩ := kept.named _ _ there
        cases status : prev.status with
        | down => exact absurd status alive
        | up =>
          simp only [status, if_true]
          exact ⟨_, rfl, inserted text _⟩
        | degraded =>
          simp only [status, read]
          refine ⟨_, rfl, fun key entry => ?_⟩
          rw [FiniteMap.lookup_erase_if]
          split
          next erased =>
            subst erased
            simp [fresh text]
          next => exact same key entry

/-- The results of different ports, one after another. -/
theorem gather_fold (nowMs : Int) (acc : FiniteMap String MeshPeer) (kept : mesh.WellKept) {ports : List Nat}
    (nodup : ports.Nodup) (readable : ∀ port ∈ ports, (results port).Readable port)
    (fresh : ∀ port ∈ ports, ∀ text, acc.lookup (peerKey text port) = none) :
    ∃ after, ports.foldlM (fun acc port => mesh.gather nowMs acc port (results port)) acc = some after ∧
      ∀ key entry, after.lookup key = some entry ↔
        acc.lookup key = some entry ∨ ∃ port ∈ ports, mesh.left nowMs port (results port) = some (key, entry) := by
  induction ports generalizing acc with
  | nil => exact ⟨acc, rfl, by simp⟩
  | cons first rest ih =>
    obtain ⟨apart, nodup⟩ := List.nodup_cons.mp nodup
    obtain ⟨middle, gathered, found⟩ :=
      gather_spec nowMs kept (readable first List.mem_cons_self) (fresh first List.mem_cons_self)
    have freshRest : ∀ port ∈ rest, ∀ text, middle.lookup (peerKey text port) = none := by
      intro port member text
      refine Option.eq_none_iff_forall_ne_some.mpr fun entry there => ?_
      rcases (found _ _).mp there with before | left
      · rw [fresh port (List.mem_cons_of_mem _ member)] at before
        cases before
      · obtain ⟨other, same⟩ := left_key kept left
        exact apart ((peerKey_inj same).2 ▸ member)
    obtain ⟨after, folded, foundAll⟩ :=
      ih middle nodup (fun port member => readable port (List.mem_cons_of_mem _ member)) freshRest
    refine ⟨after, by rw [List.foldlM_cons, gathered]; exact folded, fun key entry => ?_⟩
    rw [foundAll, found, or_assoc, List.exists_mem_cons_iff]

theorem nodup_allPorts (mesh : HealthMesh) (dynamicPorts : List Nat) : (mesh.allPorts dynamicPorts).Nodup :=
  nodup_eraseDups _

/-- A cycle whose results are all readable leaves in the mesh what its ports leave. -/
theorem doProbe_spec (nowMs : Int) (kept : mesh.WellKept)
    (readable : ∀ port ∈ mesh.allPorts dynamicPorts, (results port).Readable port) :
    ∃ after, mesh.doProbe dynamicPorts results nowMs = some after ∧ ∀ key entry, after.peers.lookup key = some entry ↔
      ∃ port ∈ mesh.allPorts dynamicPorts, mesh.left nowMs port (results port) = some (key, entry) := by
  obtain ⟨peers, folded, found⟩ :=
    gather_fold nowMs ∅ kept (mesh.nodup_allPorts dynamicPorts) readable fun _ _ _ => AList.lookup_empty _
  refine ⟨{ mesh with peers := peers, lastProbeMs := nowMs }, by rw [doProbe, folded]; rfl, fun key entry => ?_⟩
  rw [found, AList.lookup_empty]
  simp

theorem doProbe_none (member : port ∈ mesh.allPorts dynamicPorts) (crashes : ¬ (results port).Readable port) :
    mesh.doProbe dynamicPorts results nowMs = none := by
  rw [doProbe, Fallible.foldlM_none member (gather_none crashes)]
  rfl

theorem readable_of_doProbe {after : HealthMesh} (alive : mesh.doProbe dynamicPorts results nowMs = some after) :
    ∀ port ∈ mesh.allPorts dynamicPorts, (results port).Readable port := by
  intro port member
  by_contra crashes
  rw [doProbe_none member crashes] at alive
  cases alive

theorem wellKept_doProbe {after : HealthMesh} (kept : mesh.WellKept)
    (alive : mesh.doProbe dynamicPorts results nowMs = some after) : after.WellKept := by
  obtain ⟨_, same, found⟩ := doProbe_spec nowMs kept (readable_of_doProbe alive)
  cases alive.symm.trans same
  have source {key : String} {peer : ProbedPeer} (there : after.peers.lookup key = some (.probed peer)) :
      (peer.Named key ∧ peer.status ≠ .down) ∧
        mesh.left nowMs peer.port (results peer.port) = some (key, .probed peer) := by
    obtain ⟨port, _, left⟩ := (found _ _).mp there
    obtain ⟨_, same, named, alive, rfl⟩ := left_named kept left
    cases same
    exact ⟨⟨named, alive⟩, left⟩
  refine ⟨fun key peer there => (source there).1, fun key key' peer peer' there there' port => ?_⟩
  have left := (source there).2
  rw [port, (source there').2] at left
  cases left
  rfl

/-- A report that is calm puts its peer into the mesh, and another crashes the server. -/
theorem report_spec (host : MeshHost) (mesh : HealthMesh) (peerId : String) (status metadata : ReportTerm)
    (nowMs : Int) :
    (MeshEvent.reportPeerStatus peerId status metadata nowMs).Calm host mesh ∧ (∃ entry,
      mesh.reportPeerStatus host peerId status metadata nowMs =
        some { mesh with peers := mesh.peers.insert peerId (.reported entry) }) ∨
    ¬ (MeshEvent.reportPeerStatus peerId status metadata nowMs).Calm host mesh ∧
      mesh.reportPeerStatus host peerId status metadata nowMs = none := by
  rw [MeshEvent.Calm, reportPeerStatus]
  cases metadata.field host "type" with
  | none => exact .inr ⟨fun calm => calm.1 rfl, rfl⟩
  | some type =>
    cases host.debugLogged with
    | false => exact .inl ⟨⟨nofun, nofun⟩, _, rfl⟩
    | true =>
      cases status.toText host with
      | none => exact .inr ⟨fun calm => calm.2 rfl rfl, rfl⟩
      | some text => exact .inl ⟨⟨nofun, nofun⟩, _, rfl⟩

theorem lookup_report {reported : ReportedPeer} {peerId : String} {found : MeshPeer}
    (there : (mesh.peers.insert peerId (.reported reported)).lookup key = some found) :
    (key = peerId ∧ found = .reported reported) ∨ mesh.peers.lookup key = some found := by
  rw [FiniteMap.lookup_insert_if] at there
  split at there
  next same =>
    cases there
    exact .inl ⟨same, rfl⟩
  next => exact .inr there

theorem wellKept_insert (kept : mesh.WellKept) (peerId : String) (reported : ReportedPeer) :
    WellKept { mesh with peers := mesh.peers.insert peerId (.reported reported) } := by
  have before {key : String} {peer : ProbedPeer}
      (there : (mesh.peers.insert peerId (.reported reported)).lookup key = some (.probed peer)) :
      mesh.peers.lookup key = some (.probed peer) :=
    (lookup_report there).resolve_left fun same => nomatch same.2
  exact ⟨fun key peer there => kept.named key peer (before there),
    fun key key' peer peer' there there' port => kept.single key key' peer peer' (before there) (before there') port⟩

theorem wellKept_init : init.WellKept where
  named key peer there := by
    rw [init, AList.lookup_empty] at there
    cases there
  single key key' peer peer' there := by
    rw [init, AList.lookup_empty] at there
    cases there

theorem wellKept_step {before after : HealthMesh} {event : MeshEvent} (kept : before.WellKept)
    (taken : before.Step host event after) : after.WellKept := by
  cases taken
  cases handled : before.handle host event with
  | none => exact wellKept_init
  | some after =>
    cases event with
    | probe dynamicPorts results nowMs => exact wellKept_doProbe kept handled
    | reportPeerStatus peerId status metadata timestampMs =>
      rcases report_spec host before peerId status metadata timestampMs with ⟨_, entry, same⟩ | ⟨_, crashed⟩
      · cases handled.symm.trans same
        exact wellKept_insert kept peerId entry
      · cases handled.symm.trans crashed

theorem left_sameName (stays : mesh.left nowMs port result = some (key, entry)) : result.SameName key port := by
  cases result with
  | killed => cases stays
  | exited => cases stays
  | finished answer =>
    intro info text answered read
    rw [left, answered] at stays
    simp only [read] at stays
    cases stays
    rfl

/-- A peer whose port is answered for under its name stays, unless it is degraded and its probe fails again. -/
theorem left_cases (nowMs : Int) (kept : mesh.WellKept) (there : mesh.peers.lookup key = some (.probed peer))
    (readable : result.Readable peer.port) (sameName : result.SameName key peer.port) :
    (∃ entry, mesh.left nowMs peer.port result = some (key, entry)) ∨
      peer.status = .degraded ∧
        ∃ answer reason, result = .finished answer ∧ probePeer peer.port answer = .error reason := by
  cases result with
  | killed => exact absurd sameName id
  | exited => exact absurd sameName id
  | finished answer =>
    rw [left]
    cases answered : probePeer peer.port answer with
    | ok info =>
      obtain ⟨text, read⟩ := Option.ne_none_iff_exists'.mp (readable info answered)
      have key := sameName info text answered read
      simp only [read, Option.map_some, key]
      exact .inl ⟨_, rfl⟩
    | error reason =>
      rw [kept.existing_eq there]
      cases status : peer.status with
      | up =>
        simp only [status, if_true]
        exact .inl ⟨_, rfl⟩
      | degraded => exact .inr ⟨rfl, answer, reason, rfl, answered⟩
      | down => exact absurd status (kept.named _ _ there).2

theorem calm_probe (kept : mesh.WellKept) {after : HealthMesh}
    (right : DegradesFirst host mesh (.probe dynamicPorts results nowMs) after) :
    (MeshEvent.probe dynamicPorts results nowMs).Calm host mesh := by
  have readable := readable_of_doProbe right.alive
  obtain ⟨_, same, found⟩ := doProbe_spec nowMs kept readable
  cases right.alive.symm.trans same
  refine ⟨readable, fun key peer there => ?_, fun key peer there => ?_⟩
  · obtain ⟨port, _, left⟩ := (found _ _).mp (right.reported key peer there nofun)
    obtain ⟨_, probed, _⟩ := left_named kept left
    cases probed
  · cases later : after.peers.lookup key with
    | none =>
      obtain ⟨_, member, answer, reason, finished, failed⟩ := right.probed key peer there later
      rw [finished]
      exact ⟨member, fun info text answered => by rw [failed] at answered; cases answered⟩
    | some entry =>
      obtain ⟨port, member, left⟩ := (found _ _).mp later
      obtain ⟨⟨_, _, name⟩, _⟩ := kept.named _ _ there
      obtain ⟨_, other⟩ := left_key kept left
      cases (peerKey_inj (name.symm.trans other)).2
      exact ⟨member, left_sameName left⟩

theorem degradesFirst_probe (kept : mesh.WellKept)
    (calm : (MeshEvent.probe dynamicPorts results nowMs).Calm host mesh) :
    ∃ after, DegradesFirst host mesh (.probe dynamicPorts results nowMs) after := by
  obtain ⟨readable, noneReported, answered⟩ := calm
  obtain ⟨after, alive, found⟩ := doProbe_spec nowMs kept readable
  refine ⟨after, alive, fun key peer there gone => ?_, fun key peer there => absurd there (noneReported key peer)⟩
  obtain ⟨member, sameName⟩ := answered key peer there
  rcases left_cases nowMs kept there (readable _ member) sameName with ⟨entry, left⟩ | ⟨degraded, failed⟩
  · rw [(found _ _).mpr ⟨_, member, left⟩] at gone
    cases gone
  · exact ⟨degraded, member, failed⟩

theorem degradesFirst_report {peerId : String} {status metadata : ReportTerm}
    (calm : (MeshEvent.reportPeerStatus peerId status metadata nowMs).Calm host mesh) :
    ∃ after, DegradesFirst host mesh (.reportPeerStatus peerId status metadata nowMs) after := by
  rcases report_spec host mesh peerId status metadata nowMs with ⟨_, entry, alive⟩ | ⟨wild, _⟩
  · refine ⟨_, alive, fun key peer there gone => ?_, fun key peer there other => ?_⟩
    · rw [FiniteMap.lookup_insert_if] at gone
      split at gone
      · cases gone
      · cases there.symm.trans gone
    · rw [AList.lookup_insert_ne (Ne.symm other), there]
  · exact absurd calm wild

/-- Every step that is calm does what it is to do, and no other. -/
theorem degradesFirst_iff {before after : HealthMesh} {event : MeshEvent} (kept : before.WellKept)
    (taken : before.Step host event after) : DegradesFirst host before event after ↔ event.Calm host before := by
  have outcome (right : ∃ after, DegradesFirst host before event after) : DegradesFirst host before event after := by
    obtain ⟨other, right⟩ := right
    have same : (before.handle host event).getD init = after := taken
    rw [right.alive] at same
    cases same
    exact right
  cases event with
  | probe => exact ⟨calm_probe kept, fun calm => outcome (degradesFirst_probe kept calm)⟩
  | reportPeerStatus peerId status metadata timestampMs =>
    refine ⟨fun right => ?_, fun calm => outcome (degradesFirst_report calm)⟩
    rcases report_spec host before peerId status metadata timestampMs with ⟨calm, _⟩ | ⟨_, crashed⟩
    · exact calm
    · cases right.alive.symm.trans crashed

/-- A run does what it is to do at every step exactly where every step is calm. -/
theorem degradesFirst_run_iff (host : MeshHost) {events : List MeshEvent} {last : HealthMesh} :
    Run (Guarded (fun mesh event => event.Calm host mesh) (Step host)) init events last ↔
      Run (fun before event after => before.Step host event after ∧ DegradesFirst host before event after) init events
        last := by
  have each {before after : HealthMesh} {event : MeshEvent} (kept : before.WellKept) (_ : True)
      (taken : before.Step host event after) :
      event.Calm host before ↔ DegradesFirst host before event after ∧ True := by
    rw [and_true, degradesFirst_iff kept taken]
  have runs := @Run.guarded_iff _ _ (Step host) init last events WellKept (fun mesh event => event.Calm host mesh)
    (fun _ => True) (DegradesFirst host) ⟨wellKept_init, trivial⟩ wellKept_step each
  simpa only [and_true] using runs

end HealthMesh

/-- A host without functions of modules, texts of structs and debug lines. -/
def plainHost : MeshHost := ⟨fun _ _ => none, fun _ => none, false⟩

/-- What a peer reports of itself once it is connected. -/
def connected : MeshEvent :=
  .reportPeerStatus "p1" (.atom "up") (.map [(.atom "type", .atom "webrtc"), (.atom "room", .binary "r")]) 0

/-- A cycle in which nothing answers. -/
def silence : MeshEvent := .probe [] (fun _ => .finished (.error "econnrefused")) 1

/-- The next cycle forgets the peer that has just been reported. -/
theorem connected_forgotten : ¬ ∃ last, Run (fun before event after => before.Step plainHost event after ∧
    DegradesFirst plainHost before event after) HealthMesh.init [connected, silence] last := by
  rintro ⟨last, run⟩
  obtain ⟨middle, first, second⟩ := Run.cons_iff.mp run
  obtain ⟨after, ⟨_, right⟩, _⟩ := Run.cons_iff.mp second
  have known := Option.some.inj first.2.alive
  subst known
  have there := right.reported "p1" _ rfl nofun
  have alive := Option.some.inj right.alive
  subst alive
  cases there

end Burble.Groove
