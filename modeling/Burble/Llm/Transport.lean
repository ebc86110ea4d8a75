import Burble.Runs
import Burble.Fallible

namespace Burble.Llm

inductive Protocol
  | quic
  | tcp
  deriving DecidableEq

inductive Status
  | online
  | offline
  | degraded
  deriving DecidableEq

structure Endpoint where
  host : String
  port : Nat
  priority : Int
  protocol : Protocol
  status : Status
  deriving DecidableEq

/-- The endpoints with what is known of them, and the one that was chosen last. -/
structure Transport where
  endpoints : List Endpoint
  active : Option Endpoint
  deriving DecidableEq

inductive TransportError
  | noEndpointAvailable
  deriving DecidableEq

/-- A health check comes with the endpoints, by their places in the list, that a connection to comes up. -/
inductive Request
  | getActiveEndpoint
  | reportFailure (host : String) (port : Nat)
  | healthCheck (comesUp : Nat → Bool)

def selectBestEndpoint (endpoints : List Endpoint) : Option Endpoint :=
  ((endpoints.filter fun endpoint => endpoint.status ≠ .offline).mergeSort fun one other =>
    decide (one.priority ≤ other.priority)).head?

def checkEndpointHealth (endpoint : Endpoint) (connects : Bool) : Endpoint :=
  if connects then { endpoint with status := .online } else { endpoint with status := .offline }

namespace Transport
variable (state : Transport)

def init (endpoints : List Endpoint) : Transport := ⟨endpoints, none⟩

def getActiveEndpoint : Except TransportError Endpoint × Transport :=
  match state.active.or (selectBestEndpoint state.endpoints) with
  | none => (.error .noEndpointAvailable, state)
  | some active => (.ok active, { state with active := some active })

def reportFailure (host : String) (port : Nat) : Transport :=
  let endpoints := state.endpoints.map fun endpoint =>
    if endpoint.host = host ∧ endpoint.port = port then { endpoint with status := .offline } else endpoint
  ⟨endpoints, selectBestEndpoint endpoints⟩

def healthCheck (comesUp : Nat → Bool) : Transport :=
  { state with endpoints := state.endpoints.mapIdx fun place endpoint => checkEndpointHealth endpoint (comesUp place) }

def handle : Request → Transport
  | .getActiveEndpoint => state.getActiveEndpoint.2
  | .reportFailure host port => state.reportFailure host port
  | .healthCheck comesUp => state.healthCheck comesUp

def Step (before : Transport) (request : Request) (after : Transport) : Prop := before.handle request = after

end Transport

/-- What an endpoint is, whatever is known of it. -/
def Endpoint.identity (endpoint : Endpoint) : String × Nat × Int × Protocol :=
  (endpoint.host, endpoint.port, endpoint.priority, endpoint.protocol)

/-- An endpoint is known not to be offline, and none with a smaller priority is. -/
def Best (endpoints : List Endpoint) (active : Endpoint) : Prop :=
  ∃ endpoint ∈ endpoints, endpoint.identity = active.identity ∧ endpoint.status ≠ .offline ∧
    ∀ other ∈ endpoints, other.status ≠ .offline → endpoint.priority ≤ other.priority

theorem selectBestEndpoint_best {endpoints : List Endpoint} {active : Endpoint}
    (selected : selectBestEndpoint endpoints = some active) : Best endpoints active := by
  obtain ⟨rest, sorted⟩ := List.head?_eq_some_iff.mp selected
  have order := @List.pairwise_mergeSort Endpoint (fun one other => decide (one.priority ≤ other.priority))
    (fun _ _ _ => by simpa using Int.le_trans) (fun one other => by simpa using Int.le_total one.priority other.priority)
    (endpoints.filter fun endpoint => endpoint.status ≠ .offline)
  rw [sorted, List.pairwise_cons] at order
  have known (endpoint : Endpoint) : endpoint ∈ active :: rest ↔ endpoint ∈ endpoints ∧ endpoint.status ≠ .offline := by
    rw [← sorted, List.mem_mergeSort, List.mem_filter, decide_eq_true_iff]
  obtain ⟨listed, up⟩ := (known active).mp List.mem_cons_self
  refine ⟨active, listed, rfl, up, fun other mem status => ?_⟩
  rcases List.mem_cons.mp ((known other).mpr ⟨mem, status⟩) with rfl | later
  · exact Int.le_refl _
  · exact of_decide_eq_true (order.1 other later)

theorem selectBestEndpoint_eq_none {endpoints : List Endpoint} :
    selectBestEndpoint endpoints = none ↔ ∀ endpoint ∈ endpoints, endpoint.status = .offline := by
  rw [selectBestEndpoint, List.head?_eq_none_iff, ← List.length_eq_zero_iff, List.length_mergeSort,
    List.length_eq_zero_iff, List.filter_eq_nil_iff]
  simp

namespace Transport
variable {state after : Transport}

/-- What is asked of the answer to a get. -/
structure AnswersRight (state : Transport) : Prop where
  best : ∀ active, state.getActiveEndpoint.1 = .ok active → Best state.endpoints active
  none : state.getActiveEndpoint.1 = .error .noEndpointAvailable ↔ ∀ endpoint ∈ state.endpoints, endpoint.status = .offline

/-- The probes of a health check find the endpoint that is cached up, and none with a smaller priority. -/
def StillBest (state : Transport) : Request → Prop
  | .healthCheck comesUp => ∀ active, state.active = some active →
      (∃ place endpoint, state.endpoints[place]? = some endpoint ∧ endpoint.identity = active.identity ∧ comesUp place) ∧
        ∀ place endpoint, state.endpoints[place]? = some endpoint → comesUp place → active.priority ≤ endpoint.priority
  | _ => True

theorem answersRight_iff : state.AnswersRight ↔ ∀ active, state.active = some active → Best state.endpoints active := by
  cases cached : state.active with
  | none =>
    refine ⟨by simp, fun _ => ?_⟩
    cases selected : selectBestEndpoint state.endpoints with
    | none =>
      have answer : state.getActiveEndpoint.1 = .error .noEndpointAvailable := by
        rw [getActiveEndpoint, cached, Option.none_or, selected]
      exact ⟨fun active found => (by cases answer.symm.trans found),
        iff_of_true answer (selectBestEndpoint_eq_none.mp selected)⟩
    | some active =>
      have answer : state.getActiveEndpoint.1 = .ok active := by
        rw [getActiveEndpoint, cached, Option.none_or, selected]
      refine ⟨fun other found => ?_, iff_of_false (fun found => by cases answer.symm.trans found) fun all => ?_⟩
      · cases answer.symm.trans found
        exact selectBestEndpoint_best selected
      · cases selected.symm.trans (selectBestEndpoint_eq_none.mpr all)
  | some active =>
    have answer : state.getActiveEndpoint.1 = .ok active := by rw [getActiveEndpoint, cached, Option.some_or]
    constructor
    · rintro right _ ⟨⟩
      exact right.best active answer
    · intro best
      refine ⟨fun other found => best other ?_, iff_of_false (fun found => by cases answer.symm.trans found) fun all => ?_⟩
      · cases answer.symm.trans found
        rfl
      · obtain ⟨endpoint, listed, -, up, -⟩ := best active rfl
        exact up (all endpoint listed)

theorem mem_healthCheck {comesUp : Nat → Bool} {endpoint : Endpoint} :
    endpoint ∈ (state.healthCheck comesUp).endpoints ↔
      ∃ place before, state.endpoints[place]? = some before ∧ checkEndpointHealth before (comesUp place) = endpoint := by
  rw [healthCheck, List.mem_iff_getElem?]
  refine exists_congr fun place => ?_
  rw [List.getElem?_mapIdx, Option.map_eq_some_iff]

@[simp] theorem checkEndpointHealth_identity (endpoint : Endpoint) (connects : Bool) :
    (checkEndpointHealth endpoint connects).identity = endpoint.identity := by
  cases connects <;> rfl

@[simp] theorem checkEndpointHealth_priority (endpoint : Endpoint) (connects : Bool) :
    (checkEndpointHealth endpoint connects).priority = endpoint.priority := by
  cases connects <;> rfl

theorem checkEndpointHealth_status {endpoint : Endpoint} {connects : Bool} :
    (checkEndpointHealth endpoint connects).status ≠ .offline ↔ connects = true := by
  cases connects <;> simp [checkEndpointHealth]

theorem priority_of_identity {one other : Endpoint} (same : one.identity = other.identity) : one.priority = other.priority :=
  congrArg (fun identity => identity.2.2.1) same

/-- An endpoint is the best of a probed list where it comes up and none before it does. -/
theorem best_healthCheck (active : Endpoint) (comesUp : Nat → Bool) : Best (state.healthCheck comesUp).endpoints active ↔
    (∃ place endpoint, state.endpoints[place]? = some endpoint ∧ endpoint.identity = active.identity ∧ comesUp place) ∧
      ∀ place endpoint, state.endpoints[place]? = some endpoint → comesUp place → active.priority ≤ endpoint.priority := by
  constructor
  · rintro ⟨probed, listed, same, up, least⟩
    obtain ⟨place, endpoint, found, rfl⟩ := mem_healthCheck.mp listed
    refine ⟨⟨place, endpoint, found, ?_, checkEndpointHealth_status.mp up⟩, fun place other there comes => ?_⟩
    · rwa [checkEndpointHealth_identity] at same
    · have before := least _ (mem_healthCheck.mpr ⟨place, other, there, rfl⟩) (checkEndpointHealth_status.mpr comes)
      rw [checkEndpointHealth_priority other] at before
      exact priority_of_identity same ▸ before
  · rintro ⟨⟨place, endpoint, found, same, comes⟩, least⟩
    have identity : (checkEndpointHealth endpoint (comesUp place)).identity = active.identity := by
      rw [checkEndpointHealth_identity, same]
    refine ⟨_, mem_healthCheck.mpr ⟨place, endpoint, found, rfl⟩, identity, checkEndpointHealth_status.mpr comes, ?_⟩
    intro other listed up
    obtain ⟨there, before, placed, rfl⟩ := mem_healthCheck.mp listed
    rw [priority_of_identity identity, checkEndpointHealth_priority]
    exact least there before placed (checkEndpointHealth_status.mp up)

/-- A request leaves a get right where it is no health check that the cached endpoint does not come through as the best. -/
theorem answersRight_step {request : Request} (right : state.AnswersRight) (taken : Step state request after) :
    state.StillBest request ↔ after.AnswersRight := by
  subst taken
  cases request with
  | getActiveEndpoint =>
    refine iff_of_true trivial (answersRight_iff.mpr fun active cached => ?_)
    unfold handle getActiveEndpoint at cached ⊢
    cases chosen : state.active.or (selectBestEndpoint state.endpoints) with
    | none =>
      rw [chosen] at cached
      exact answersRight_iff.mp right active cached
    | some found =>
      rw [chosen] at cached
      cases cached
      refine right.best _ ?_
      rw [getActiveEndpoint, chosen]
  | reportFailure host port =>
    exact iff_of_true trivial (answersRight_iff.mpr fun active chosen => selectBestEndpoint_best chosen)
  | healthCheck comesUp =>
    rw [answersRight_iff]
    exact forall_congr' fun active => imp_congr_right fun _ => (best_healthCheck active comesUp).symm

theorem answersRight_init (endpoints : List Endpoint) : (init endpoints).AnswersRight :=
  answersRight_iff.mpr fun _ none => by cases none

/-- In a run from the start a get would be answered right all along where every health check finds the cached endpoint the
    best, and only there. -/
theorem answersRight_run_iff {endpoints : List Endpoint} {requests : List Request} {last : Transport} :
    Run (Within AnswersRight Step) (init endpoints) requests last ↔ Run (Guarded StillBest Step) (init endpoints) requests last :=
  Run.within_iff_guarded (fun _ => True) ⟨trivial, answersRight_init endpoints⟩ (fun _ _ => trivial)
    fun _ right taken => answersRight_step right taken

end Transport

/-- The only endpoint, which a probe finds down. -/
def primary : Endpoint := ⟨"llm-primary.burble.local", 8503, 1, .quic, .online⟩

def probedDown : Transport := ((Transport.init [primary]).handle .getActiveEndpoint).handle (.healthCheck fun _ => false)

theorem probedDown_answers : probedDown.endpoints = [{ primary with status := .offline }] ∧
    probedDown.getActiveEndpoint.1 = .ok primary ∧ ¬ probedDown.AnswersRight := by
  have chosen : selectBestEndpoint [primary] = some primary := by
    simp [selectBestEndpoint, primary]
  have cached : ((Transport.init [primary]).handle .getActiveEndpoint) = ⟨[primary], some primary⟩ := by
    simp [Transport.handle, Transport.getActiveEndpoint, Transport.init, chosen]
  have state : probedDown = ⟨[{ primary with status := .offline }], some primary⟩ := by
    rw [probedDown, cached]
    rfl
  have answer : probedDown.getActiveEndpoint.1 = .ok primary := by rw [state]; rfl
  refine ⟨by rw [state], answer, fun right => ?_⟩
  obtain ⟨endpoint, listed, -, up, -⟩ := right.best primary answer
  rw [state] at listed
  cases List.mem_singleton.mp listed
  exact up rfl

end Burble.Llm
