import Mathlib.Data.List.Sort
import Burble.Compose.Schema

namespace Burble.SelurCompose

/-- A position in the list of service names. -/
abbrev NodeId := Nat

inductive EdgeKind
  | startedBefore
  | healthyBefore
  | completedBefore
  deriving DecidableEq, Repr

inductive PlanError
  | cycle (path : List String)
  | missingDependency (dependent dependency : String)
  | unknownNetwork (service network : String)
  | unknownVolume (service volume : String)
  | unknownProfile (profile : String)
  | unknownService (service : String)
  | configHash (service source : String)
  deriving DecidableEq

/-- Edges lead from a service to those that wait for it. A counter below zero is one that has
underflowed. -/
structure ServiceGraph where
  names : List String
  edges : FiniteMap NodeId (List (NodeId × EdgeKind))
  inDegree : FiniteMap NodeId Int

def ServiceGraph.name (graph : ServiceGraph) (node : NodeId) : String := graph.names.getD node ""

def ServiceGraph.outgoing (graph : ServiceGraph) (node : NodeId) : List (NodeId × EdgeKind) :=
  (graph.edges.lookup node).getD []

abbrev ActiveServices := FiniteMap String Service

def DependsCondition.kind : DependsCondition → EdgeKind
  | serviceStarted => .startedBefore
  | serviceHealthy => .healthyBefore
  | serviceCompletedSuccessfully => .completedBefore

def depsOf (service : Service) : List (String × EdgeKind) :=
  match service.dependsOn with
  | .empty => []
  | .list names => names.map fun name => (name, .startedBefore)
  | .map entries => entries.toList.map fun entry => (entry.1, entry.2.condition.kind)

def healthyDependencies (service : Service) : List String :=
  match service.dependsOn with
  | .map entries => (entries.toList.filter fun entry => entry.2.condition = .serviceHealthy).map Prod.fst
  | _ => []

/-- Each active service with each of its dependencies, in the order of the loops. -/
def dependencies (activeServices : ActiveServices) : List (String × String × EdgeKind) :=
  activeServices.toList.flatMap fun (name, service) => (depsOf service).map fun (dep, kind) => (name, dep, kind)

def ServiceGraph.addEdge (graph : ServiceGraph) (dependency dependent : NodeId) (kind : EdgeKind) : ServiceGraph :=
  { graph with
    edges := AList.insert dependency (graph.outgoing dependency ++ [(dependent, kind)]) graph.edges
    inDegree := AList.insert dependent ((graph.inDegree.lookup dependent).getD 0 + 1) graph.inDegree }

def addDependency (graph : ServiceGraph) : String × String × EdgeKind → Except PlanError ServiceGraph
  | (name, dep, kind) =>
    if dep ∈ graph.names then .ok (graph.addEdge (graph.names.idxOf dep) (graph.names.idxOf name) kind)
    else .error (.missingDependency name dep)

def emptyGraph (names : List String) : ServiceGraph where
  names
  edges := ∅
  inDegree := (List.range names.length).foldl (fun degrees node => AList.insert node 0 degrees) ∅

def buildGraph (activeServices : ActiveServices) : Except PlanError ServiceGraph :=
  (dependencies activeServices).foldlM addDependency (emptyGraph activeServices.keys)

def sortNodes (nodes : List NodeId) : List NodeId := nodes.mergeSort fun one other => decide (one ≤ other)

/-- One edge of a wave is taken away: the counters, and the nodes that have come to zero. -/
def decrement (state : FiniteMap NodeId Int × List NodeId) (succ : NodeId) : FiniteMap NodeId Int × List NodeId :=
  let deg := (state.1.lookup succ).getD 0 - 1
  (AList.insert succ deg state.1, if deg = 0 then state.2 ++ [succ] else state.2)

def takeAway (graph : ServiceGraph) (inDegree : FiniteMap NodeId Int) (wave : List NodeId) :
    FiniteMap NodeId Int × List NodeId :=
  wave.foldl (fun state node => (graph.outgoing node).foldl (fun state edge => decrement state edge.1) state)
    (inDegree, [])

/-- The loop, which goes on as long as the queue has nodes: the waves, the counters and the
number of nodes left. No more rounds than there are nodes are ever needed. -/
def waveLoop (graph : ServiceGraph) : Nat → FiniteMap NodeId Int → List NodeId → Int →
    List (List NodeId) × FiniteMap NodeId Int × Int
  | 0, inDegree, _, remaining => ([], inDegree, remaining)
  | rounds + 1, inDegree, queue, remaining =>
    if queue = [] then ([], inDegree, remaining)
    else
      let wave := sortNodes queue
      let (inDegree, nextSeeds) := takeAway graph inDegree wave
      let (waves, result) := waveLoop graph rounds inDegree (sortNodes nextSeeds) (remaining - wave.length)
      (wave :: waves, result)

def topologicalWaves (graph : ServiceGraph) : Except PlanError (List (List NodeId)) :=
  let seeds := (graph.inDegree.toList.filter fun entry => entry.2 = 0).map Prod.fst
  let (waves, inDegree, remaining) :=
    waveLoop graph graph.names.length graph.inDegree (sortNodes seeds) graph.names.length
  if remaining > 0 then
    let left := (inDegree.toList.filter fun entry => entry.2 > 0).map fun entry => graph.name entry.1
    .error (.cycle (left.dedup.mergeSort fun one other => decide (one ≤ other)))
  else .ok waves

end Burble.SelurCompose
