import Burble.Compose.Executions

namespace Burble.SelurCompose
variable {opts : ExecOpts}

/-- An active service depends on the completion of another one. -/
def CompletedDependency (activeServices : ActiveServices) (name dep : String) : Prop :=
  name ∈ activeServices.keys ∧ (dep, .completedBefore) ∈ depsOf (activeServices.get name)

/-- Whenever the container of a service is started, that of the other one has exited with success. -/
def Gated (name dep : String) (events : List ExecEvent) : Prop :=
  EachAfter (fun past event => ∀ id, event = .started name id → .exited dep 0 ∈ past) [] events

theorem not_gated {name dep : String} {events : List ExecEvent} {id : ContainerId} (started : .started name id ∈ events)
    (quiet : ∀ service code, .exited service code ∉ events) : ¬ Gated name dep events := by
  intro gated
  obtain ⟨front, back, rfl⟩ := List.append_of_mem started
  have completed := gated.at_split rfl id rfl
  exact quiet dep 0 (List.mem_append_left _ completed)

section Gating
variable {serviceHash : Service → Except String String} {compose : Compose} {planOpts : PlanOptions} {planned : Plan}

/-- Every service of a plan is started in some execution in which no container exits. -/
theorem exists_ungated (opts : ExecOpts) (made : plan serviceHash compose planOpts = .ok planned) {name dep : String}
    (active : name ∈ (compose.services.filterValues (Service.active planOpts.profiles)).keys) (clock : Nat) :
    ∃ events last, Run (Execution.step opts) (begin planned clock) events last ∧ ¬ Gated name dep events := by
  obtain ⟨events, last, id, run, quiet, started⟩ := @exists_started _ _ _ _ opts none nofun made _ active clock
  exact ⟨events, last, run.mono fun taken => taken.2, not_gated started quiet⟩

/-- Where a service is to be started after the completion of another one, nothing makes it wait:
this is ensured in no plan but those without such dependencies. -/
theorem completed_gated_iff (made : plan serviceHash compose planOpts = .ok planned) :
    (∀ opts clock events last name dep, Run (Execution.step opts) (begin planned clock) events last →
      CompletedDependency (compose.services.filterValues (Service.active planOpts.profiles)) name dep →
      Gated name dep events) ↔
    ¬ ∃ name dep, CompletedDependency (compose.services.filterValues (Service.active planOpts.profiles)) name dep := by
  constructor
  · rintro all ⟨name, dep, depends⟩
    obtain ⟨events, last, run, ungated⟩ := @exists_ungated _ _ _ _ ⟨false, false, none⟩ made name dep depends.1 0
    exact ungated (all _ _ events last name dep run depends)
  · intro none opts clock events last name dep _ depends
    exact absurd ⟨name, dep, depends⟩ none

end Gating

theorem web_depends_on_db (condition : DependsCondition) :
    depsOf (ActiveServices.get ((webAfterDb condition).services.filterValues (Service.active [])) "web") =
      [("db", condition.kind)] := by
  cases condition <;> decide

theorem web_started_before_completion : ∃ planned events last,
    plan (fun _ => .ok "") (webAfterDb .serviceCompletedSuccessfully) ⟨[], none, []⟩ = .ok planned ∧
    CompletedDependency ((webAfterDb .serviceCompletedSuccessfully).services.filterValues (Service.active []))
      "web" "db" ∧
    Run (Execution.step ⟨false, false, none⟩) (begin planned 0) events last ∧ ¬ Gated "web" "db" events := by
  obtain ⟨planned, made⟩ := webAfterDb_planned .serviceCompletedSuccessfully
  have active : "web" ∈ ((webAfterDb .serviceCompletedSuccessfully).services.filterValues (Service.active [])).keys := by
    decide
  obtain ⟨events, last, run, ungated⟩ := exists_ungated ⟨false, false, none⟩ made active 0
  refine ⟨planned, events, last, made, ⟨active, ?_⟩, run, ungated⟩
  rw [web_depends_on_db]
  exact List.mem_cons_self

theorem webAfterDb_started_gated : ∃ planned,
    plan (fun _ => .ok "") (webAfterDb .serviceStarted) ⟨[], none, []⟩ = .ok planned ∧
    ∀ opts clock events last name dep, Run (Execution.step opts) (begin planned clock) events last →
      CompletedDependency ((webAfterDb .serviceStarted).services.filterValues (Service.active [])) name dep →
      Gated name dep events := by
  obtain ⟨planned, made⟩ := webAfterDb_planned .serviceStarted
  refine ⟨planned, made, (completed_gated_iff made).mpr ?_⟩
  rintro ⟨name, dep, active, depends⟩
  have names : ∀ name ∈ ((webAfterDb .serviceStarted).services.filterValues (Service.active [])).keys,
      ∀ entry ∈ depsOf (ActiveServices.get ((webAfterDb .serviceStarted).services.filterValues (Service.active [])) name),
        entry.2 ≠ .completedBefore := by decide
  exact names name active (dep, .completedBefore) depends rfl

end Burble.SelurCompose
