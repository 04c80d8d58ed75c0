import VexoConsensus.Types

namespace Vexo.Upgrade

open List

structure Plan where
  name : GoString
  height : Height
  binaryVersion : GoString
  (configSchemaFrom configSchemaTo storeSchemaFrom storeSchemaTo appStateSchemaFrom appStateSchemaTo : UInt64)
deriving DecidableEq

structure State where
  height : Height
  binaryVersion : GoString
  (configSchemaVersion storeSchemaVersion appStateVersion : UInt64)
deriving DecidableEq

inductive ExecutionStatus where
  | pending | applied | rollbackRequired
deriving DecidableEq

-- The status, and the height and versions of the result.
structure ExecutionRecord where
  status : ExecutionStatus
  result : State

inductive HookErr where
  | rollbackRequired | upgradePlanNotFound | upgradeExecutorMissing
  | reported (text : GoString)

variable {World : Type}

-- Execute answers with a record and, if it failed, the text of its error; World is what it and the schema store write.
structure Executor (World : Type) where
  recorder : Bool
  execute : World → State → Plan → World × ExecutionRecord × Option GoString
  saveSchemaState : World → State → World × Option GoString

-- The fields of the runtime that the hook reads.
structure Runtime (World : Type) where
  upgradePlan : Option Plan
  upgradeState : State
  upgradeHalted : Bool
  world : World

variable (plans : List Plan) (executor : Executor World) (runtime : Runtime World) (height : Height)

def upgradePlanByHeight : Option Plan := plans.find? fun plan => plan.height = height

def execute (plan : Plan) : Runtime World × Except HookErr Unit :=
  let state := if runtime.upgradeState.height < height then { runtime.upgradeState with height } else runtime.upgradeState
  let (world, record, failure) := executor.execute runtime.world state plan
  let runtime := { runtime with upgradeState := state, world }
  match failure, record.status with
  | some text, status => ({ runtime with upgradeHalted := status = .rollbackRequired }, .error (.reported text))
  | none, .rollbackRequired => ({ runtime with upgradeHalted := true }, .error .rollbackRequired)
  | none, .applied =>
    let (world, unsaved) := executor.saveSchemaState world record.result
    ({ runtime with upgradeState := record.result, world }, unsaved.elim (.ok ()) fun text => .error (.reported text))
  | none, .pending => (runtime, .ok ())

-- The answer also names the plan handed to the executor.
def applyUpgradeHook : Runtime World × Option Plan × Except HookErr Unit :=
  if runtime.upgradeHalted then (runtime, none, .error .rollbackRequired)
  else if runtime.upgradePlan = none ∧ height = 0 then (runtime, none, .error .upgradePlanNotFound)
  else
    let upgradePlan := runtime.upgradePlan.or (upgradePlanByHeight plans height)
    let runtime := { runtime with upgradePlan }
    match upgradePlan with
    | none => (runtime, none, .ok ())
    | some plan =>
      if height < plan.height then (runtime, none, .ok ())
      else if executor.recorder then
        let (runtime, outcome) := execute executor runtime height plan
        (runtime, some plan, outcome)
      else ({ runtime with upgradeHalted := true }, none, .error .upgradeExecutorMissing)

structure Step (World : Type) where
  before : Runtime World
  height : Height
  handed : Option Plan

def run : List Height → Runtime World → List (Step World)
  | [], _ => []
  | height :: later, runtime =>
    let (next, handed, _) := applyUpgradeHook plans executor runtime height
    ⟨runtime, height, handed⟩ :: run later next

variable (steps : List (Step World))

-- Each plan is handed over at its height unless the node has halted, and none before its height.
structure Executed : Prop where
  handed : ∀ step ∈ steps, ∀ plan ∈ plans, plan.height = step.height → step.handed = some plan ∨ step.before.upgradeHalted = true
  due : ∀ step ∈ steps, ∀ plan, step.handed = some plan → plan.height ≤ step.height

def Uncached : Prop :=
  ∀ step ∈ steps, (∃ plan ∈ plans, plan.height = step.height) → step.before.upgradePlan = none ∨ step.before.upgradeHalted = true

variable {plans executor runtime height} {plan : Plan}

theorem stored_height (found : upgradePlanByHeight plans height = some plan) : plan.height = height := by
  simpa using find?_some found

theorem execute_plan (plan : Plan) : (execute executor runtime height plan).1.upgradePlan = runtime.upgradePlan := by
  simp only [execute]
  split <;> rfl

theorem hook_plan (held : (applyUpgradeHook plans executor runtime height).1.upgradePlan = some plan) :
    runtime.upgradePlan = some plan ∨ plan.height = height := by
  have looked : ∀ {found}, runtime.upgradePlan.or (upgradePlanByHeight plans height) = found → found = some plan →
      runtime.upgradePlan = some plan ∨ plan.height = height := by
    rintro _ rfl same
    rcases Option.or_eq_some_iff.mp same with cached | ⟨-, stored⟩
    · exact .inl cached
    · exact .inr (stored_height stored)
  simp only [applyUpgradeHook] at held
  split at held
  · exact .inl held
  split at held
  · exact .inl held
  split at held
  · exact looked rfl held
  split at held
  · exact looked rfl held
  split at held
  · rw [execute_plan] at held
    exact looked rfl held
  · exact looked rfl held

theorem hook_handed (configured : executor.recorder = true) : (applyUpgradeHook plans executor runtime height).2.1 = some plan ↔
    runtime.upgradeHalted = false ∧ ¬ (runtime.upgradePlan = none ∧ height = 0) ∧
      runtime.upgradePlan.or (upgradePlanByHeight plans height) = some plan ∧ plan.height ≤ height := by
  simp only [applyUpgradeHook, configured, if_true]
  split
  · simp [*]
  split
  · simp [*]
  split
  · simp [*]
  split
  · next other found early => grind
  · next other found reached => grind

theorem run_steps (heights : List Height) (rising : heights.Pairwise (· < ·))
    (past : ∀ plan, runtime.upgradePlan = some plan → ∀ height ∈ heights, plan.height < height) :
    ∀ step ∈ run plans executor heights runtime, step.handed = (applyUpgradeHook plans executor step.before step.height).2.1 ∧
      ∀ plan, step.before.upgradePlan = some plan → plan.height < step.height := by
  induction heights generalizing runtime with
  | nil => exact fun step listed => absurd listed not_mem_nil
  | cons height later ih =>
    obtain ⟨above, rising⟩ := pairwise_cons.mp rising
    refine forall_mem_cons.mpr ⟨⟨rfl, fun plan held => past plan held height mem_cons_self⟩, ih rising fun plan held other listed => ?_⟩
    rcases hook_plan held with cached | rfl
    · exact past plan cached other (mem_cons_of_mem _ listed)
    · exact above other listed

theorem found_height (distinct : (plans.map Plan.height).Nodup) (listed : plan ∈ plans) :
    upgradePlanByHeight plans plan.height = some plan := by
  have present : (upgradePlanByHeight plans plan.height).isSome := find?_isSome.mpr ⟨plan, listed, by simp⟩
  obtain ⟨other, found⟩ := Option.isSome_iff_exists.mp present
  have same := inj_on_of_nodup_map distinct (mem_of_find?_eq_some found) listed (stored_height found)
  rw [found, same]

theorem plans_executed_iff (executor : Executor World) (configured : executor.recorder = true) (plans : List Plan)
    (valid : ∀ plan ∈ plans, plan.height ≠ 0) (distinct : (plans.map Plan.height).Nodup) (heights : List Height)
    (rising : heights.Pairwise (· < ·)) (state : State) (world : World) :
    Executed plans (run plans executor heights ⟨none, state, false, world⟩) ↔ Uncached plans (run plans executor heights ⟨none, state, false, world⟩) := by
  have steps := @run_steps World plans executor ⟨none, state, false, world⟩ heights rising fun plan held => by cases held
  generalize run plans executor heights ⟨none, state, false, world⟩ = calls at steps ⊢
  constructor
  · rintro ⟨handed, -⟩ step listed ⟨plan, stored, same⟩
    obtain ⟨asked, past⟩ := steps step listed
    rcases handed step listed plan stored same with given | halted
    · obtain ⟨-, -, chosen, -⟩ := (hook_handed configured).mp (asked.symm.trans given)
      refine .inl (Option.eq_none_iff_forall_ne_some.mpr fun earlier cached => ?_)
      rw [cached] at chosen
      cases chosen
      exact UInt64.lt_irrefl _ (same ▸ past plan cached)
    · exact .inr halted
  · intro uncached
    refine ⟨fun step listed plan stored same => ?_, fun step listed plan given => ?_⟩
    · rcases uncached step listed ⟨plan, stored, same⟩ with free | halted
      · refine or_iff_not_imp_right.mpr fun live => (steps step listed).1.trans ((hook_handed configured).mpr ⟨by simpa using live, ?_, ?_, ?_⟩)
        · exact fun none => valid plan stored (same.trans none.2)
        · rw [free, Option.none_or, ← same, found_height distinct stored]
        · exact same ▸ UInt64.le_refl _
      · exact .inr halted
    · exact ((hook_handed configured).mp ((steps step listed).1.symm.trans given)).2.2.2

def plansAt (heights : List Height) : List Plan := heights.map fun height => ⟨[UInt8.ofNat height.toNat], height, [], 0, 0, 0, 0, 0, 0⟩

def applies : Executor Unit := ⟨true, fun _ state _ => ((), ⟨.applied, state⟩, none), fun _ _ => ((), none)⟩

def fresh : Runtime Unit := ⟨none, ⟨0, [], 0, 0, 0⟩, false, ()⟩

-- The plan of height one stays in the runtime after it was applied, and the one of height two is never looked up.
theorem second_plan_never_handed : ¬ Executed (plansAt [1, 2]) (run (plansAt [1, 2]) applies [1, 2, 3] fresh) := by
  intro executed
  have given := executed.handed (run (plansAt [1, 2]) applies [1, 2, 3] fresh)[1] (getElem_mem _) (plansAt [1, 2])[1] (getElem_mem _) rfl
  exact absurd given (by decide)

theorem one_plan_handed : Executed (plansAt [2]) (run (plansAt [2]) applies [1, 2, 3] fresh) := by
  refine (plans_executed_iff applies rfl (plansAt [2]) (by decide) (by decide) [1, 2, 3] (by decide) _ ()).mpr ?_
  unfold Uncached
  decide

end Vexo.Upgrade
