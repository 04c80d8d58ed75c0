import VexoConsensus.Consensus.Evidence
import VexoConsensus.RegistryAgreement

namespace Vexo.Consensus

open ByteCodec Checks Slashing OrderedMap StoreKeeper AList InMemoryRegistry

-- SlashingKeeper, with the receipts it can be asked for.
structure SlashingKeeper (Keeper : Type) where
  submitEvidence : Keeper → Context → Evidence → Except Err Keeper
  applyPenaltyWithStake : Keeper → Context → Evidence → VotingPower → Except Err (PenaltyReceipt × Keeper)
  penaltyReceipt : Keeper → Context → Evidence → Except Err (Option PenaltyReceipt)

def memoryKeeper : SlashingKeeper InMemoryKeeper where
  submitEvidence := InMemoryKeeper.submitEvidence
  applyPenaltyWithStake := InMemoryKeeper.applyPenaltyWithStake
  penaltyReceipt keeper _ evidence := .ok (keeper.penaltyReceipt evidence)

def storedKeeper : SlashingKeeper StoreKeeper where
  submitEvidence := StoreKeeper.submitEvidence
  applyPenaltyWithStake := StoreKeeper.applyPenaltyWithStake
  penaltyReceipt := StoreKeeper.penaltyReceipt

structure SlashResult where
  receipt : PenaltyReceipt
  (previousPower remainingPower : VotingPower)
deriving DecidableEq

-- What a submission changes, also where it fails after it has changed something.
structure SlashingState (Keeper Registry : Type) where
  keeper : Keeper
  registry : Registry

section Submission

variable {Keeper Registry : Type} (slashing : SlashingKeeper Keeper) (validators : VersionedRegistry Registry) (reasons : VerifierRegistry)
  (verifier : Option EvidenceVerifier)

variable (ctx : Context)

def verifySlashingRegistryApplication (registry : Registry) (applyHeight : Height) (validatorID : ValidatorID)
    (remainingPower : VotingPower) : Except Err Unit := do
  let set ← validators.validatorSet registry ctx applyHeight
  let found := set.get validatorID
  if remainingPower = 0 then require (found = none) .slashingRegistryMismatch
  else require (found.map Validator.votingPower = some remainingPower) .slashingRegistryMismatch

-- The registry once the receipt's remaining power is in force at the height.
def enforce (registry : Registry) (applyHeight : Height) (applied : Validator) (receipt : PenaltyReceipt)
    (validatorID : ValidatorID) : Registry × Except Err Unit :=
  let (registry, outcome) :=
    if receipt.remainingPower = 0 then validators.applyLeaveAt registry ctx applyHeight validatorID
    else if applied.votingPower ≠ receipt.remainingPower then
      validators.updateVotingPowerAt registry ctx applyHeight validatorID receipt.remainingPower
    else (registry, .ok ())
  (registry, do
    outcome
    verifySlashingRegistryApplication validators ctx registry applyHeight validatorID receipt.remainingPower)

-- SubmitEvidence of the keeper, for which evidence that is already there is no failure.
def resubmit (keeper : Keeper) (evidence : Evidence) : Except Err Keeper :=
  match slashing.submitEvidence keeper ctx evidence with
  | .error .duplicateEvidence => .ok keeper
  | outcome => outcome

-- The receipt that is already there, or the one a penalty on this power gives.
def settle (keeper : Keeper) (evidence : Evidence) (basePower : VotingPower) : Option PenaltyReceipt → Except Err (PenaltyReceipt × Keeper)
  | some receipt => .ok (receipt, keeper)
  | none => slashing.applyPenaltyWithStake keeper ctx evidence basePower

variable (state : SlashingState Keeper Registry) (applyHeight : Height) (evidence : Evidence) (context : InvalidProposalVerificationContext)

-- What is read before anything changes; the set where the penalty applies may be missing if there is a receipt already.
def checkSubmission : Except Err (Validator × Option PenaltyReceipt × Except Err SetSnapshot) := do
  let set ← validators.validatorSet state.registry ctx evidence.height
  match set.get evidence.validator with
  | none => .error .evidenceValidatorNotFound
  | some validatorInfo => do
      verifyConsensusEvidence reasons evidence set validatorInfo verifier context
      let receipt ← slashing.penaltyReceipt state.keeper ctx evidence
      match validators.validatorSet state.registry ctx applyHeight, receipt with
      | .error reason, none => .error reason
      | applySet, receipt => return (validatorInfo, receipt, applySet)

def applyHeightOf (applyHeight : Height) : Height := if applyHeight = 0 then evidence.height else applyHeight

def submitEvidenceForSlashingWithContext : SlashingState Keeper Registry × Except Err SlashResult :=
  let applyHeight := applyHeightOf evidence applyHeight
  match checkSubmission slashing validators reasons verifier ctx state applyHeight evidence context with
  | .error reason => (state, .error reason)
  | .ok (validatorInfo, receipt, applySet) =>
    match resubmit slashing ctx state.keeper evidence with
    | .error reason => (state, .error reason)
    | .ok keeper =>
      let applied := applySet.toOption.bind fun set => set.get evidence.validator
      match settle slashing ctx keeper evidence (applied.getD validatorInfo).votingPower receipt with
      | .error reason => ({ state with keeper }, .error reason)
      | .ok (receipt, keeper) =>
        let result : SlashResult := ⟨receipt, receipt.previousPower, receipt.remainingPower⟩
        match applySet, applied with
        | .error reason, _ => ({ state with keeper }, .error reason)
        | .ok _, none => ({ state with keeper }, .ok result)
        | .ok _, some applied =>
          let (registry, outcome) := enforce validators ctx state.registry applyHeight applied receipt evidence.validator
          (⟨keeper, registry⟩, outcome.map fun _ => result)

def submitEvidenceForSlashing : SlashingState Keeper Registry × Except Err SlashResult :=
  submitEvidenceForSlashingWithContext slashing validators reasons verifier ctx state applyHeight evidence .zero

end Submission

section Keepers

variable {Keeper : Type} (slashing : SlashingKeeper Keeper)

def Penalised (keeper : Keeper) (evidence : Evidence) : Prop :=
  ∃ receipt, slashing.penaltyReceipt keeper .background evidence = .ok (some receipt)

structure LawfulKeeper : Prop where
  read : ∀ {keeper ctx evidence}, ctx.done = false → slashing.penaltyReceipt keeper ctx evidence = slashing.penaltyReceipt keeper .background evidence
  placed : ∀ {keeper ctx evidence next}, resubmit slashing ctx keeper evidence = .ok next → evidence.height ≠ 0
  submitted : ∀ {keeper ctx evidence next}, slashing.submitEvidence keeper ctx evidence = .ok next →
    ∀ other, Penalised slashing keeper other → Penalised slashing next other
  applied : ∀ {keeper ctx evidence power receipt next}, slashing.applyPenaltyWithStake keeper ctx evidence power = .ok (receipt, next) →
    Penalised slashing next evidence ∧ ∀ other, Penalised slashing keeper other → Penalised slashing next other

variable {slashing} {evidence : Evidence}

theorem LawfulKeeper.resubmitted (lawful : LawfulKeeper slashing) {keeper next : Keeper} {ctx : Context} {other : Evidence}
    (accepted : resubmit slashing ctx keeper evidence = .ok next) (before : Penalised slashing keeper other) : Penalised slashing next other := by
  unfold resubmit at accepted
  split at accepted
  · cases accepted
    exact before
  · exact lawful.submitted accepted other before

theorem insert_present {table : Table GoString PenaltyReceipt} {other : GoString} (key : GoString) (value : PenaltyReceipt)
    (present : ∃ receipt, table.lookup other = some receipt) : ∃ receipt, (table.insert key value).lookup other = some receipt := by
  by_cases same : other = key
  · exact ⟨value, by rw [same, lookup_insert]⟩
  · rwa [lookup_insert_ne same]

theorem memory_penalised {keeper : InMemoryKeeper} :
    Penalised memoryKeeper keeper evidence ↔ ∃ receipt, keeper.penalties.lookup (evidenceKey evidence) = some receipt := by
  simp [Penalised, memoryKeeper, InMemoryKeeper.penaltyReceipt]

theorem stored_penalised {keeper : StoreKeeper} :
    Penalised storedKeeper keeper evidence ↔ ∃ receipt, keeper.penalties.lookup (evidenceKey evidence) = some receipt := by
  simp [Penalised, storedKeeper, penaltyReceipt, Context.background, require, bind, Except.bind, pure, Except.pure]

theorem memory_keeper_lawful : LawfulKeeper memoryKeeper where
  read _ := rfl
  placed := by
    intro keeper ctx evidence next accepted zero
    by_cases live : ctx.done <;> by_cases named : evidence.validator = [] <;>
      simp [resubmit, memoryKeeper, InMemoryKeeper.submitEvidence, InMemoryKeeper.validateEvidence, require, live, named, zero, bind,
        Except.bind] at accepted
  submitted := by
    intro keeper ctx evidence next accepted other before
    simp only [memoryKeeper, InMemoryKeeper.submitEvidence, bind_ok_iff, pure_ok_iff] at accepted
    obtain ⟨-, -, -, -, -, -, rfl⟩ := accepted
    exact memory_penalised.mpr (memory_penalised.mp before)
  applied := by
    intro keeper ctx evidence power receipt next accepted
    simp only [memory_penalised]
    simp only [memoryKeeper, InMemoryKeeper.applyPenaltyWithStake] at accepted
    split at accepted
    · next earlier found =>
      cases accepted
      exact ⟨⟨receipt, found⟩, fun _ before => before⟩
    · simp only [bind_ok_iff, pure_ok_iff, Prod.mk.injEq] at accepted
      obtain ⟨-, -, penalty, -, remaining, -, rfl, rfl⟩ := accepted
      exact ⟨⟨_, lookup_insert _⟩, fun _ => insert_present _ _⟩

theorem stored_keeper_lawful : LawfulKeeper storedKeeper where
  read live := by simp [storedKeeper, penaltyReceipt, Context.background, live]
  placed := by
    intro keeper ctx evidence next accepted zero
    by_cases live : ctx.done <;> by_cases named : evidence.validator = [] <;>
      simp [resubmit, storedKeeper, submitEvidence, validateEvidence, require, live, named, zero, bind, Except.bind] at accepted
  submitted := by
    intro keeper ctx evidence next accepted other before
    simp only [storedKeeper, submitEvidence, bind_ok_iff] at accepted
    obtain ⟨-, -, accepted⟩ := accepted
    split at accepted
    · cases accepted
    · simp only [saveEvidence, bind_ok_iff, pure_ok_iff] at accepted
      obtain ⟨-, -, rfl⟩ := accepted
      exact stored_penalised.mpr (stored_penalised.mp before)
    · cases accepted
  applied := by
    intro keeper ctx evidence power receipt next accepted
    simp only [stored_penalised]
    simp only [storedKeeper, applyPenaltyWithStake, penaltyReceipt, bind_ok_iff, pure_ok_iff] at accepted
    obtain ⟨document, -, found, ⟨-, -, rfl⟩, accepted⟩ := accepted
    cases found : keeper.penalties.lookup (evidenceKey evidence) with
    | some earlier =>
      simp only [found, savePenaltyBundle, bind_ok_iff, pure_ok_iff, Prod.mk.injEq] at accepted
      obtain ⟨_, ⟨-, -, rfl⟩, rfl, rfl⟩ := accepted
      exact ⟨insert_present _ _ ⟨_, found⟩, fun _ => insert_present _ _⟩
    | none =>
      simp only [found, savePenaltyBundle, bind_ok_iff, pure_ok_iff, Prod.mk.injEq] at accepted
      obtain ⟨-, -, -, -, penalty, -, remaining, -, _, ⟨-, -, rfl⟩, rfl, rfl⟩ := accepted
      exact ⟨⟨_, lookup_insert _⟩, fun _ => insert_present _ _⟩

end Keepers

variable (validatorID : ValidatorID) (remainingPower : VotingPower)

-- What enforcing a receipt asks of the registry.
def penaltyChange : Change :=
  if remainingPower = 0 then .leave validatorID else .setPower validatorID remainingPower

theorem penalty_change_names :
    (penaltyChange validatorID remainingPower).validatorID = validatorID ∧ (penaltyChange validatorID remainingPower).malformed = none := by
  unfold penaltyChange
  by_cases zero : remainingPower = 0 <;> simp [zero, Change.validatorID, Change.malformed]

structure EnforcingRegistry {Registry : Type} (validators : VersionedRegistry Registry) (Sound : Registry → Prop)
    (recorded : Registry → List Height) (Faithful : Change → Prop) : Prop extends LawfulRegistry validators Sound recorded Faithful where
  read : ∀ {registry ctx position}, validators.validatorSet registry ctx position =
    if ctx.done then .error .contextDone else validators.validatorSet registry .background position
  faithful : ∀ id remaining, Faithful (penaltyChange id remaining)
  accepted : ∀ {registry ctx position set id validator}, Sound registry → ctx.done = false → position ≠ 0 →
    validators.validatorSet registry .background position = .ok set → set.get id = some validator → ∀ remaining,
    ∃ answer, (validators.change registry ⟨ctx, position, penaltyChange id remaining⟩).2 = .ok answer

theorem edit_penalty (policy : Option AdmissionPolicy) (ctx : Context) {validators : Table ValidatorID Validator} {id : ValidatorID}
    {validator : Validator} (present : validators.lookup id = some validator) (remaining : VotingPower) :
    ∃ result, (penaltyChange id remaining).edit policy ctx validators = .ok result := by
  unfold penaltyChange
  by_cases zero : remaining = 0 <;> simp [zero, Change.edit, present]

theorem in_memory_enforcing : EnforcingRegistry inMemory InMemoryRegistry.Sound heights fun _ => True where
  toLawfulRegistry := InMemoryRegistry.lawful
  read := by
    intro registry ctx position
    by_cases done : ctx.done <;> simp [inMemory, validatorSet, Context.background, require, done, bind, Except.bind]
  faithful _ _ := trivial
  accepted := by
    intro registry ctx position set id validator sound live nonzero shown found remaining
    rw [validator_set_at _ nonzero] at shown
    cases shown
    rw [← to_map_lookup] at found
    obtain ⟨result, edited⟩ := edit_penalty registry.policy ctx found remaining
    refine ⟨result.2.2.2, ?_⟩
    rw [in_memory_change, if_neg (by simp [live]), (penalty_change_names id remaining).2]
    simp only [VersionedRegistry.resolved, nonzero, if_false, loadedAt, edited]

theorem store_backed_enforcing : EnforcingRegistry storeBacked StoreRegistry.Sound StoreRegistry.recorded StoreRegistry.Faithful where
  toLawfulRegistry := StoreRegistry.lawful
  read := by
    intro registry ctx position
    by_cases done : ctx.done <;> simp [storeBacked, Context.background, done]
  faithful id remaining := by
    unfold penaltyChange
    split <;> trivial
  accepted := by
    intro registry ctx position set id validator sound live nonzero shown found remaining
    rw [StoreRegistry.validator_set_at _ nonzero] at shown
    cases loaded : registry.loadLatest position with
    | error reason => simp [loaded, Except.map] at shown
    | ok document =>
      rw [loaded] at shown
      cases shown
      rw [get_sorted, ← to_map_lookup] at found
      obtain ⟨result, edited⟩ := edit_penalty registry.policy ctx found remaining
      refine ⟨result.2.2.2, ?_⟩
      have moved : registry.setEffectiveHeight position = { registry with effectiveHeight := position } := by
        rw [StoreRegistry.setEffectiveHeight, if_neg nonzero]
      have read : { registry with effectiveHeight := position }.loadLatest position = registry.loadLatest position := rfl
      rw [store_backed_change, (penalty_change_names id remaining).2]
      simp [VersionedRegistry.resolved, nonzero, moved, StoreRegistry.currentValidators, live, StoreRegistry.validatorsAt, read, loaded, edited,
        bind, Except.bind, pure, Except.pure]

section Runs

variable {Keeper Registry : Type} (slashing : SlashingKeeper Keeper) (validators : VersionedRegistry Registry) (reasons : VerifierRegistry)

inductive SlashingStep where
  | submission (verifier : Option EvidenceVerifier) (ctx : Context) (applyHeight : Height) (evidence : Evidence)
      (context : InvalidProposalVerificationContext)
  | penalty (ctx : Context) (evidence : Evidence) (power : VotingPower)
  | change (call : Vexo.Call)

variable (state : SlashingState Keeper Registry)

def SlashingState.act : SlashingStep → SlashingState Keeper Registry
  | .submission verifier ctx applyHeight evidence context =>
    (submitEvidenceForSlashingWithContext slashing validators reasons verifier ctx state applyHeight evidence context).1
  | .penalty ctx evidence power =>
    match slashing.applyPenaltyWithStake state.keeper ctx evidence power with
    | .ok (_, keeper) => { state with keeper }
    | .error _ => state
  | .change call => { state with registry := (validators.change state.registry call).1 }

def SlashingState.after (steps : List SlashingStep) : SlashingState Keeper Registry :=
  steps.foldl (SlashingState.act slashing validators reasons) state

def votingPowerAt (registry : Registry) (position : Height) (id : ValidatorID) : Option VotingPower :=
  ((validators.validatorSet registry .background position).toOption.bind fun set => set.get id).map Validator.votingPower

-- The evidence still verifies, and where it is applied the validator has another power than the receipt left it.
def Reenacts (verifier : Option EvidenceVerifier) (ctx : Context) (state : SlashingState Keeper Registry) (applyHeight : Height)
    (evidence : Evidence) : Prop :=
  ∃ validatorInfo receipt set applied, checkSubmission slashing validators reasons verifier ctx state (applyHeightOf evidence applyHeight)
      evidence .zero = .ok (validatorInfo, some receipt, .ok set) ∧
    (∃ keeper, resubmit slashing ctx state.keeper evidence = .ok keeper) ∧ set.get evidence.validator = some applied ∧
    (receipt.remainingPower = 0 ∨ applied.votingPower ≠ receipt.remainingPower)

variable {slashing validators reasons} {verifier : Option EvidenceVerifier} {ctx : Context} {state : SlashingState Keeper Registry}
  {applyHeight : Height} {evidence : Evidence} {context : InvalidProposalVerificationContext}

theorem enforce_registry (registry : Registry) (applied : Validator) (receipt : PenaltyReceipt) :
    (enforce validators ctx registry applyHeight applied receipt evidence.validator).1 =
      if receipt.remainingPower = 0 ∨ applied.votingPower ≠ receipt.remainingPower then
        (validators.change registry ⟨ctx, applyHeight, penaltyChange evidence.validator receipt.remainingPower⟩).1
      else registry := by
  by_cases zero : receipt.remainingPower = 0
  · simp [enforce, penaltyChange, VersionedRegistry.change, zero]
  · by_cases same : applied.votingPower = receipt.remainingPower <;> simp [enforce, penaltyChange, VersionedRegistry.change, zero, same]

theorem submission_cases (outcome : SlashingState Keeper Registry × Except Err SlashResult)
    (called : submitEvidenceForSlashingWithContext slashing validators reasons verifier ctx state applyHeight evidence context = outcome) :
    ((∃ reason, outcome = (state, .error reason)) ∧ ∀ checked keeper,
      checkSubmission slashing validators reasons verifier ctx state (applyHeightOf evidence applyHeight) evidence context = .ok checked →
        resubmit slashing ctx state.keeper evidence ≠ .ok keeper) ∨
    ∃ validatorInfo receipt applySet keeper,
      checkSubmission slashing validators reasons verifier ctx state (applyHeightOf evidence applyHeight) evidence context =
        .ok (validatorInfo, receipt, applySet) ∧ resubmit slashing ctx state.keeper evidence = .ok keeper ∧
      let applied := applySet.toOption.bind fun set => set.get evidence.validator
      match settle slashing ctx keeper evidence (applied.getD validatorInfo).votingPower receipt with
      | .error reason => outcome = (⟨keeper, state.registry⟩, .error reason)
      | .ok (receipt, keeper) => outcome.1 = ⟨keeper, match applied with
        | none => state.registry
        | some applied =>
          (enforce validators ctx state.registry (applyHeightOf evidence applyHeight) applied receipt evidence.validator).1⟩ := by
  subst called
  simp only [submitEvidenceForSlashingWithContext]
  cases check : checkSubmission slashing validators reasons verifier ctx state (applyHeightOf evidence applyHeight) evidence context with
  | error reason => exact .inl ⟨⟨reason, rfl⟩, fun _ _ passed => by cases passed⟩
  | ok checked =>
    obtain ⟨validatorInfo, receipt, applySet⟩ := checked
    cases accepted : resubmit slashing ctx state.keeper evidence with
    | error reason => exact .inl ⟨⟨reason, rfl⟩, fun _ _ _ passed => by cases passed⟩
    | ok keeper =>
      refine .inr ⟨validatorInfo, receipt, applySet, keeper, rfl, rfl, ?_⟩
      split
      · next reason settled => simp only [settled]
      · next receipt keeper settled =>
          simp only [settled]
          cases applySet with
          | error reason => rfl
          | ok set =>
            simp only [Except.toOption, Option.bind_some]
            cases set.get evidence.validator <;> rfl

theorem checked_receipt {height : Height} {validatorInfo : Validator} {receipt : Option PenaltyReceipt} {applySet : Except Err SetSnapshot}
    (check : checkSubmission slashing validators reasons verifier ctx state height evidence context = .ok (validatorInfo, receipt, applySet)) :
    (∃ set, validators.validatorSet state.registry ctx evidence.height = .ok set) ∧ slashing.penaltyReceipt state.keeper ctx evidence = .ok receipt ∧
      applySet = validators.validatorSet state.registry ctx height := by
  simp only [checkSubmission, bind_ok_iff] at check
  obtain ⟨set, read, check⟩ := check
  split at check
  · cases check
  · simp only [bind_ok_iff] at check
    obtain ⟨-, -, known, found, check⟩ := check
    split at check
    · cases check
    · cases check
      exact ⟨⟨set, read⟩, found, rfl⟩

section Lawful

variable {Sound : Registry → Prop} {recorded : Registry → List Height} {Faithful : Change → Prop}

theorem live_of_read (enforcing : EnforcingRegistry validators Sound recorded Faithful) {registry : Registry} {position : Height} {set : SetSnapshot}
    (read : validators.validatorSet registry ctx position = .ok set) :
    ctx.done = false ∧ validators.validatorSet registry .background position = .ok set := by
  rw [enforcing.read] at read
  by_cases done : ctx.done
  · simp [done] at read
  · simpa [done] using read

variable (lawful : LawfulKeeper slashing) (enforcing : EnforcingRegistry validators Sound recorded Faithful)
include lawful enforcing

theorem submission_keeps (sound : Sound state.registry) (outcome : SlashingState Keeper Registry × Except Err SlashResult)
    (called : submitEvidenceForSlashingWithContext slashing validators reasons verifier ctx state applyHeight evidence context = outcome) :
    Sound outcome.1.registry ∧ (∀ other, Penalised slashing state.keeper other → Penalised slashing outcome.1.keeper other) ∧
      ∀ result, outcome.2 = .ok result → Penalised slashing outcome.1.keeper evidence := by
  rcases submission_cases outcome called with ⟨⟨reason, rfl⟩, -⟩ | ⟨validatorInfo, receipt, applySet, keeper, check, accepted, done⟩
  · exact ⟨sound, fun _ before => before, fun _ failed => nomatch failed⟩
  · obtain ⟨⟨set, read⟩, found, -⟩ := checked_receipt check
    dsimp only at done
    split at done
    · subst done
      exact ⟨sound, fun _ before => lawful.resubmitted accepted before, fun _ failed => nomatch failed⟩
    · next settledReceipt settledKeeper settled =>
        rw [done]
        refine ⟨?_, ?_⟩
        · split
          · exact sound
          · rw [enforce_registry]
            split
            · exact enforcing.change_sound sound _
            · exact sound
        · cases receipt with
          | some receipt =>
            cases settled
            rw [lawful.read (live_of_read enforcing read).1] at found
            exact ⟨fun _ before => lawful.resubmitted accepted before, fun _ _ => lawful.resubmitted accepted ⟨_, found⟩⟩
          | none =>
            obtain ⟨own, kept⟩ := lawful.applied settled
            exact ⟨fun _ before => kept _ (lawful.resubmitted accepted before), fun _ _ => own⟩

theorem after_keeps (steps : List SlashingStep) (sound : Sound state.registry) (penalised : Penalised slashing state.keeper evidence) :
    Sound (state.after slashing validators reasons steps).registry ∧
      Penalised slashing (state.after slashing validators reasons steps).keeper evidence := by
  induction steps generalizing state with
  | nil => exact ⟨sound, penalised⟩
  | cons step rest ih =>
    cases step with
    | submission verifier ctx applyHeight other context =>
      obtain ⟨nextSound, kept, -⟩ := submission_keeps lawful enforcing sound _ rfl
      exact ih nextSound (kept _ penalised)
    | penalty ctx other power =>
      apply ih
      · simp only [SlashingState.act]
        split <;> exact sound
      · simp only [SlashingState.act]
        split
        · next keeper applied => exact (lawful.applied applied).2 _ penalised
        · exact penalised
    | change call => exact ih (enforcing.change_sound sound call) penalised

theorem penalised_unchanged_iff (sound : Sound state.registry) (penalised : Penalised slashing state.keeper evidence) : (∀ position ≠ 0, ∀ id,
      votingPowerAt validators (submitEvidenceForSlashing slashing validators reasons verifier ctx state applyHeight evidence).1.registry position id =
        votingPowerAt validators state.registry position id) ↔
      ¬ Reenacts slashing validators reasons verifier ctx state applyHeight evidence := by
  have cases := submission_cases _ (rfl : submitEvidenceForSlashing slashing validators reasons verifier ctx state applyHeight evidence = _)
  constructor
  · rintro unchanged ⟨validatorInfo, receipt, set, applied, check, ⟨keeper, accepted⟩, found, differs⟩
    rcases cases with ⟨-, stopped⟩ | ⟨_, _, _, _, again, -, done⟩
    · exact stopped _ _ check accepted
    cases check.symm.trans again
    simp only [settle, Except.toOption, Option.bind_some, found, enforce_registry, if_pos differs] at done
    obtain ⟨-, -, read⟩ := checked_receipt check
    obtain ⟨live, shown⟩ := live_of_read enforcing read.symm
    have placed : applyHeightOf evidence applyHeight ≠ 0 := by
      unfold applyHeightOf
      split
      · exact lawful.placed accepted
      · assumption
    obtain ⟨answer, changed⟩ := enforcing.accepted sound live placed shown found receipt.remainingPower
    have resolved : validators.resolved state.registry (applyHeightOf evidence applyHeight) = applyHeightOf evidence applyHeight := if_neg placed
    obtain ⟨before, after, beforeRead, afterRead, effect, -⟩ := enforcing.applied_there sound changed (applyHeightOf evidence applyHeight)
      (resolved.symm ▸ ⟨UInt64.le_refl _, fun _ _ within => within⟩)
    cases shown.symm.trans beforeRead
    have power := unchanged _ placed evidence.validator
    rw [done, votingPowerAt, afterRead, votingPowerAt, shown] at power
    simp only [Except.toOption, Option.bind_some, found, Option.map_some] at power
    have takes := effect.mpr (enforcing.faithful _ _)
    unfold penaltyChange at takes
    by_cases zero : receipt.remainingPower = 0
    · simp only [zero, if_true, Change.shownBy] at takes
      rw [takes] at power
      cases power
    · simp only [zero, if_false, Change.shownBy] at takes
      exact differs.elim zero fun other => other (Option.some.inj (power.symm.trans takes))
  · intro still position nonzero id
    suffices same : (submitEvidenceForSlashing slashing validators reasons verifier ctx state applyHeight evidence).1.registry = state.registry by
      rw [same]
    rcases cases with ⟨⟨reason, stopped⟩, -⟩ | ⟨validatorInfo, receipt, applySet, keeper, check, accepted, done⟩
    · rw [stopped]
    · obtain ⟨⟨_, read⟩, known, -⟩ := checked_receipt check
      obtain ⟨receipt', kept⟩ := penalised
      rw [lawful.read (live_of_read enforcing read).1] at known
      cases known.symm.trans kept
      simp only [settle] at done
      rw [done]
      cases applySet with
      | error reason => rfl
      | ok set =>
        cases found : set.get evidence.validator with
        | none => simp [Except.toOption, found]
        | some applied =>
          simp only [Except.toOption, Option.bind_some, found]
          rw [enforce_registry, if_neg fun differs => still ⟨_, _, _, _, check, ⟨_, accepted⟩, found, differs⟩]

-- Resubmitting leaves every power as it is exactly when the receipt is not enforced on another power than it left.
theorem resubmission_changes_nothing_iff {first : SlashingState Keeper Registry} (sound : Sound first.registry)
    {firstVerifier : Option EvidenceVerifier} {firstCtx : Context} {firstHeight : Height} {result : SlashResult}
    (succeeded : (submitEvidenceForSlashing slashing validators reasons firstVerifier firstCtx first firstHeight evidence).2 = .ok result)
    (steps : List SlashingStep) (verifier : Option EvidenceVerifier) (ctx : Context) (applyHeight : Height) :
    let state := (submitEvidenceForSlashing slashing validators reasons firstVerifier firstCtx first firstHeight evidence).1.after slashing
      validators reasons steps
    (∀ position ≠ 0, ∀ id,
      votingPowerAt validators (submitEvidenceForSlashing slashing validators reasons verifier ctx state applyHeight evidence).1.registry position id =
        votingPowerAt validators state.registry position id) ↔
      ¬ Reenacts slashing validators reasons verifier ctx state applyHeight evidence := by
  intro state
  obtain ⟨firstSound, -, recordedFirst⟩ := submission_keeps lawful enforcing sound _ rfl
  obtain ⟨stateSound, penalised⟩ := after_keeps lawful enforcing steps firstSound (recordedFirst result succeeded)
  exact penalised_unchanged_iff lawful enforcing stateSound penalised

end Lawful

end Runs

def twoVotes : Evidence where
  type := .conflictingVote
  validator := utf8 "alice"
  height := 1
  round := 0
  proof := utf8 "\x7b\"first\":\x7b\"Height\":1,\"BlockHash\":[1],\"ValidatorID\":\"alice\",\"Signature\":\"AQ==\"\x7d,\"second\":\x7b\"Height\":1,\"BlockHash\":[2],\"ValidatorID\":\"alice\",\"Signature\":\"AQ==\"\x7d\x7d"

def anySignature : Option EvidenceVerifier := some ⟨fun _ _ _ => true, none⟩

variable (state : SlashingState InMemoryKeeper InMemoryRegistry)

def report (applyHeight : Height) : SlashingState InMemoryKeeper InMemoryRegistry × Except Err SlashResult :=
  submitEvidenceForSlashing memoryKeeper inMemory .empty anySignature .background state applyHeight twoVotes

def alicePower : Option VotingPower := votingPowerAt inMemory state.registry 10 (utf8 "alice")

theorem reports_evaluated : (newInMemoryRegistry none twoValidators).toOption.any (fun registry =>
    let (state, outcome) := report ⟨newInMemoryKeeper none, registry⟩ 1
    let raised := state.act memoryKeeper inMemory .empty (.change (raiseAlice 10))
    outcome.isOk ∧ alicePower raised = some 5 ∧ alicePower (report raised 10).1 = some 1 ∧
      ((checkSubmission memoryKeeper inMemory .empty anySignature .background state 1 twoVotes .zero).toOption.any fun (_, receipt, applySet) =>
        (receipt.map PenaltyReceipt.remainingPower).isEqSome 1 ∧
          applySet.toOption.any fun set => ((set.get (utf8 "alice")).map Validator.votingPower).isEqSome 1)) = true := by
  decide +kernel

-- Alice's power was raised to five after the penalty; reporting the same votes again takes it back to one.
theorem resubmission_lowers_power : ∃ registry, newInMemoryRegistry none twoValidators = .ok registry ∧
      let state := (report ⟨newInMemoryKeeper none, registry⟩ 1).1.after memoryKeeper inMemory .empty [.change (raiseAlice 10)]
      (report ⟨newInMemoryKeeper none, registry⟩ 1).2.isOk ∧ alicePower state = some 5 ∧ alicePower (report state 10).1 = some 1 := by
  obtain ⟨registry, opened, evaluated⟩ := exists_ok_of_any reports_evaluated
  simp only [decide_eq_true_eq] at evaluated
  exact ⟨registry, opened, evaluated.1, evaluated.2.1, evaluated.2.2.1⟩

theorem immediate_report_harmless :
    ∃ registry, newInMemoryRegistry none twoValidators = .ok registry ∧ (report ⟨newInMemoryKeeper none, registry⟩ 1).2.isOk ∧
      ∀ position ≠ 0, ∀ id, votingPowerAt inMemory (report (report ⟨newInMemoryKeeper none, registry⟩ 1).1 1).1.registry position id =
        votingPowerAt inMemory (report ⟨newInMemoryKeeper none, registry⟩ 1).1.registry position id := by
  obtain ⟨registry, opened, evaluated⟩ := exists_ok_of_any reports_evaluated
  simp only [decide_eq_true_eq] at evaluated
  obtain ⟨result, succeeded⟩ := exists_of_is_ok evaluated.1
  refine ⟨registry, opened, evaluated.1, (resubmission_changes_nothing_iff memory_keeper_lawful in_memory_enforcing
    (new_in_memory_sound opened) succeeded [] anySignature .background 1).mpr ?_⟩
  rintro ⟨validatorInfo, receipt, set, applied, check, -, found, differs⟩
  have settled := evaluated.2.2.2
  rw [show checkSubmission memoryKeeper inMemory .empty anySignature .background (report ⟨newInMemoryKeeper none, registry⟩ 1).1 1 twoVotes
    .zero = .ok (validatorInfo, some receipt, .ok set) from check] at settled
  have entry : set.get (utf8 "alice") = some applied := found
  simp [Except.toOption, entry] at settled
  rcases differs with none | other
  · rw [settled.1] at none
    cases none
  · exact other (settled.2.trans settled.1.symm)

end Vexo.Consensus
