import VexoConsensus.SnapshotExport
import VexoConsensus.Runtime.RegistryVersions

namespace Vexo.Execution

open ByteCodec Checks OrderedMap LevelDb App PrefixStore AList Snapshot

structure ExecutionConfig where
  baseFee : UInt64
  dynamicBaseFee : Bool
  (targetGas baseFeeChangeDenominator minBaseFee maxBaseFee blobBaseFee : UInt64)
  dynamicBlobBaseFee : Bool
  (targetBlobGas maxBlobGas blobFeeChangeDenominator minBlobBaseFee maxBlobBaseFee : UInt64)

structure Result where
  code : UInt32
  log : GoString
  data : Bytes
  (gasUsed feePaid : UInt64)
deriving DecidableEq

structure FinalizeBlockResponse where
  results : List Result
  appHash : Hash
  validatorUpdates : List ValidatorUpdate

structure Fees where
  (base blob : UInt64)

abbrev View := GoString → Bytes → Option Bytes

-- Some modules are bound to the store itself and write to it past the staged one, whether the block succeeds or not.
structure Effect where
  direct : List KVWrite
  upgradePlans : List Height
  outcome : Except AppErr (FinalizeBlockResponse × List KVWrite)

def Effect.writes (effect : Effect) : List KVWrite :=
  match effect.outcome with
  | .ok (_, staged) => effect.direct ++ staged
  | .error _ => effect.direct

-- The application the runtime is given. Binding it to a store saves the documents that are missing there, and no block deletes one.
structure Application where
  (modules spaces : List GoString)
  documents : List KVWrite
  finalizeBlockStaged : Fees → View → Block → Effect
  named : [] ∉ modules
  own : ∀ document ∈ documents, document.space ∈ spaces ∧ document.value.isSome
  keeps : ∀ fees view block, ∀ document ∈ documents, ∀ write ∈ (finalizeBlockStaged fees view block).writes,
    kvKey write.space write.key = kvKey document.space document.key → write.value.isSome

inductive RuntimeErr where
  | rollbackRequired | upgradePlanNotFound | upgradeExecutorMissing | blobGasLimitExceeded | validatorRegistryCommitFailed
  | app (reason : AppErr)
  | registry (reason : Err)
  | store (reason : StoreErr)
deriving DecidableEq, Repr

-- No upgrade executor is configured. The documents of the registry and the upgrade plans, by height, lie in the store as well.
structure Runtime where
  store : LevelDBStore
  upgradePlans : List Height
  registry : StoreRegistry
  upgradePlan : Option Height
  upgradeHalted : Bool
  height : Height
  appHash : Hash
  (currentBaseFee currentBlobBaseFee : UInt64)

section Fees

variable (config : ExecutionConfig) (runtime : Runtime)

def Runtime.baseFee : UInt64 := if runtime.currentBaseFee > 0 then runtime.currentBaseFee else config.baseFee

def Runtime.blobBaseFee : UInt64 := if runtime.currentBlobBaseFee > 0 then runtime.currentBlobBaseFee else config.blobBaseFee

-- A sum that leaves 64 bits stays at the largest value.
def totalOf : List UInt64 → UInt64 → UInt64
  | [], total => total
  | used :: rest, total => if total > ~~~0 - used then ~~~0 else totalOf rest (total + used)

def totalGasUsed (response : FinalizeBlockResponse) : UInt64 := totalOf (response.results.map Result.gasUsed) 0

def totalBlobGasUsed (txs : List Tx) : UInt64 := totalOf (txs.filterMap fun tx => txUintTag tx (utf8 "eth_blob_gas")) 0

def excessBlobGas (blobGasUsed target : UInt64) : UInt64 := if target = 0 ∨ blobGasUsed ≤ target then 0 else blobGasUsed - target

def nextBaseFee (current : UInt64) (response : FinalizeBlockResponse) : UInt64 :=
  if config.dynamicBaseFee = false then current
  else Economics.nextBaseFee
    ⟨current, totalGasUsed response, config.targetGas, config.baseFeeChangeDenominator, config.minBaseFee, config.maxBaseFee⟩

def nextBlobBaseFee (current blobGasUsed : UInt64) : UInt64 :=
  if config.dynamicBlobBaseFee = false then current
  else Economics.nextBaseFee
    ⟨current, blobGasUsed, config.targetBlobGas, config.blobFeeChangeDenominator, config.minBlobBaseFee, config.maxBlobBaseFee⟩

def validateBlockBlobGas (block : Block) : Except RuntimeErr UInt64 := do
  let blobGasUsed := totalBlobGasUsed block.txs
  require (¬ (config.maxBlobGas > 0 ∧ blobGasUsed > config.maxBlobGas)) .blobGasLimitExceeded
  return blobGasUsed

end Fees

def contents (store : LevelDBStore) (spaces : List GoString) : View :=
  fun space key => if space ∈ spaces then store.kv.lookup (kvKey space key) else none

def writeThrough (store : LevelDBStore) (writes : List KVWrite) : LevelDBStore := { store with kv := writes.foldl writeKV store.kv }

def bindStore (app : Application) (store : LevelDBStore) : LevelDBStore :=
  writeThrough store (app.documents.filter fun document => (store.kv.lookup (kvKey document.space document.key)).isNone)

section Lifecycle

variable (app : Application) (config : ExecutionConfig) (policy : Option AdmissionPolicy) (validators : List Validator)

def newRuntime (stored : StoreRegistry) (upgradePlans : List Height) (store : LevelDBStore) : Except Err Runtime := do
  let registry ← StoreRegistry.newStoreRegistry policy stored validators
  return ⟨bindStore app store, upgradePlans, registry, none, false, 0, zeroHash, config.baseFee, config.blobBaseFee⟩

def blankRegistry : StoreRegistry := ⟨none, 1, [], ∅, none, ∅, []⟩

def recordedFee (next used current : UInt64) : UInt64 := if next > 0 then next else if used > 0 then used else current

def Runtime.recover (runtime : Runtime) : Except StoreErr Runtime := do
  let state ← latestStateRecord runtime.store Context.background
  return { runtime with
    store := bindStore app runtime.store
    height := state.height
    appHash := state.appHash
    currentBaseFee := recordedFee state.nextBaseFee state.baseFee runtime.currentBaseFee
    currentBlobBaseFee := recordedFee state.nextBlobBaseFee state.blobBaseFee runtime.currentBlobBaseFee
    registry := if state.height > 0 then runtime.registry.setEffectiveHeight (state.height + 1) else runtime.registry }

-- A new runtime on a store into which a snapshot was restored.
def restart (store : LevelDBStore) : Except RuntimeErr Runtime :=
  match newRuntime app config policy validators blankRegistry [] store with
  | .error reason => .error (.registry reason)
  | .ok runtime =>
    match runtime.recover app with
    | .error reason => .error (.store reason)
    | .ok recovered => .ok recovered

end Lifecycle

section Execution

variable (app : Application) (config : ExecutionConfig)

def Runtime.applyUpgradeHook (runtime : Runtime) (height : Height) : Runtime × Except RuntimeErr Unit :=
  if runtime.upgradeHalted then (runtime, .error .rollbackRequired)
  else if runtime.upgradePlan = none ∧ height = 0 then (runtime, .error .upgradePlanNotFound)
  else
    let plan := runtime.upgradePlan.or (if height ∈ runtime.upgradePlans then some height else none)
    let runtime := { runtime with upgradePlan := plan }
    if plan.all fun due => height < due then (runtime, .ok ())
    else ({ runtime with upgradeHalted := true }, .error .upgradeExecutorMissing)

def Runtime.stageUpdates (runtime : Runtime) (block : Block) (response : FinalizeBlockResponse) :
    Except RuntimeErr (StoreRegistry × Hash × List RegistryWrite) :=
  if response.validatorUpdates.isEmpty then .ok (runtime.registry, block.header.validatorSetHash, [])
  else
    match runtime.registry.stageValidatorUpdatesAt Context.background (block.header.height + 1) response.validatorUpdates with
    | .error reason => .error (.registry reason)
    | .ok (registry, set, writes) => .ok (registry, set.hash, writes)

def commitBlock (store : LevelDBStore) (block : Block) (writes : List KVWrite) (record : StateRecord) : Except StoreErr LevelDBStore := do
  let stateRoots ← Snapshot.moduleStateRootsWithWrites store app.modules block.header.height writes
  commitBlockStateWithWrites store Context.background writes block.header.height (Consensus.hashBlock block) record stateRoots

def Runtime.stateRecord (runtime : Runtime) (block : Block) (response : FinalizeBlockResponse) (validatorSetHash : Hash) : StateRecord :=
  let blobGasUsed := totalBlobGasUsed block.txs
  ⟨block.header.height, response.appHash, Consensus.hashBlock block, validatorSetHash, runtime.baseFee config,
    nextBaseFee config (runtime.baseFee config) response, runtime.blobBaseFee config,
    nextBlobBaseFee config (runtime.blobBaseFee config) blobGasUsed, blobGasUsed, excessBlobGas blobGasUsed config.targetBlobGas⟩

def Runtime.commitStagedBlock (runtime : Runtime) (store : LevelDBStore) (registry : StoreRegistry) (record : StateRecord) : Runtime :=
  { runtime with
    store := store
    registry := registry
    height := record.height
    appHash := record.appHash
    currentBaseFee := record.nextBaseFee
    currentBlobBaseFee := record.nextBlobBaseFee }

-- A registry that cannot be brought up to date is recovered from the store.
def Runtime.reconcile (runtime : Runtime) (block : Block) (response : FinalizeBlockResponse) : Runtime × Except RuntimeErr FinalizeBlockResponse :=
  if response.validatorUpdates.isEmpty then (runtime, .ok response)
  else
    match runtime.registry.commitStagedValidatorUpdates (block.header.height + 1) response.validatorUpdates with
    | (registry, .ok _) => ({ runtime with registry := registry }, .ok response)
    | (registry, .error _) =>
      match Runtime.recover app { runtime with registry := registry } with
      | .ok recovered => (recovered, .ok response)
      | .error _ => ({ runtime with registry := registry }, .error .validatorRegistryCommitFailed)

def Runtime.executeBlockStaged (runtime : Runtime) (block : Block) (response : FinalizeBlockResponse) (writes : List KVWrite) :
    Runtime × Except RuntimeErr FinalizeBlockResponse :=
  match runtime.stageUpdates block response with
  | .error reason => (runtime, .error reason)
  | .ok (registry, validatorSetHash, validatorWrites) =>
    let record := runtime.stateRecord config block response validatorSetHash
    match commitBlock app runtime.store block writes record with
    | .error reason => ({ runtime with registry := registry }, .error (.store reason))
    | .ok store =>
      Runtime.reconcile app (runtime.commitStagedBlock store (registry.commitWrites validatorWrites) record) block response

-- The application's part: what it answers, and the runtime over the store it has written to.
def Runtime.finalize (runtime : Runtime) (block : Block) : Runtime × Except AppErr (FinalizeBlockResponse × List KVWrite) :=
  let effect := app.finalizeBlockStaged ⟨runtime.baseFee config, runtime.blobBaseFee config⟩ (contents runtime.store app.spaces) block
  ({ runtime with
    store := writeThrough runtime.store effect.direct
    upgradePlans := runtime.upgradePlans ++ effect.upgradePlans }, effect.outcome)

def Runtime.executeBlock (runtime : Runtime) (block : Block) : Runtime × Except RuntimeErr FinalizeBlockResponse :=
  match runtime.applyUpgradeHook block.header.height with
  | (runtime, .error reason) => (runtime, .error reason)
  | (runtime, .ok _) =>
    match validateBlockBlobGas config block with
    | .error reason => (runtime, .error reason)
    | .ok _ =>
      match Runtime.finalize app config runtime block with
      | (runtime, .error reason) => (runtime, .error (.app reason))
      | (runtime, .ok (response, writes)) => Runtime.executeBlockStaged app config runtime block response writes

def Runtime.executeAll (runtime : Runtime) : List Block → Runtime × List (Except RuntimeErr FinalizeBlockResponse)
  | [] => (runtime, [])
  | block :: rest =>
    let executed := Runtime.executeBlock app config runtime block
    let later := Runtime.executeAll executed.1 rest
    (later.1, executed.2 :: later.2)

def Runtime.run (runtime : Runtime) : List Block → Except RuntimeErr Runtime
  | [] => .ok runtime
  | block :: rest =>
    match Runtime.executeBlock app config runtime block with
    | (next, .ok _) => Runtime.run next rest
    | (_, .error reason) => .error reason

end Execution

section Values

variable {spaces : List GoString} {left right : LevelDBStore}

def SameValues (spaces : List GoString) (left right : LevelDBStore) : Prop :=
  ∀ space ∈ spaces, ∀ key, left.kv.lookup (kvKey space key) = right.kv.lookup (kvKey space key)

section

variable (same : SameValues spaces left right)
include same

theorem SameValues.contents_eq {seen : List GoString} (covered : ∀ space ∈ seen, space ∈ spaces) : contents left seen = contents right seen := by
  funext space key
  by_cases listed : space ∈ seen
  · rw [contents, contents, if_pos listed, if_pos listed, same space (covered space listed) key]
  · rw [contents, contents, if_neg listed, if_neg listed]

theorem SameValues.export_eq {space : GoString} (listed : space ∈ spaces) (ctx : Context) :
    exportNamespace left ctx space = exportNamespace right ctx space := by
  have scanned : scan left.kv (kvNamespacePrefix space) = scan right.kv (kvNamespacePrefix space) := by
    refine scan_congr fun raw under => ?_
    obtain ⟨key, rfl⟩ := under
    exact same space listed key
  simp only [exportNamespace, scanned]

theorem SameValues.roots_eq {names : List GoString} (covered : ∀ name ∈ names, name ∈ spaces) (height : Height) (writes : List KVWrite) :
    moduleStateRootsWithWrites left names height writes = moduleStateRootsWithWrites right names height writes := by
  unfold moduleStateRootsWithWrites
  induction names with
  | nil => rfl
  | cons name rest ih =>
    obtain ⟨first, later⟩ := List.forall_mem_cons.mp covered
    rw [List.mapM_cons, List.mapM_cons, ih later, rootWithWrites, rootWithWrites, same.export_eq first]

end

theorem write_all_congr {left right : Table Bytes Bytes} {raw : Bytes} (same : left.lookup raw = right.lookup raw) (writes : List KVWrite) :
    (writes.foldl writeKV left).lookup raw = (writes.foldl writeKV right).lookup raw := by
  induction writes generalizing left right with
  | nil => exact same
  | cons write rest ih =>
    refine ih ?_
    unfold writeKV
    by_cases here : raw = kvKey write.space write.key
    · subst here
      cases write.value with
      | none => simp only [lookup_erase]
      | some value => simp only [lookup_insert]
    · cases write.value with
      | none => simp only [lookup_erase_ne here, same]
      | some value => simp only [lookup_insert_ne here, same]

theorem SameValues.write_all (same : SameValues spaces left right) (writes : List KVWrite) :
    SameValues spaces (writeThrough left writes) (writeThrough right writes) :=
  fun space listed key => write_all_congr (same space listed key) writes

theorem commit_cases (left right : LevelDBStore) (writes : List KVWrite) (height : Height) (hash : Hash) (record : StateRecord)
    (roots : List StateRootRecord) :
    (∃ reason, commitBlockStateWithWrites left .background writes height hash record roots = .error reason ∧
      commitBlockStateWithWrites right .background writes height hash record roots = .error reason) ∨
    ∃ leftNext rightNext, commitBlockStateWithWrites left .background writes height hash record roots = .ok leftNext ∧
      commitBlockStateWithWrites right .background writes height hash record roots = .ok rightNext ∧
      leftNext.kv = writes.foldl writeKV left.kv ∧ rightNext.kv = writes.foldl writeKV right.kv := by
  simp only [commitBlockStateWithWrites, require, bind, Except.bind]
  split_ifs
  all_goals try exact .inl ⟨_, rfl, rfl⟩
  cases checkWrites writes with
  | error reason => exact .inl ⟨reason, rfl, rfl⟩
  | ok done => exact .inr ⟨_, _, rfl, rfl, rfl, rfl⟩

end Values

section Steps

variable {app : Application} {config : ExecutionConfig} {start : Height} {left right : Runtime} {block : Block}

structure Alike (app : Application) (config : ExecutionConfig) (start : Height) (left right : Runtime) : Prop where
  values : SameValues (Snapshot.auth :: app.modules) left.store right.store
  registry : StoreRegistry.SameFrom start left.registry right.registry
  baseFee : left.baseFee config = right.baseFee config
  blobBaseFee : left.blobBaseFee config = right.blobBaseFee config
  upgradePlans : ∀ height, start ≤ height → (height ∈ left.upgradePlans ↔ height ∈ right.upgradePlans)
  upgradePlan : left.upgradePlan = right.upgradePlan
  upgradeHalted : left.upgradeHalted = right.upgradeHalted

variable (alike : Alike app config start left right)
include alike

theorem Alike.hook {height : Height} (after : start ≤ height) : (left.applyUpgradeHook height).2 = (right.applyUpgradeHook height).2 ∧
      Alike app config start (left.applyUpgradeHook height).1 (right.applyUpgradeHook height).1 := by
  obtain ⟨values, registry, baseFee, blobBaseFee, upgradePlans, upgradePlan, upgradeHalted⟩ := alike
  simp only [Runtime.applyUpgradeHook, upgradePlan, upgradeHalted, upgradePlans height after]
  split_ifs
  · exact ⟨rfl, values, registry, baseFee, blobBaseFee, upgradePlans, upgradePlan, upgradeHalted⟩
  · exact ⟨rfl, values, registry, baseFee, blobBaseFee, upgradePlans, upgradePlan, upgradeHalted⟩
  all_goals exact ⟨rfl, values, registry, baseFee, blobBaseFee, upgradePlans, rfl, rfl⟩

theorem Alike.finalize (covered : ∀ space ∈ app.spaces, space ∈ auth :: app.modules) (block : Block) :
    (Runtime.finalize app config left block).2 = (Runtime.finalize app config right block).2 ∧
      Alike app config start (Runtime.finalize app config left block).1 (Runtime.finalize app config right block).1 := by
  simp only [Runtime.finalize, alike.baseFee, alike.blobBaseFee, alike.values.contents_eq covered, true_and]
  refine ⟨alike.values.write_all _, alike.registry, alike.baseFee, alike.blobBaseFee, fun height after => ?_, alike.upgradePlan, alike.upgradeHalted⟩
  simp only [List.mem_append, alike.upgradePlans height after]

theorem Alike.commit (block : Block) (writes : List KVWrite) (record : StateRecord) :
    (∃ reason, commitBlock app left.store block writes record = .error reason ∧ commitBlock app right.store block writes record = .error reason) ∨
    ∃ leftNext rightNext, commitBlock app left.store block writes record = .ok leftNext ∧
      commitBlock app right.store block writes record = .ok rightNext ∧ SameValues (auth :: app.modules) leftNext rightNext := by
  have roots := alike.values.roots_eq (fun name listed => List.mem_cons_of_mem _ listed) block.header.height writes
  simp only [commitBlock, roots]
  cases moduleStateRootsWithWrites right.store app.modules block.header.height writes with
  | error reason => exact .inl ⟨reason, rfl, rfl⟩
  | ok found =>
    simp only [bind, Except.bind]
    rcases commit_cases left.store right.store writes block.header.height (Consensus.hashBlock block) record found with
      failed | ⟨leftNext, rightNext, leftDone, rightDone, leftValues, rightValues⟩
    · exact .inl failed
    · refine .inr ⟨leftNext, rightNext, leftDone, rightDone, fun space listed key => ?_⟩
      rw [leftValues, rightValues]
      exact write_all_congr (alike.values space listed key) writes

omit alike in
theorem next_height {height : Height} (after : start ≤ height) (below : height < Economics.maxUint64) : start < height + 1 := by
  have bound : height.toNat < 2 ^ 64 - 1 := UInt64.lt_iff_toNat_lt.mp below
  have order := UInt64.le_iff_toNat_le.mp after
  rw [UInt64.lt_iff_toNat_lt, UInt64.toNat_add, UInt64.toNat_one, Nat.mod_eq_of_lt (by omega)]
  omega

theorem Alike.with_registry {leftNext rightNext : StoreRegistry} (same : StoreRegistry.SameFrom start leftNext rightNext) :
    Alike app config start { left with registry := leftNext } { right with registry := rightNext } :=
  ⟨alike.values, same, alike.baseFee, alike.blobBaseFee, alike.upgradePlans, alike.upgradePlan, alike.upgradeHalted⟩

theorem Alike.advance {leftStore rightStore : LevelDBStore}
    (values : SameValues (auth :: app.modules) leftStore rightStore) {leftNext rightNext : StoreRegistry}
    (registry : StoreRegistry.SameFrom start leftNext rightNext) (record : StateRecord) :
    Alike app config start (left.commitStagedBlock leftStore leftNext record) (right.commitStagedBlock rightStore rightNext record) :=
  ⟨values, registry, rfl, rfl, alike.upgradePlans, alike.upgradePlan, alike.upgradeHalted⟩

omit alike in
theorem reconcile_stored {runtime : Runtime} {response : FinalizeBlockResponse} {document : ValidatorSetDocument}
    (changed : ¬ response.validatorUpdates.isEmpty = true) (nonzero : block.header.height + 1 ≠ 0)
    (stored : runtime.registry.loadLatest (block.header.height + 1) = .ok document) :
    ∃ registry, Runtime.reconcile app runtime block response = ({ runtime with registry := registry }, .ok response) ∧
      StoreRegistry.SameDocuments registry runtime.registry := by
  obtain ⟨registry, committed, same⟩ :=
    StoreRegistry.commit_staged_documents runtime.registry nonzero stored response.validatorUpdates
  exact ⟨registry, by rw [Runtime.reconcile, if_neg changed, committed], same⟩

theorem Alike.staged (after : start < block.header.height + 1) (response : FinalizeBlockResponse) (writes : List KVWrite) :
    (Runtime.executeBlockStaged app config left block response writes).2 = (Runtime.executeBlockStaged app config right block response writes).2 ∧
      Alike app config start (Runtime.executeBlockStaged app config left block response writes).1
        (Runtime.executeBlockStaged app config right block response writes).1 := by
  have nonzero : block.header.height + 1 ≠ 0 := fun zero => UInt64.not_lt_zero (zero ▸ after)
  have records : ∀ hash, left.stateRecord config block response hash = right.stateRecord config block response hash := by
    intro hash
    simp only [Runtime.stateRecord, alike.baseFee, alike.blobBaseFee]
  by_cases none : response.validatorUpdates.isEmpty = true
  · simp only [Runtime.executeBlockStaged, Runtime.stageUpdates, if_pos none, records]
    rcases alike.commit block writes (right.stateRecord config block response block.header.validatorSetHash) with
      ⟨reason, leftFailed, rightFailed⟩ | ⟨leftStore, rightStore, leftDone, rightDone, values⟩
    · simp only [leftFailed, rightFailed]
      exact ⟨trivial, alike⟩
    · simp only [leftDone, rightDone, Runtime.reconcile, if_pos none]
      exact ⟨trivial, alike.advance values alike.registry _⟩
  · rcases alike.registry.stage after .background response.validatorUpdates with
      ⟨reason, leftRefused, rightRefused⟩ | ⟨set, leftStaged, leftWrites, rightStaged, rightWrites, document, leftOk, rightOk, leftSame,
        rightSame, leftNext, rightNext⟩
    · simp only [Runtime.executeBlockStaged, Runtime.stageUpdates, if_neg none, leftRefused, rightRefused]
      exact ⟨trivial, alike⟩
    · simp only [Runtime.executeBlockStaged, Runtime.stageUpdates, if_neg none, leftOk, rightOk, records]
      rcases alike.commit block writes (right.stateRecord config block response set.hash) with
        ⟨reason, leftFailed, rightFailed⟩ | ⟨leftStore, rightStore, leftDone, rightDone, values⟩
      · simp only [leftFailed, rightFailed]
        exact ⟨trivial, alike.with_registry (alike.registry.of_documents leftSame rightSame)⟩
      · have registries := alike.registry.versioned after leftNext rightNext
        obtain ⟨leftHeights, rightHeights, leftStored, rightStored, -⟩ := alike.registry.kept
        have advanced := alike.advance values registries (right.stateRecord config block response set.hash)
        obtain ⟨leftFinal, leftEq, leftDocuments⟩ := @reconcile_stored app block (left.commitStagedBlock leftStore
          (leftStaged.commitWrites leftWrites) (right.stateRecord config block response set.hash)) response document none nonzero
          (leftNext.load_latest leftStored nonzero)
        obtain ⟨rightFinal, rightEq, rightDocuments⟩ := @reconcile_stored app block (right.commitStagedBlock rightStore
          (rightStaged.commitWrites rightWrites) (right.stateRecord config block response set.hash)) response document none nonzero
          (rightNext.load_latest rightStored nonzero)
        simp only [leftDone, rightDone, leftEq, rightEq]
        exact ⟨trivial, advanced.with_registry (registries.of_documents leftDocuments rightDocuments)⟩

theorem Alike.execute (covered : ∀ space ∈ app.spaces, space ∈ auth :: app.modules)
    (after : start ≤ block.header.height) (below : block.header.height < Economics.maxUint64) :
    (Runtime.executeBlock app config left block).2 = (Runtime.executeBlock app config right block).2 ∧
      Alike app config start (Runtime.executeBlock app config left block).1 (Runtime.executeBlock app config right block).1 := by
  obtain ⟨hooks, hooked⟩ := alike.hook after
  unfold Runtime.executeBlock
  generalize left.applyUpgradeHook block.header.height = leftHook at hooks hooked ⊢
  generalize right.applyUpgradeHook block.header.height = rightHook at hooks hooked ⊢
  obtain ⟨left, leftHook⟩ := leftHook
  obtain ⟨right, rightHook⟩ := rightHook
  cases hooks
  cases leftHook with
  | error reason => exact ⟨rfl, hooked⟩
  | ok done =>
    cases validateBlockBlobGas config block with
    | error reason => exact ⟨rfl, hooked⟩
    | ok used =>
      obtain ⟨answers, finalized⟩ := hooked.finalize covered block
      simp only
      generalize Runtime.finalize app config left block = leftFinal at answers finalized ⊢
      generalize Runtime.finalize app config right block = rightFinal at answers finalized ⊢
      obtain ⟨left, leftAnswer⟩ := leftFinal
      obtain ⟨right, rightAnswer⟩ := rightFinal
      cases answers
      cases leftAnswer with
      | error reason => exact ⟨rfl, finalized⟩
      | ok answer => exact finalized.staged (next_height after below) answer.1 answer.2

def Follows : Height → List Block → Prop
  | _, [] => True
  | height, block :: rest => height < block.header.height ∧ block.header.height < Economics.maxUint64 ∧ Follows block.header.height rest

theorem Alike.execute_all (covered : ∀ space ∈ app.spaces, space ∈ auth :: app.modules)
    (blocks : List Block) (later : ∀ block ∈ blocks, start ≤ block.header.height ∧ block.header.height < Economics.maxUint64) :
    (Runtime.executeAll app config left blocks).2 = (Runtime.executeAll app config right blocks).2 ∧
      Alike app config start (Runtime.executeAll app config left blocks).1 (Runtime.executeAll app config right blocks).1 := by
  induction blocks generalizing left right with
  | nil => exact ⟨rfl, alike⟩
  | cons block rest ih =>
    obtain ⟨⟨after, below⟩, later⟩ := List.forall_mem_cons.mp later
    obtain ⟨answers, executed⟩ := alike.execute covered after below
    obtain ⟨others, reached⟩ := ih executed later
    exact ⟨by rw [Runtime.executeAll, Runtime.executeAll, answers, others], reached⟩

end Steps

section Reached

variable {app : Application} {config : ExecutionConfig} {policy : Option AdmissionPolicy}

theorem write_all_present {table : Table Bytes Bytes} {raw : Bytes} (writes : List KVWrite)
    (kept : ∀ write ∈ writes, kvKey write.space write.key = raw → write.value.isSome)
    (present : table.lookup raw ≠ none ∨ ∃ write ∈ writes, kvKey write.space write.key = raw) :
    (writes.foldl writeKV table).lookup raw ≠ none := by
  induction writes generalizing table with
  | nil => exact present.resolve_right fun ⟨_, listed, _⟩ => nomatch listed
  | cons write rest ih =>
    obtain ⟨first, later⟩ := List.forall_mem_cons.mp kept
    refine ih later ?_
    by_cases here : kvKey write.space write.key = raw
    · obtain ⟨value, given⟩ := Option.isSome_iff_exists.mp (first here)
      refine .inl ?_
      rw [writeKV, given, here, lookup_insert]
      exact Option.some_ne_none _
    · rcases present with held | ⟨other, listed, named⟩
      · refine .inl ?_
        unfold writeKV
        cases write.value with
        | none => rwa [lookup_erase_ne (Ne.symm here)]
        | some value => rwa [lookup_insert_ne (Ne.symm here)]
      · rcases List.mem_cons.mp listed with rfl | listed
        · exact absurd named here
        · exact .inr ⟨other, listed, named⟩

def Bound (app : Application) (store : LevelDBStore) : Prop :=
  ∀ document ∈ app.documents, store.kv.lookup (kvKey document.space document.key) ≠ none

theorem bind_store_bound (app : Application) (store : LevelDBStore) : Bound app (bindStore app store) := by
  intro document listed
  refine write_all_present _ (fun write missing _ => (app.own write (List.mem_of_mem_filter missing)).2) ?_
  by_cases held : store.kv.lookup (kvKey document.space document.key) = none
  · exact .inr ⟨document, List.mem_filter.mpr ⟨listed, by simp [held]⟩, rfl⟩
  · exact .inl held

theorem bind_store_of_bound {store : LevelDBStore} (bound : Bound app store) : bindStore app store = store := by
  have none : app.documents.filter (fun document => (store.kv.lookup (kvKey document.space document.key)).isNone) = [] := by
    refine List.filter_eq_nil_iff.mpr fun document listed missing => bound document listed ?_
    exact Option.isNone_iff_eq_none.mp missing
  rw [bindStore, none]
  rfl

structure Reached (app : Application) (policy : Option AdmissionPolicy) (height : Height) (runtime : Runtime) : Prop where
  bound : Bound app runtime.store
  reached : runtime.height = height
  policy : runtime.registry.policy = policy
  versions : ∃ heights, runtime.registry.heights = some heights ∧ ∀ listed ∈ heights, listed ≤ height + 1
  noPlan : runtime.upgradePlan = none ∧ runtime.upgradeHalted = false
  recorded : ∀ state, runtime.store.latestState = some state →
    state.height = height ∧ runtime.currentBaseFee = state.nextBaseFee ∧ runtime.currentBlobBaseFee = state.nextBlobBaseFee

variable {block : Block} {answer : FinalizeBlockResponse} {height : Height} {runtime : Runtime} {next : Runtime}

theorem hook_passed {done : Unit} (noPlan : runtime.upgradePlan = none ∧ runtime.upgradeHalted = false)
    (passed : runtime.applyUpgradeHook height = (next, .ok done)) : next = runtime := by
  obtain ⟨plan, halted⟩ := noPlan
  rw [Runtime.applyUpgradeHook, halted, plan] at passed
  simp only [Bool.false_eq_true, if_false, true_and, Option.none_or] at passed
  split_ifs at passed with zero planned due due
  · cases passed
  · simp at due
  · cases passed
  · cases passed
    cases runtime
    cases plan
    cases halted
    rfl
  · simp at due

variable {heights : List Height}

theorem same_from_self {registry : StoreRegistry} (stored : registry.heights = some heights) (start : Height) :
    StoreRegistry.SameFrom start registry registry :=
  ⟨rfl, ⟨heights, heights, stored, stored, fun _ _ => Iff.rfl⟩, fun _ _ _ _ _ => rfl, rfl⟩

variable {writes : List KVWrite}

theorem commit_block_ok {store next : LevelDBStore} {record : StateRecord} (committed : commitBlock app store block writes record = .ok next) :
    next.kv = writes.foldl writeKV store.kv ∧ next.latestState = some record := by
  simp only [commitBlock, bind_ok_iff, commitBlockStateWithWrites, require_ok_iff, exists_const] at committed
  obtain ⟨roots, -, -, -, -, -, ⟨⟩, -, returned⟩ := committed
  cases returned
  exact ⟨rfl, rfl⟩

structure Advanced (app : Application) (config : ExecutionConfig) (runtime : Runtime) (block : Block) (response : FinalizeBlockResponse)
    (writes : List KVWrite) (heights : List Height) (next : Runtime) : Prop where
  committed : ∃ hash, commitBlock app runtime.store block writes (runtime.stateRecord config block response hash) = .ok next.store ∧
    next.currentBaseFee = (runtime.stateRecord config block response hash).nextBaseFee ∧
    next.currentBlobBaseFee = (runtime.stateRecord config block response hash).nextBlobBaseFee
  height : next.height = block.header.height
  plans : next.upgradePlan = runtime.upgradePlan ∧ next.upgradeHalted = runtime.upgradeHalted
  policy : next.registry.policy = runtime.registry.policy
  versions : ∃ later, next.registry.heights = some later ∧ ∀ listed ∈ later, listed ∈ heights ∨ listed = block.header.height + 1

theorem staged_advanced {response : FinalizeBlockResponse} (stored : runtime.registry.heights = some heights) (nonzero : block.header.height + 1 ≠ 0)
    (executed : Runtime.executeBlockStaged app config runtime block response writes = (next, .ok answer)) :
    Advanced app config runtime block response writes heights next := by
  by_cases none : response.validatorUpdates.isEmpty = true
  · simp only [Runtime.executeBlockStaged, Runtime.stageUpdates, if_pos none] at executed
    split at executed
    · cases executed
    · next store committed =>
      simp only [Runtime.reconcile, if_pos none] at executed
      cases executed
      exact ⟨⟨_, committed, rfl, rfl⟩, rfl, ⟨rfl, rfl⟩, rfl, ⟨heights, stored, fun _ => .inl⟩⟩
  · have after : (0 : Height) < block.header.height + 1 := UInt64.pos_iff_ne_zero.mpr nonzero
    rcases (same_from_self stored 0).stage after .background response.validatorUpdates with
      ⟨reason, refused, -⟩ | ⟨set, staged, stagedWrites, -, -, document, accepted, -, same, -, versioned, -⟩
    · simp only [Runtime.executeBlockStaged, Runtime.stageUpdates, if_neg none, refused] at executed
      cases executed
    · simp only [Runtime.executeBlockStaged, Runtime.stageUpdates, if_neg none, accepted] at executed
      cases committed : commitBlock app runtime.store block writes (runtime.stateRecord config block response set.hash) with
      | error reason =>
        rw [committed] at executed
        cases executed
      | ok store =>
        obtain ⟨later, kept, members⟩ := versioned.heights heights stored
        obtain ⟨registry, reconciled, documents⟩ := @reconcile_stored app block (runtime.commitStagedBlock store
          (staged.commitWrites stagedWrites) (runtime.stateRecord config block response set.hash)) response document none nonzero
          (versioned.load_latest stored nonzero)
        simp only [committed, reconciled] at executed
        cases executed
        refine ⟨⟨_, committed, rfl, rfl⟩, rfl, ⟨rfl, rfl⟩, documents.policy.trans versioned.policy, ⟨later, documents.heights.trans kept, ?_⟩⟩
        exact fun listed member => (members listed).mp member

theorem block_staged (executed : Runtime.executeBlock app config runtime block = (next, .ok answer)) :
    ∃ hooked done response writes, runtime.applyUpgradeHook block.header.height = (hooked, .ok done) ∧
      (Runtime.finalize app config hooked block).2 = .ok (response, writes) ∧
      Runtime.executeBlockStaged app config (Runtime.finalize app config hooked block).1 block response writes = (next, .ok answer) := by
  rw [Runtime.executeBlock] at executed
  cases hook : runtime.applyUpgradeHook block.header.height with
  | mk hooked passed =>
    rw [hook] at executed
    cases passed with
    | error reason => cases executed
    | ok done =>
      cases blob : validateBlockBlobGas config block with
      | error reason =>
        rw [blob] at executed
        cases executed
      | ok used =>
        simp only [blob] at executed
        cases answered : Runtime.finalize app config hooked block with
        | mk written outcome =>
          rw [answered] at executed
          cases outcome with
          | error reason => cases executed
          | ok result => exact ⟨hooked, done, result.1, result.2, rfl, by rw [answered], by rw [answered]; exact executed⟩

theorem Reached.step
    (reached : Reached app policy height runtime) (after : height < block.header.height) (below : block.header.height < Economics.maxUint64)
    (executed : Runtime.executeBlock app config runtime block = (next, .ok answer)) : Reached app policy block.header.height next := by
  obtain ⟨hooked, done, response, writes, hook, outcome, staged⟩ := block_staged executed
  obtain rfl := hook_passed reached.noPlan hook
  obtain ⟨heights, stored, bounded⟩ := reached.versions
  have written : (Runtime.finalize app config hooked block).1.registry.heights = some heights := stored
  have beyond := next_height (UInt64.le_of_lt after) below
  have nonzero : block.header.height + 1 ≠ 0 := fun zero => UInt64.not_lt_zero (zero ▸ beyond)
  obtain ⟨⟨hash, committed, base, blob⟩, height, plans, policies, later, kept, members⟩ := staged_advanced written nonzero staged
  obtain ⟨values, latest⟩ := commit_block_ok committed
  refine ⟨fun document listed => ?_, height, policies.trans reached.policy, ⟨later, kept, fun listed member => ?_⟩,
    ⟨plans.1.trans reached.noPlan.1, plans.2.trans reached.noPlan.2⟩, fun state found => ?_⟩
  · have replayed : next.store.kv = (app.finalizeBlockStaged ⟨hooked.baseFee config, hooked.blobBaseFee config⟩
        (contents hooked.store app.spaces) block).writes.foldl writeKV hooked.store.kv := by
      rw [values, Effect.writes, show (app.finalizeBlockStaged _ _ _).outcome = _ from outcome, List.foldl_append]
      rfl
    rw [replayed]
    exact write_all_present _ (fun write => app.keeps _ _ _ document listed write) (.inl (reached.bound document listed))
  · rcases members listed member with before | rfl
    · refine UInt64.le_trans (bounded listed before) ?_
      have order := UInt64.lt_iff_toNat_lt.mp after
      have bound : block.header.height.toNat < 2 ^ 64 - 1 := UInt64.lt_iff_toNat_lt.mp below
      rw [UInt64.le_iff_toNat_le, UInt64.toNat_add, UInt64.toNat_add, UInt64.toNat_one, Nat.mod_eq_of_lt (by omega), Nat.mod_eq_of_lt (by omega)]
      omega
    · exact UInt64.le_refl _
  · rw [latest] at found
    cases found
    exact ⟨rfl, base, blob⟩

theorem run_reached (blocks : List Block) {source : Runtime} (reached : Reached app policy height runtime)
    (below : height < Economics.maxUint64) (followed : Follows height blocks) (ran : Runtime.run app config runtime blocks = .ok source) :
    ∃ last < Economics.maxUint64, Reached app policy last source := by
  induction blocks generalizing runtime height with
  | nil =>
    cases ran
    exact ⟨height, below, reached⟩
  | cons block rest ih =>
    obtain ⟨after, below, followed⟩ := followed
    rw [Runtime.run] at ran
    cases executed : Runtime.executeBlock app config runtime block with
    | mk next answer =>
      cases answer with
      | error reason =>
        rw [executed] at ran
        cases ran
      | ok response =>
        rw [executed] at ran
        exact ih (reached.step after below executed) below followed ran

end Reached

end Vexo.Execution
