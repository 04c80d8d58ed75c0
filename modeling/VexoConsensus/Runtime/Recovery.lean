import VexoConsensus.Runtime.Continuation

namespace Vexo.Execution

open ByteCodec Checks OrderedMap LevelDb App Snapshot List StoreRegistry

section Exports

variable {store : LevelDBStore} {document : SnapshotDocument} {spaces : List GoString}

theorem collect_namespaces_mem {height : Height} {roots found : List StateRootRecord} {kv gathered : List KVPair}
    (collected : collectNamespaces store height spaces roots kv = .ok (found, gathered)) (pair : KVPair) :
    pair ∈ gathered ↔ pair ∈ kv ∨ pair.space ∈ spaces ∧ store.kv.lookup (kvKey pair.space pair.key) = some pair.value := by
  induction spaces generalizing roots kv with
  | nil =>
    cases collected
    simp
  | cons space rest ih =>
    have step : ∃ pairs roots, exportNamespace store .background space = .ok pairs ∧
        collectNamespaces store height rest roots (kv ++ pairs) = .ok (found, gathered) := by
      rw [collectNamespaces] at collected
      split at collected
      · obtain ⟨pairs, exported, collected⟩ := bind_ok_iff.mp collected
        exact ⟨pairs, _, exported, collected⟩
      · cases collected
      · obtain ⟨pairs, exported, collected⟩ := bind_ok_iff.mp collected
        exact ⟨pairs, _, exported, collected⟩
    obtain ⟨pairs, roots, exported, collected⟩ := step
    rw [ih collected, mem_append, export_mem exported, mem_cons]
    grind

variable {names : List GoString}

theorem collect_modules_mem {height : Height} {roots found : List StateRootRecord} {kv gathered : List KVPair}
    (collected : collectModules store .background height names roots kv = .ok (found, gathered)) (pair : KVPair) :
    pair ∈ gathered ↔ pair ∈ kv ∨ pair.space ∈ names ∧ store.kv.lookup (kvKey pair.space pair.key) = some pair.value := by
  induction names generalizing roots kv with
  | nil =>
    cases collected
    simp
  | cons name rest ih =>
    simp only [collectModules, bind_ok_iff] at collected
    obtain ⟨root, -, pairs, exported, collected⟩ := collected
    rw [ih collected, mem_append, export_mem exported, mem_cons]
    grind

theorem mem_sorted_kv_pairs {pairs : List KVPair} {pair : KVPair} : pair ∈ sortedKVPairs pairs ↔ pair ∈ pairs := mem_mergeSort

theorem latest_record_read {state : StateRecord} (read : latestStateRecord store .background = .ok state) : store.latestState = some state := by
  cases found : store.latestState with
  | none => simp [latestStateRecord, found] at read
  | some recorded =>
    simp only [latestStateRecord, found, ok_iff] at read
    obtain ⟨-, -, returned⟩ := read
    cases returned
    rfl

theorem command_document {chainID : GoString} (named : [] ∉ spaces) (built : buildSnapshotDocument store chainID spaces = .ok document) :
    store.latestState = some document.state ∧
      (∀ pair, pair ∈ document.kv ↔ pair.space ∈ spaces ∧ store.kv.lookup (kvKey pair.space pair.key) = some pair.value) ∧
      (∀ pair ∈ document.kv, pair.space ∈ document.modules) ∧ ∀ space ∈ document.modules, space ∈ spaces := by
  simp only [buildSnapshotDocument, bind_ok_iff] at built
  obtain ⟨state, latest, ⟨roots, kv⟩, collected, returned⟩ := built
  cases returned
  have members := collect_namespaces_mem collected
  have listed : ∀ pair, pair ∈ sortedKVPairs kv ↔ pair.space ∈ spaces ∧ store.kv.lookup (kvKey pair.space pair.key) = some pair.value := by
    intro pair
    rw [mem_sorted_kv_pairs, members]
    simp
  refine ⟨latest_record_read latest, listed, fun pair member => ?_, fun space declared => ?_⟩
  · obtain ⟨exported, -⟩ := (listed pair).mp member
    have filled : pair.space ≠ [] := fun empty => named (empty ▸ exported)
    refine mem_sorted_strings.mpr ⟨mem_filter.mpr ⟨?_, ?_⟩, filled⟩
    · exact mem_append_right _ (mem_map_of_mem (mem_sorted_kv_pairs.mp member))
    · simpa using ⟨exported, filled⟩
  · obtain ⟨active, -⟩ := mem_sorted_strings.mp declared
    have allowed := (mem_filter.mp active).2
    simp only [decide_eq_true_eq, mem_filter] at allowed
    exact allowed.1

theorem rpc_document {snapshot : StateSnapshot} (taken : stateSnapshot store .background names = .ok snapshot) :
    (∃ state, store.latestState = some state ∧ (snapshotExportResponse snapshot).state.height = state.height) ∧
      ∀ pair, pair ∈ (snapshotExportResponse snapshot).kv ↔ pair.space ∈ names ∧ store.kv.lookup (kvKey pair.space pair.key) = some pair.value := by
  simp only [stateSnapshot, bind_ok_iff] at taken
  obtain ⟨state, latest, ⟨roots, kv⟩, collected, returned⟩ := taken
  cases returned
  refine ⟨⟨state, latest_record_read latest, rfl⟩, fun pair => ?_⟩
  show pair ∈ sortedKVPairs kv ↔ _
  rw [mem_sorted_kv_pairs, collect_modules_mem collected]
  simp

end Exports

section Restoring

variable {document : SnapshotDocument} {store : LevelDBStore}

theorem save_roots_kept (kv : List KVPair) (records : List StateRootRecord) (store : LevelDBStore) :
    (saveRoots .background kv store records).1.kv = store.kv ∧ (saveRoots .background kv store records).1.latestState = store.latestState := by
  induction records generalizing store with
  | nil => exact ⟨rfl, rfl⟩
  | cons record rest ih =>
    rw [saveRoots]
    cases saved : saveStateRoot store .background record with
    | error reason => exact ⟨rfl, rfl⟩
    | ok next =>
      have same : next.kv = store.kv ∧ next.latestState = store.latestState := by
        simp only [saveStateRoot, ok_iff] at saved
        obtain ⟨-, -, returned⟩ := saved
        cases returned
        exact ⟨rfl, rfl⟩
      obtain ⟨values, latest⟩ := ih next
      simp only
      split_ifs
      · exact ⟨values.trans same.1, latest.trans same.2⟩
      · cases root next .background record.space with
        | error reason => exact same
        | ok actual =>
          simp only
          split_ifs
          · exact same
          · exact ⟨values.trans same.1, latest.trans same.2⟩

theorem restored_document (restored : restoreSnapshotDocumentWithContext .background emptyStore document = (store, .ok ())) :
    Checked document ∧ store.kv = (imported document.kv emptyStore document.modules).kv ∧ store.latestState = some document.state := by
  rw [restoreSnapshotDocumentWithContext] at restored
  cases valid : validateSnapshotDocument document [] with
  | error reason =>
    rw [valid] at restored
    cases restored
  | ok done =>
    cases rooted : validateSnapshotKVRoots document with
    | error reason =>
      rw [valid, rooted] at restored
      cases restored
    | ok done' =>
      have checked := checked_of_valid valid rooted
      have live : Context.background.done = false := rfl
      rw [valid, rooted] at restored
      simp only [import_modules_eq live fun pair listed => (checked.pairs pair listed).2.1] at restored
      by_cases empty : [] ∈ document.modules
      · rw [if_pos empty] at restored
        cases restored
      · have whole : document.modules.takeWhile (· ≠ []) = document.modules := by
          refine takeWhile_eq_self_iff.mpr fun space listed => decide_eq_true ?_
          rintro rfl
          exact empty listed
        have saved : ∀ store, saveState store .background document.state = .ok (recordState store document.state) := by
          intro store
          simp only [saveState, ok_iff]
          exact ⟨live, checked.height, rfl⟩
        rw [if_neg empty, whole] at restored
        simp only [saved] at restored
        obtain ⟨values, latest⟩ := save_roots_kept document.kv document.stateRoots
          (recordState (imported document.kv emptyStore document.modules) document.state)
        rw [restored] at values latest
        exact ⟨checked, values, latest⟩

theorem imported_origin {kv : List KVPair} (modules : List GoString) (once : KeysOnce kv modules) {raw value : Bytes}
    (held : (imported kv emptyStore modules).kv.lookup raw = some value) :
    ∃ space key, raw = kvKey space key ∧ (⟨space, key, value⟩ : KVPair) ∈ kv := by
  induction modules using reverseRecOn with
  | nil => cases held
  | append_singleton earlier last ih =>
    rw [imported_append, lookup_import_one (once last (mem_append_right _ (mem_singleton_self _)))] at held
    rcases held with ⟨key, named, listed⟩ | ⟨-, before⟩
    · exact ⟨last, key, named, listed⟩
    · exact ih (forall_mem_append.mp once).1 before

end Restoring

section Continuing

variable {app : Application} {config : ExecutionConfig} {policy : Option AdmissionPolicy} {validators : List Validator}
  {first source target : Runtime} {chainID : GoString}

def SameFuture (app : Application) (config : ExecutionConfig) (source target : Runtime) : Prop :=
  ∀ further, Follows source.height further → let left := Runtime.executeAll app config source further
    let right := Runtime.executeAll app config target further
    left.2 = right.2 ∧ (∀ height > source.height, left.1.registry.validatorSet height = right.1.registry.validatorSet height) ∧
      left.1.baseFee config = right.1.baseFee config ∧ left.1.blobBaseFee config = right.1.blobBaseFee config

-- The application keeps to the exported namespaces, the set of the next height is that of genesis, and no upgrade is planned.
structure Kept (app : Application) (first source : Runtime) : Prop where
  exported : ∀ space ∈ app.spaces, space ∈ auth :: app.modules
  validators : source.registry.loadLatest (source.height + 1) = first.registry.loadLatest (source.height + 1)
  upgradePlans : ∀ height ∈ source.upgradePlans, height ≤ source.height

-- A next fee of zero is taken for one that was not recorded.
def FeeRead (configured next used : UInt64) : Prop := next ≠ 0 ∨ used = 0 ∨ used = configured

-- A response carries no fees, so the configured one has to be the next one.
def FeeConfigured (configured next : UInt64) : Prop := next = 0 ∨ next = configured

inductive Carried (app : Application) (config : ExecutionConfig) (first source : Runtime) (chainID : GoString) : SnapshotDocument → Prop where
  | command {document : SnapshotDocument} (built : buildSnapshotDocument source.store chainID (snapshotNamespaces app.modules) = .ok document)
      (kept : Kept app first source) (fee : FeeRead config.baseFee source.currentBaseFee document.state.baseFee)
      (blobFee : FeeRead config.blobBaseFee source.currentBlobBaseFee document.state.blobBaseFee) : Carried app config first source chainID document
  | rpc {snapshot : StateSnapshot} (taken : stateSnapshot source.store Context.background app.modules = .ok snapshot)
      (kept : Kept app first source) (unsigned : ∀ key, source.store.kv.lookup (kvKey auth key) = none)
      (fee : FeeConfigured config.baseFee source.currentBaseFee) (blobFee : FeeConfigured config.blobBaseFee source.currentBlobBaseFee) :
      Carried app config first source chainID (snapshotExportResponse snapshot)

-- Where the registry had to be recovered after the commit, the fee is already the one read back.
def FeeHeld (current next used : UInt64) : Prop := current = next ∨ current = recordedFee next used next

theorem fee_kept_iff {configured current next used : UInt64} (held : FeeHeld current next used) :
    (if recordedFee next used configured > 0 then recordedFee next used configured else configured) = (if current > 0 then current else configured) ↔
      FeeRead configured current used := by
  have positive : ∀ {fee : UInt64}, fee > 0 ↔ fee ≠ 0 := UInt64.pos_iff_ne_zero
  unfold FeeRead
  simp only [FeeHeld, recordedFee, positive] at held ⊢
  by_cases none : next = 0 <;> by_cases free : used = 0 <;> rcases held with rfl | rfl <;> simp [none, free]

theorem fee_configured {configured next : UInt64} (same : FeeConfigured configured next) : (if next > 0 then next else configured) =
      if recordedFee 0 0 configured > 0 then recordedFee 0 0 configured else configured := by
  rcases same with rfl | rfl <;> simp [recordedFee]

-- A snapshot that was carried over holds the values of the source, its height and a fee that is read back.
structure CarriedOver (app : Application) (config : ExecutionConfig) (source : Runtime) (document : SnapshotDocument) (store : LevelDBStore) :
    Prop where
  values : SameValues (auth :: app.modules) source.store store
  latest : store.latestState = some document.state
  recorded : ∃ state, source.store.latestState = some state ∧ document.state.height = state.height
  fee : source.baseFee config = let read := recordedFee document.state.nextBaseFee document.state.baseFee config.baseFee
    if read > 0 then read else config.baseFee
  blobFee : source.blobBaseFee config = let read := recordedFee document.state.nextBlobBaseFee document.state.blobBaseFee config.blobBaseFee
    if read > 0 then read else config.blobBaseFee

theorem carried_over {document : SnapshotDocument} {store : LevelDBStore} {last : Height} (reached : Reached app policy last source)
    (carried : Carried app config first source chainID document)
    (restored : restoreSnapshotDocumentWithContext .background emptyStore document = (store, .ok ())) :
    CarriedOver app config source document store := by
  obtain ⟨checked, values, latest⟩ := restored_document restored
  cases carried with
  | command built kept fee blobFee =>
    have listed : ∀ space, space ∈ snapshotNamespaces app.modules ↔ space ∈ auth :: app.modules := by
      have named : auth ≠ [] := by with_unfolding_all decide
      intro space
      rw [snapshotNamespaces, mem_sorted_strings, mem_append, mem_singleton, mem_cons, or_comm]
      refine and_iff_left_of_imp ?_
      rintro (same | member) empty
      · exact named (same ▸ empty)
      · exact app.named (empty ▸ member)
    have unnamed : [] ∉ snapshotNamespaces app.modules := fun member => (mem_sorted_strings.mp member).2 rfl
    obtain ⟨recorded, pairs, declared, exported⟩ := command_document unnamed built
    have agreeing : Agreeing document.kv document.modules := by
      intro space member pair given key same
      exact (pairs ⟨space, key, pair.value⟩).mpr ⟨exported space member, same ▸ ((pairs pair).mp given).2⟩
    obtain ⟨-, base, blob⟩ := reached.recorded document.state recorded
    refine ⟨fun space member key => ?_, latest, ⟨document.state, recorded, rfl⟩, ?_, ?_⟩
    · rw [values]
      refine Option.ext fun value => ?_
      constructor
      · intro held
        have given := (pairs ⟨space, key, value⟩).mpr ⟨(listed space).mpr member, held⟩
        exact (imported_declared checked.keys_once agreeing emptyStore (declared _ given) key value).mpr given
      · intro held
        obtain ⟨owner, name, same, given⟩ := imported_origin document.modules checked.keys_once held
        rw [same]
        exact ((pairs _).mp given).2
    · rw [base] at fee
      rw [Runtime.baseFee, base]
      exact ((fee_kept_iff (.inl rfl)).mpr fee).symm
    · rw [blob] at blobFee
      rw [Runtime.blobBaseFee, blob]
      exact ((fee_kept_iff (.inl rfl)).mpr blobFee).symm
  | rpc taken kept unsigned fee blobFee =>
    obtain ⟨recorded, pairs⟩ := rpc_document taken
    have bare : ∀ pair, pair ∉ (snapshotExportResponse _).kv := fun pair given => nomatch (checked.pairs pair given).2.2
    refine ⟨fun space member key => ?_, latest, recorded, fee_configured fee, fee_configured blobFee⟩
    rw [values]
    have missing : source.store.kv.lookup (kvKey space key) = none := by
      rcases mem_cons.mp member with rfl | member
      · exact unsigned key
      · cases held : source.store.kv.lookup (kvKey space key) with
        | none => rfl
        | some value => exact absurd ((pairs ⟨space, key, value⟩).mpr ⟨member, held⟩) (bare _)
    rw [missing]
    rfl

theorem fresh_registry (fresh : newStoreRegistry policy blankRegistry validators = .ok first.registry) :
    first.registry.policy = policy ∧ first.registry.heights = some [1] := by
  have missing : loadLatest { blankRegistry with policy := policy, effectiveHeight := 1, events := [], pendingEvents := ∅ } 1 =
      .error .validatorSetNotFound := rfl
  simp only [newStoreRegistry, missing, ok_iff] at fresh
  obtain ⟨-, returned⟩ := fresh
  rw [← Except.ok.inj returned]
  exact ⟨rfl, rfl⟩

theorem new_runtime_reached {values : Table Bytes Bytes}
    (started : newRuntime app config policy validators blankRegistry [] (genesisStore values) = .ok first) :
    newStoreRegistry policy blankRegistry validators = .ok first.registry ∧ Reached app policy 0 first := by
  simp only [newRuntime, bind_ok_iff] at started
  obtain ⟨registry, fresh, returned⟩ := started
  cases returned
  obtain ⟨policies, heights⟩ := @fresh_registry policy validators ⟨bindStore app (genesisStore values), [], registry, none, false, 0, zeroHash,
    config.baseFee, config.blobBaseFee⟩ fresh
  refine ⟨fresh, bind_store_bound app _, rfl, policies, ⟨[1], heights, by simp⟩, ⟨rfl, rfl⟩, fun state found => ?_⟩
  cases found

theorem restarted {store : LevelDBStore} {state : StateRecord} (latest : store.latestState = some state) (bound : Bound app store)
    (fresh : newStoreRegistry policy blankRegistry validators = .ok first.registry)
    (recovered : restart app config policy validators store = .ok target) :
    target.store = store ∧ target.upgradePlans = [] ∧ target.upgradePlan = none ∧ target.upgradeHalted = false ∧
      target.currentBaseFee = recordedFee state.nextBaseFee state.baseFee config.baseFee ∧
      target.currentBlobBaseFee = recordedFee state.nextBlobBaseFee state.blobBaseFee config.blobBaseFee ∧
      StoreRegistry.SameDocuments target.registry first.registry := by
  have started : newRuntime app config policy validators blankRegistry [] store =
      .ok ⟨store, [], first.registry, none, false, 0, zeroHash, config.baseFee, config.blobBaseFee⟩ := by
    simp only [newRuntime, fresh, bind, Except.bind, bind_store_of_bound bound]
    rfl
  rw [restart, started] at recovered
  simp only [Runtime.recover, latestStateRecord, latest, bind_store_of_bound bound, require, bind, Except.bind] at recovered
  split_ifs at recovered
  all_goals cases recovered
  refine ⟨rfl, rfl, rfl, rfl, rfl, rfl, ?_⟩
  show StoreRegistry.SameDocuments (if state.height > 0 then first.registry.setEffectiveHeight (state.height + 1) else first.registry) first.registry
  split_ifs
  all_goals exact ⟨rfl, rfl, rfl⟩

theorem recovered_fees {state : StateRecord} (recovered : source.recover app = .ok target) (latest : source.store.latestState = some state) :
    target.store.latestState = some state ∧ target.currentBaseFee = recordedFee state.nextBaseFee state.baseFee source.currentBaseFee ∧
      target.currentBlobBaseFee = recordedFee state.nextBlobBaseFee state.blobBaseFee source.currentBlobBaseFee := by
  simp only [Runtime.recover, latestStateRecord, latest, ok_iff] at recovered
  obtain ⟨read, ⟨-, -, same⟩, returned⟩ := recovered
  cases same
  cases returned
  exact ⟨latest, rfl, rfl⟩

def FeesHeld (runtime : Runtime) : Prop := ∃ state, runtime.store.latestState = some state ∧
  FeeHeld runtime.currentBaseFee state.nextBaseFee state.baseFee ∧ FeeHeld runtime.currentBlobBaseFee state.nextBlobBaseFee state.blobBaseFee

theorem staged_fees {next : Runtime} {block : Block} {response answer : FinalizeBlockResponse} {writes : List KVWrite}
    (executed : Runtime.executeBlockStaged app config source block response writes = (next, .ok answer)) : FeesHeld next := by
  rw [Runtime.executeBlockStaged] at executed
  cases staged : source.stageUpdates block response with
  | error reason =>
    rw [staged] at executed
    cases executed
  | ok result =>
    simp only [staged] at executed
    split at executed
    · cases executed
    · next store committed =>
      have latest := (commit_block_ok committed).2
      rw [Runtime.reconcile] at executed
      split at executed
      · cases executed
        exact ⟨_, latest, .inl rfl, .inl rfl⟩
      · split at executed
        · cases executed
          exact ⟨_, latest, .inl rfl, .inl rfl⟩
        · split at executed
          · next recovered read =>
            cases executed
            obtain ⟨kept, base, blob⟩ := recovered_fees read latest
            exact ⟨_, kept, .inr base, .inr blob⟩
          · cases executed

theorem run_fees {blocks : List Block} (some_blocks : blocks ≠ []) (ran : Runtime.run app config first blocks = .ok source) : FeesHeld source := by
  induction blocks generalizing first with
  | nil => contradiction
  | cons block rest ih =>
    rw [Runtime.run] at ran
    cases executed : Runtime.executeBlock app config first block with
    | mk next answer =>
      rw [executed] at ran
      cases answer with
      | error reason => cases ran
      | ok response =>
        cases rest with
        | nil =>
          obtain ⟨_, _, _, _, -, -, staged⟩ := block_staged executed
          cases ran
          exact staged_fees staged
        | cons => exact ih (cons_ne_nil _ _) ran

-- A node that starts at genesis, executes the blocks and is built again on its store.
def restartAfter (app : Application) (config : ExecutionConfig) (policy : Option AdmissionPolicy) (validators : List Validator)
    (values : Table Bytes Bytes) (blocks : List Block) : Option (Runtime × Runtime) := do
  let first ← (newRuntime app config policy validators blankRegistry [] (genesisStore values)).toOption
  let source ← (Runtime.run app config first blocks).toOption
  let fresh ← (newRuntime app config policy validators source.registry source.upgradePlans source.store).toOption
  let target ← (fresh.recover app).toOption
  return (source, target)

theorem restart_keeps_fees_iff (app : Application) (config : ExecutionConfig) (policy : Option AdmissionPolicy) (validators : List Validator)
    (values : Table Bytes Bytes) (blocks : List Block) (some_blocks : blocks ≠ []) (source target : Runtime)
    (restarted : restartAfter app config policy validators values blocks = some (source, target))
    (state : StateRecord) (latest : source.store.latestState = some state) :
    target.baseFee config = source.baseFee config ∧ target.blobBaseFee config = source.blobBaseFee config ↔
      FeeRead config.baseFee source.currentBaseFee state.baseFee ∧ FeeRead config.blobBaseFee source.currentBlobBaseFee state.blobBaseFee := by
  simp only [restartAfter, bind, Option.bind_eq_some_iff, to_option_iff] at restarted
  obtain ⟨first, -, _, ran, fresh, built, _, recovered, same⟩ := restarted
  cases same
  obtain ⟨held, same, base, blob⟩ := run_fees some_blocks ran
  rw [latest] at same
  cases same
  simp only [newRuntime, bind_ok_iff] at built
  obtain ⟨registry, -, returned⟩ := built
  cases returned
  obtain ⟨-, baseRead, blobRead⟩ := recovered_fees recovered latest
  rw [Runtime.baseFee, Runtime.baseFee, Runtime.blobBaseFee, Runtime.blobBaseFee, baseRead, blobRead]
  exact and_congr (fee_kept_iff base) (fee_kept_iff blob)

theorem restored_node_continues (app : Application) (config : ExecutionConfig) (policy : Option AdmissionPolicy) (validators : List Validator)
    (values : Table Bytes Bytes) (first source : Runtime) (blocks : List Block) (chainID : GoString) (document : SnapshotDocument)
    (store : LevelDBStore) (target : Runtime)
    (started : newRuntime app config policy validators blankRegistry [] (genesisStore values) = .ok first)
    (followed : Follows 0 blocks) (ran : Runtime.run app config first blocks = .ok source)
    (carried : Carried app config first source chainID document)
    (restored : restoreSnapshotDocumentWithContext Context.background emptyStore document = (store, .ok ()))
    (recovered : restart app config policy validators store = .ok target) : SameFuture app config source target := by
  obtain ⟨fresh, initial⟩ := new_runtime_reached started
  obtain ⟨last, below, reached⟩ := run_reached blocks initial (by decide) followed ran
  obtain ⟨exported, inForce, planned⟩ : Kept app first source := by
    cases carried with
    | command _ kept | rpc _ kept => exact kept
  obtain ⟨same, latest, ⟨state, recorded, heights⟩, fee, blobFee⟩ := carried_over reached carried restored
  have bound : Bound app store := by
    intro saved listed
    rw [← same saved.space (exported _ (app.own saved listed).1) saved.key]
    exact reached.bound saved listed
  obtain ⟨stores, plans, plan, halted, base, blob, documents⟩ := restarted latest bound fresh recovered
  obtain ⟨policies, one⟩ := fresh_registry fresh
  obtain ⟨versions, stored, bounded⟩ := reached.versions
  have start := reached.reached
  rw [start] at inForce planned
  have beyond : last < last + 1 := next_height (UInt64.le_refl _) below
  have early : ∀ height > last + 1, height ∉ versions ∧ height ∉ [1] := by
    refine fun height above => ⟨fun listed => UInt64.not_le.mpr above (bounded height listed), fun listed => ?_⟩
    rw [mem_singleton.mp listed] at above
    have order := UInt64.lt_iff_toNat_lt.mp above
    have positive := UInt64.lt_iff_toNat_lt.mp beyond
    rw [UInt64.toNat_one] at order
    omega
  have alike : Alike app config (last + 1) source target := by
    refine ⟨by rwa [stores], ⟨?_, ⟨versions, [1], stored, documents.heights.trans one, ?_⟩, ?_, ?_⟩, ?_, ?_, ?_, ?_, ?_⟩
    · rw [reached.policy, documents.policy, policies]
    · exact fun height above => iff_of_false (early height above).1 (early height above).2
    · intro height above listed found member
      rw [stored] at found
      cases found
      exact absurd member (early height above).1
    · rw [documents.load_latest, inForce]
    · rw [fee, Runtime.baseFee, base]
    · rw [blobFee, Runtime.blobBaseFee, blob]
    · intro height above
      rw [plans]
      refine iff_of_false (fun listed => ?_) not_mem_nil
      exact UInt64.not_le.mpr (UInt64.lt_of_lt_of_le beyond above) (planned height listed)
    · rw [reached.noPlan.1, plan]
    · rw [reached.noPlan.2, halted]
  intro further later
  rw [start] at later ⊢
  have after : ∀ {height : Height}, last < height → last + 1 ≤ height := by
    intro height above
    have order := UInt64.lt_iff_toNat_lt.mp above
    rw [UInt64.le_iff_toNat_le, UInt64.toNat_add, UInt64.toNat_one, Nat.mod_eq_of_lt (by have := height.toNat_lt; omega)]
    omega
  have each : ∀ {height : Height} (blocks : List Block), last ≤ height → Follows height blocks →
      ∀ block ∈ blocks, last + 1 ≤ block.header.height ∧ block.header.height < Economics.maxUint64 := by
    intro height blocks
    induction blocks generalizing height with
    | nil => exact fun _ _ _ listed => nomatch listed
    | cons block rest ih =>
      rintro from' ⟨above, under, rested⟩
      have here := UInt64.lt_of_le_of_lt from' above
      exact forall_mem_cons.mpr ⟨⟨after here, under⟩, ih (UInt64.le_of_lt here) rested⟩
  obtain ⟨answers, end'⟩ := alike.execute_all exported further (each further (UInt64.le_refl _) later)
  refine ⟨answers, fun height above => end'.registry.validator_set (after above) ?_, end'.baseFee, end'.blobBaseFee⟩
  rintro rfl
  exact UInt64.not_lt_zero above

end Continuing

-- An application runtime without modules: a block without transactions writes nothing, and no transaction finds a route.
def bareApplication (chainID : GoString) : Application where
  modules := []
  spaces := []
  documents := []
  finalizeBlockStaged _ _ block :=
    ⟨[], [], if block.txs = [] then .ok (⟨[], Sha256.sum256 (chainID ++ putUint64 block.header.height), []⟩, []) else .error .noRouteForTx⟩
  named := List.not_mem_nil
  own := fun _ listed => nomatch listed
  keeps := fun _ _ _ _ listed => nomatch listed

def feeConfig (dynamic : Bool) : ExecutionConfig := ⟨1000, dynamic, 100, 8, 1, 0, 1, false, 0, 0, 0, 0, 0⟩

def vexo : GoString := utf8 "vexo"

def firstBlock : Block := ⟨⟨vexo, 1, 0, zeroHash, zeroHash, zeroHash, zeroHash, zeroHash⟩, []⟩

def soleValidator : List Validator := [⟨utf8 "alice", [1], 10, 10⟩]

def handedOver (dynamic : Bool) (exporting : Runtime → Option SnapshotDocument) (test : Runtime → Runtime → SnapshotDocument → LevelDBStore → Runtime → Bool) :
    Bool :=
  (newRuntime (bareApplication vexo) (feeConfig dynamic) none soleValidator blankRegistry [] (genesisStore ∅)).toOption.any fun first =>
    (Runtime.run (bareApplication vexo) (feeConfig dynamic) first [firstBlock]).toOption.any fun source =>
      (exporting source).any fun document =>
        let (store, outcome) := restoreSnapshotDocumentWithContext Context.background emptyStore document
        outcome.isOk && (restart (bareApplication vexo) (feeConfig dynamic) none soleValidator store).toOption.any fun target =>
          test first source document store target

def exportedByRpc (source : Runtime) : Option SnapshotDocument :=
  ((stateSnapshot source.store Context.background []).toOption).map snapshotExportResponse

def exportedByCommand (source : Runtime) : Option SnapshotDocument :=
  (buildSnapshotDocument source.store vexo (snapshotNamespaces [])).toOption

theorem handed_over {dynamic : Bool} {exporting : Runtime → Option SnapshotDocument}
    {test : Runtime → Runtime → SnapshotDocument → LevelDBStore → Runtime → Bool} (passed : handedOver dynamic exporting test = true) :
    ∃ first source document store target,
      newRuntime (bareApplication vexo) (feeConfig dynamic) none soleValidator blankRegistry [] (genesisStore ∅) = .ok first ∧
      Runtime.run (bareApplication vexo) (feeConfig dynamic) first [firstBlock] = .ok source ∧ exporting source = some document ∧
      restoreSnapshotDocumentWithContext .background emptyStore document = (store, .ok ()) ∧
      restart (bareApplication vexo) (feeConfig dynamic) none soleValidator store = .ok target ∧ test first source document store target = true := by
  obtain ⟨first, started, passed⟩ := exists_ok_of_any passed
  obtain ⟨source, ran, passed⟩ := exists_ok_of_any passed
  obtain ⟨document, exported, passed⟩ := (Option.any_eq_true _ _).mp passed
  cases restored : restoreSnapshotDocumentWithContext .background emptyStore document with
  | mk store outcome =>
    rw [restored] at passed
    obtain ⟨succeeded, passed⟩ := Bool.and_eq_true_iff.mp passed
    obtain ⟨done, rfl⟩ := exists_of_is_ok succeeded
    obtain ⟨target, recovered, passed⟩ := exists_ok_of_any passed
    exact ⟨first, source, document, store, target, started, ran, exported, restored, recovered, passed⟩

theorem handed_over_evaluated :
    handedOver true exportedByRpc (fun _ source _ _ target => source.baseFee (feeConfig true) = 875 ∧ target.baseFee (feeConfig true) = 1000) = true ∧
    handedOver false exportedByCommand (fun first source _ _ target => source.height = 1 ∧ source.currentBaseFee = 1000 ∧
      source.currentBlobBaseFee = 1 ∧ source.upgradePlans = [] ∧
      ((source.registry.loadLatest 2).toOption.map ValidatorSetDocument.validators =
        (first.registry.loadLatest 2).toOption.map ValidatorSetDocument.validators) ∧ (first.registry.loadLatest 2).isOk ∧
      (source.registry.loadLatest 2).isOk ∧ target.height = 1) = true := by
  decide +kernel

-- The response of the RPC leaves the fees out, so the recovered node goes back to the configured one.
theorem rpc_snapshot_loses_fee : ∃ first source snapshot store target,
      newRuntime (bareApplication vexo) (feeConfig true) none soleValidator blankRegistry [] (genesisStore ∅) = .ok first ∧
      Follows 0 [firstBlock] ∧ Runtime.run (bareApplication vexo) (feeConfig true) first [firstBlock] = .ok source ∧
      stateSnapshot source.store Context.background (bareApplication vexo).modules = .ok snapshot ∧
      restoreSnapshotDocumentWithContext Context.background emptyStore (snapshotExportResponse snapshot) = (store, .ok ()) ∧
      restart (bareApplication vexo) (feeConfig true) none soleValidator store = .ok target ∧
      ¬ SameFuture (bareApplication vexo) (feeConfig true) source target := by
  obtain ⟨first, source, document, store, target, started, ran, exported, restored, recovered, fees⟩ := handed_over handed_over_evaluated.1
  obtain ⟨snapshot, taken, rfl⟩ := Option.map_eq_some_iff.mp exported
  obtain ⟨sourceFee, targetFee⟩ := of_decide_eq_true fees
  refine ⟨first, source, snapshot, store, target, started, ⟨by decide, by decide, trivial⟩, ran, to_option_iff.mp taken, restored, recovered,
    fun same => ?_⟩
  have fee : source.baseFee (feeConfig true) = target.baseFee (feeConfig true) := (same [] trivial).2.2.1
  rw [sourceFee, targetFee] at fee
  exact absurd fee (by decide)

theorem constant_fee_continues :
    ∃ source target, SameFuture (bareApplication vexo) (feeConfig false) source target ∧ source.height = 1 ∧ target.height = 1 := by
  obtain ⟨first, source, document, store, target, started, ran, exported, restored, recovered, facts⟩ := handed_over handed_over_evaluated.2
  obtain ⟨height, fee, blobFee, plans, sets, firstOk, sourceOk, reached⟩ := of_decide_eq_true facts
  have kept : Kept (bareApplication vexo) first source := by
    refine ⟨fun _ listed => (nomatch listed), ?_, by simp [plans]⟩
    obtain ⟨⟨left, _⟩, leftRead⟩ := exists_of_is_ok sourceOk
    obtain ⟨⟨right, _⟩, rightRead⟩ := exists_of_is_ok firstOk
    rw [leftRead, rightRead] at sets
    cases sets
    rw [height]
    exact leftRead.trans rightRead.symm
  refine ⟨source, target, ?_, height, reached⟩
  exact restored_node_continues (bareApplication vexo) (feeConfig false) none soleValidator ∅ first source [firstBlock] vexo document store target
    started ⟨by decide, by decide, trivial⟩ ran (.command (to_option_iff.mp exported) kept (.inl (by rw [fee]; decide)) (.inl (by rw [blobFee]; decide))) restored
    recovered

-- The first block uses half of the target gas and the later ones none, so a denominator of one takes the fee to zero.
def meteredApplication : Application := { bareApplication vexo with
  finalizeBlockStaged := fun _ _ block => ⟨[], [], .ok (⟨[⟨0, [], [], if block.header.height = 1 then 50 else 0, 0⟩], zeroHash, []⟩, [])⟩
  keeps := fun _ _ _ _ listed => nomatch listed }

def steepConfig : ExecutionConfig := ⟨10, true, 100, 1, 0, 0, 1, false, 0, 0, 0, 0, 0⟩

def secondBlock : Block := { firstBlock with header := { firstBlock.header with height := 2 } }

def steepRestart (blocks : List Block) : Option (Runtime × Runtime) := restartAfter meteredApplication steepConfig none soleValidator ∅ blocks

theorem steep_restart_evaluated :
    (steepRestart [firstBlock, secondBlock]).any (fun (source, target) => source.baseFee steepConfig = 10 ∧ target.baseFee steepConfig = 5) = true ∧
    (steepRestart [firstBlock]).any (fun (source, _) => source.store.latestState.isSome ∧ source.currentBaseFee = 5 ∧
      source.currentBlobBaseFee = 1) = true := by
  decide +kernel

theorem zero_fee_not_restored : ∃ source target, steepRestart [firstBlock, secondBlock] = some (source, target) ∧
    source.baseFee steepConfig = 10 ∧ target.baseFee steepConfig = 5 := by
  obtain ⟨⟨source, target⟩, ran, fees⟩ := (Option.any_eq_true _ _).mp steep_restart_evaluated.1
  exact ⟨source, target, ran, of_decide_eq_true fees⟩

theorem halved_fee_restored : ∃ source target, steepRestart [firstBlock] = some (source, target) ∧ source.currentBaseFee = 5 ∧
    target.baseFee steepConfig = source.baseFee steepConfig ∧ target.blobBaseFee steepConfig = source.blobBaseFee steepConfig := by
  obtain ⟨⟨source, target⟩, ran, fees⟩ := (Option.any_eq_true _ _).mp steep_restart_evaluated.2
  obtain ⟨recorded, fee, blobFee⟩ := of_decide_eq_true fees
  obtain ⟨state, latest⟩ := Option.isSome_iff_exists.mp recorded
  exact ⟨source, target, ran, fee, (restart_keeps_fees_iff meteredApplication steepConfig none soleValidator ∅ [firstBlock]
    (cons_ne_nil _ _) source target ran state latest).mpr ⟨.inl (by rw [fee]; decide), .inl (by rw [blobFee]; decide)⟩⟩

end Vexo.Execution
