import VexoConsensus.App.CanonicalTxs
import VexoConsensus.Snapshot

namespace Vexo.Snapshot

open ByteCodec Checks OrderedMap LevelDb App List

section

def defaultApplicationModules : List GoString := [utf8 "bank", utf8 "staking", utf8 "governance", utf8 "params", utf8 "ibc"]

def auth : GoString := utf8 "auth"

def snapshotNamespaces (modules : List GoString) : List GoString := sortedStrings (modules ++ [auth])

def activeSnapshotNamespaces (namespaces : List GoString) (roots : List StateRootRecord) (kv : List KVPair) : List GoString :=
  let allowed := namespaces.filter (· ≠ [])
  sortedStrings ((roots.map StateRootRecord.space ++ kv.map KVPair.space).filter (· ∈ allowed))

def snapshotDocumentFromState (chainID : GoString) (modules : List GoString) (state : StateRecord) (roots : List StateRootRecord)
    (kv : List KVPair) : SnapshotDocument :=
  let document : SnapshotDocument :=
    ⟨utf8 "v1", chainID, activeSnapshotNamespaces modules roots kv, state, sortedStateRoots roots, sortedKVPairs kv, []⟩
  { document with checksum := snapshotChecksum document }

-- A root that was never recorded is passed over.
def collectNamespaces (store : LevelDBStore) (height : Height) :
    List GoString → List StateRootRecord → List KVPair → Except StoreErr (List StateRootRecord × List KVPair)
  | [], roots, kv => .ok (roots, kv)
  | space :: rest, roots, kv =>
    match stateRoot store Context.background height space with
    | .error .stateRootNotFound => do
        let pairs ← exportNamespace store Context.background space
        collectNamespaces store height rest roots (kv ++ pairs)
    | .error reason => .error reason
    | .ok root => do
        let pairs ← exportNamespace store Context.background space
        collectNamespaces store height rest (roots ++ [root]) (kv ++ pairs)

variable (store : LevelDBStore)

def buildSnapshotDocument (chainID : GoString) (namespaces : List GoString) : Except StoreErr SnapshotDocument := do
  let state ← latestStateRecord store Context.background
  let (roots, kv) ← collectNamespaces store state.height namespaces [] []
  return snapshotDocumentFromState chainID namespaces state roots kv

section Rpc

open Json

structure StateSnapshot where
  height : Height
  (appHash lastBlockHash validatorSetHash : Hash)
  stateRoots : List StateRootRecord
  kv : List KVPair

def collectModules (store : LevelDBStore) (ctx : Context) (height : Height) :
    List GoString → List StateRootRecord → List KVPair → Except StoreErr (List StateRootRecord × List KVPair)
  | [], roots, kv => .ok (roots, kv)
  | name :: rest, roots, kv => do
      let root ← stateRoot store ctx height name
      let pairs ← exportNamespace store ctx name
      collectModules store ctx height rest (roots ++ [root]) (kv ++ pairs)

def stateSnapshot (store : LevelDBStore) (ctx : Context) (appModules : List GoString) : Except StoreErr StateSnapshot := do
  let state ← latestStateRecord store ctx
  let (roots, kv) ← collectModules store ctx state.height appModules [] []
  return ⟨state.height, state.appHash, state.lastBlockHash, state.validatorSetHash, roots, kv⟩

variable (snapshot : StateSnapshot)

def responseState : StateRecord :=
  ⟨snapshot.height, snapshot.appHash, snapshot.lastBlockHash, snapshot.validatorSetHash, 0, 0, 0, 0, 0, 0⟩

def exportResponseValue (state : StateRecord) (roots : List StateRootRecord) (kv : List KVPair) : Value :=
  let sorted := sortedKVPairs kv
  objectOf
    [some ("schema_version", text (utf8 "v1")), some ("state", stateRecordValue state),
      some ("state_roots", list ((sortedStateRoots roots).map stateRootValue)), unlessEmpty sorted "kv" (list (sorted.map kvPairValue))]

-- As the command reads it: a response names no chain and declares no modules.
def snapshotExportResponse : SnapshotDocument :=
  let roots := sortedStateRoots snapshot.stateRoots
  let kv := sortedKVPairs snapshot.kv
  ⟨utf8 "v1", [], [], responseState snapshot, roots, kv,
    Hex.encode (Sha256.sum256 (render (exportResponseValue (responseState snapshot) roots kv))).bytes⟩

end Rpc

section Chunks

open Json

structure SnapshotChunk where
  (schemaVersion chainID : GoString)
  modules : List GoString
  state : StateRecord
  stateRoots : List StateRootRecord
  kv : List KVPair
  (chunkIndex chunkCount : UInt64)
  (snapshotChecksum chunkChecksum : GoString)

variable (chunk : SnapshotChunk)

def snapshotChunkValue : Value :=
  let modules := sortedStrings chunk.modules
  let kv := sortedKVPairs chunk.kv
  objectOf
    [some ("schema_version", text chunk.schemaVersion), unlessEmpty chunk.chainID "chain_id" (text chunk.chainID),
      unlessEmpty modules "modules" (list (modules.map text)), some ("state", stateRecordValue chunk.state),
      some ("state_roots", list ((sortedStateRoots chunk.stateRoots).map stateRootValue)),
      unlessEmpty kv "kv" (list (kv.map kvPairValue)), some ("chunk_index", integer chunk.chunkIndex.toNat),
      some ("chunk_count", integer chunk.chunkCount.toNat), some ("snapshot_checksum", text chunk.snapshotChecksum)]

def snapshotChunkChecksum : GoString := Hex.encode (Sha256.sum256 (render (snapshotChunkValue chunk))).bytes

inductive ChunkErr where
  | unsupportedSchema | chainMismatch | noChunks | indexOutOfRange | missingSnapshotChecksum | missingChunkChecksum | chunkChecksumMismatch
  | sizeNotPositive
  | document (reason : SnapshotErr)
deriving DecidableEq, Repr

def payload {Result : Type} : Except SnapshotErr Result → Except ChunkErr Result
  | .ok result => .ok result
  | .error reason => .error (.document reason)

-- Unlike a document's, a chunk's roots may repeat a namespace.
def checkChunkRoots (height : Height) : List StateRootRecord → Except SnapshotErr Unit
  | [] => .ok ()
  | root :: rest => do
      require (root.height = height) (.rootHeightMismatch height root.height root.space)
      require (root.space ≠ []) (.store .invalidNamespace)
      checkChunkRoots height rest

variable (document : SnapshotDocument)

def validateSnapshotChunkPayload : Except SnapshotErr Unit := do
  require (document.schemaVersion = utf8 "v1") (.unsupportedSchema document.schemaVersion)
  checkChunkRoots document.state.height document.stateRoots
  checkModules (document.stateRoots.map StateRootRecord.space) (sortedStrings document.modules)
  checkPairs (sortedStrings document.modules) document.kv

def validateSnapshotChunk (expectedChainID : GoString) : Except ChunkErr Unit := do
  require (chunk.schemaVersion = utf8 "v1") .unsupportedSchema
  require (¬ (expectedChainID ≠ [] ∧ chunk.chainID ≠ [] ∧ chunk.chainID ≠ expectedChainID)) .chainMismatch
  require (chunk.chunkCount ≠ 0) .noChunks
  require (chunk.chunkIndex < chunk.chunkCount) .indexOutOfRange
  require (chunk.snapshotChecksum ≠ []) .missingSnapshotChecksum
  require (chunk.chunkChecksum ≠ []) .missingChunkChecksum
  require (chunk.chunkChecksum = snapshotChunkChecksum chunk) .chunkChecksumMismatch
  require (chunk.state.height ≠ 0) (.document (.store .invalidStateRecord))
  payload (validateSnapshotChunkPayload ⟨chunk.schemaVersion, chunk.chainID, sortedStrings chunk.modules, chunk.state,
    sortedStateRoots chunk.stateRoots, sortedKVPairs chunk.kv, []⟩)

def chunkCountOf (pairs size : Nat) : Nat := if pairs = 0 then 1 else (pairs + size - 1) / size

def chunkAt (size index : Nat) : SnapshotChunk :=
  let kv := sortedKVPairs document.kv
  let chunk : SnapshotChunk :=
    ⟨utf8 "v1", document.chainID, sortedStrings document.modules, document.state, sortedStateRoots document.stateRoots,
      sortedKVPairs ((kv.drop (index * size)).take size), UInt64.ofNat index, UInt64.ofNat (chunkCountOf kv.length size), document.checksum, []⟩
  { chunk with chunkChecksum := snapshotChunkChecksum chunk }

def snapshotChunks (chunkSize : Nat) : Except ChunkErr (List SnapshotChunk) := do
  payload (validateSnapshotDocument document [])
  require (chunkSize ≠ 0) .sizeNotPositive
  return (List.range (chunkCountOf document.kv.length chunkSize)).map (chunkAt document chunkSize)

-- The handler has refused a size of zero; a size that is no positive int ends in a panic and gives no chunk.
def snapshotChunkResponse (snapshot : StateSnapshot) (index size : Nat) : Except ChunkErr SnapshotChunk := do
  let document := snapshotExportResponse snapshot
  require (index < chunkCountOf document.kv.length size) .indexOutOfRange
  return chunkAt document size index

end Chunks

-- What the application and the registry give for one block: its writes and the record of the state after it.
structure ExecutedBlock where
  writes : List KVWrite
  state : StateRecord

variable (names : List GoString)

def moduleStateRootsWithWrites (height : Height) (writes : List KVWrite) : Except StoreErr (List StateRootRecord) :=
  names.mapM fun name => do
    let root ← rootWithWrites store Context.background name writes
    return ⟨height, name, root⟩

def executeBlock (store : LevelDBStore) (block : ExecutedBlock) : Except StoreErr LevelDBStore := do
  let roots ← moduleStateRootsWithWrites store names block.state.height block.writes
  commitBlockStateWithWrites store Context.background block.writes block.state.height block.state.lastBlockHash block.state roots

def executeBlocks (store : LevelDBStore) (blocks : List ExecutedBlock) : Except StoreErr LevelDBStore :=
  blocks.foldlM (executeBlock names) store

def genesisStore (kv : Table Bytes Bytes) : LevelDBStore := { emptyStore with kv := kv }

structure Recorded (state : StateRecord) : Prop where
  latest : store.latestState = some state
  height : state.height ≠ 0
  modules : ∀ name ∈ defaultApplicationModules, ∃ root, store.stateRoots.lookup (state.height, name) = some ⟨state.height, name, root⟩

def NoAuthRoot : Prop := ∀ height, store.stateRoots.lookup (height, auth) = none

theorem modules_text : ∀ name ∈ defaultApplicationModules, name ≠ [] ∧ name ≠ auth ∧ Utf8.toValid name = name := by
  with_unfolding_all decide

theorem module_roots_names {store : LevelDBStore} {names : List GoString} {height : Height} {writes : List KVWrite}
    {records : List StateRootRecord} (computed : moduleStateRootsWithWrites store names height writes = .ok records) :
    records.map StateRootRecord.space = names ∧ ∀ record ∈ records, record.height = height := by
  unfold moduleStateRootsWithWrites at computed
  induction names generalizing records with
  | nil =>
    cases computed
    simp
  | cons name rest ih =>
    simp only [mapM_cons, bind_ok_iff] at computed
    obtain ⟨first, ⟨root, -, made⟩, later, rested, returned⟩ := computed
    cases made
    cases returned
    obtain ⟨names, heights⟩ := ih rested
    exact ⟨by rw [map_cons, names], forall_mem_cons.mpr ⟨rfl, heights⟩⟩

theorem execute_block_recorded {store next : LevelDBStore} {block : ExecutedBlock}
    (executed : executeBlock defaultApplicationModules store block = .ok next) (noAuth : NoAuthRoot store) :
    Recorded next block.state ∧ NoAuthRoot next := by
  simp only [executeBlock, bind_ok_iff, commitBlockStateWithWrites, require_ok_iff, exists_const] at executed
  obtain ⟨records, computed, -, -, height, -, ⟨⟩, -, returned⟩ := executed
  cases returned
  obtain ⟨names, heights⟩ := module_roots_names computed
  have distinct : (records.map fun record => (record.height, record.space)).Nodup := by
    have spaces : (records.map StateRootRecord.space).Nodup := by
      rw [names]
      with_unfolding_all decide
    refine (nodup_map_iff_inj_on spaces.of_map).mpr fun first member second member' same => ?_
    exact (nodup_map_iff_inj_on spaces.of_map).mp spaces first member second member' (Prod.mk.inj same).2
  refine ⟨⟨rfl, height, fun name listed => ?_⟩, fun level => ?_⟩
  · obtain ⟨record, member, rfl⟩ := mem_map.mp (names.symm ▸ listed)
    have found : (records.foldl (fun table record => table.insert (record.height, record.space) record.written) store.stateRoots).lookup
        (record.height, record.space) = some record.written := lookup_insert_member distinct member store.stateRoots
    rw [heights record member] at found
    refine ⟨record.root, found.trans ?_⟩
    rw [StateRootRecord.written, (modules_text _ listed).2.2, ← heights record member]
  · refine (lookup_insert_other (fun listed => ?_) _).trans (noAuth level)
    obtain ⟨record, member, same⟩ := mem_map.mp listed
    exact (modules_text record.space (names ▸ mem_map_of_mem member)).2.1 (Prod.mk.inj same).2

theorem execute_blocks_recorded (blocks : List ExecutedBlock) {store next : LevelDBStore} (noAuth : NoAuthRoot store)
    (executed : executeBlocks defaultApplicationModules store blocks = .ok next) (some : blocks ≠ []) :
    ∃ state, Recorded next state ∧ NoAuthRoot next := by
  induction blocks generalizing store with
  | nil => exact absurd rfl some
  | cons block rest ih =>
    simp only [executeBlocks, foldlM_cons, bind_ok_iff] at executed
    obtain ⟨middle, first, later⟩ := executed
    obtain ⟨recorded, noAuth⟩ := execute_block_recorded first noAuth
    cases rest with
    | nil =>
      cases later
      exact ⟨block.state, recorded, noAuth⟩
    | cons next more => exact ih noAuth later (cons_ne_nil _ _)

section Collecting

variable {store : LevelDBStore} {state : StateRecord}

def pairsOf (store : LevelDBStore) (space : GoString) : List KVPair :=
  (exportNamespace store Context.background space).toOption.getD []

def rootOf (store : LevelDBStore) (height : Height) (space : GoString) : Option StateRootRecord :=
  (stateRoot store Context.background height space).toOption

theorem export_pairs_of (store : LevelDBStore) {space : GoString} (named : space ≠ []) :
    exportNamespace store .background space = .ok (pairsOf store space) := by
  obtain ⟨pairs, exported⟩ := @export_ok .background space store rfl named
  rw [pairsOf, exported]
  rfl

section

variable (recorded : Recorded store state)
include recorded

theorem Recorded.root_of {name : GoString} (listed : name ∈ defaultApplicationModules) :
    ∃ root, stateRoot store .background state.height name = .ok ⟨state.height, name, root⟩ := by
  obtain ⟨root, found⟩ := recorded.modules name listed
  refine ⟨root, ?_⟩
  rw [stateRoot, require, if_pos (show Context.background.done = false from rfl), require,
    if_pos (not_or.mpr ⟨recorded.height, (modules_text name listed).1⟩)]
  simp only [bind, Except.bind, found, require, and_self, if_true]
  rfl

theorem Recorded.auth_missing (noAuth : NoAuthRoot store) : stateRoot store .background state.height auth = .error .stateRootNotFound := by
  have named : auth ≠ [] := by with_unfolding_all decide
  rw [stateRoot, require, if_pos (show Context.background.done = false from rfl), require, if_pos (not_or.mpr ⟨recorded.height, named⟩)]
  simp only [bind, Except.bind, noAuth state.height]

theorem collect_namespaces_eq (noAuth : NoAuthRoot store) (spaces : List GoString)
    (known : ∀ space ∈ spaces, space ∈ defaultApplicationModules ∨ space = auth) (roots : List StateRootRecord) (kv : List KVPair) :
    collectNamespaces store state.height spaces roots kv =
      .ok (roots ++ spaces.filterMap (rootOf store state.height), kv ++ spaces.flatMap (pairsOf store)) := by
  induction spaces generalizing roots kv with
  | nil => simp [collectNamespaces]
  | cons space rest ih =>
    obtain ⟨first, later⟩ := forall_mem_cons.mp known
    rcases first with listed | rfl
    · obtain ⟨root, read⟩ := recorded.root_of listed
      have kept : rootOf store state.height space = some ⟨state.height, space, root⟩ := by
        rw [rootOf, read]
        rfl
      rw [collectNamespaces, read]
      simp only [export_pairs_of store (modules_text space listed).1, bind, Except.bind, ih later, filterMap_cons_some kept,
        flatMap_cons, append_assoc, cons_append, nil_append]
    · have missing := recorded.auth_missing noAuth
      have named : auth ≠ [] := by with_unfolding_all decide
      have passed : rootOf store state.height auth = none := by
        rw [rootOf, missing]
        rfl
      rw [collectNamespaces, missing]
      simp only [export_pairs_of store named, bind, Except.bind, ih later, filterMap_cons_none passed, flatMap_cons, append_assoc]

theorem collect_modules_eq (names : List GoString) (known : ∀ name ∈ names, name ∈ defaultApplicationModules)
    (roots : List StateRootRecord) (kv : List KVPair) :
    collectModules store .background state.height names roots kv =
      .ok (roots ++ names.filterMap (rootOf store state.height), kv ++ names.flatMap (pairsOf store)) := by
  induction names generalizing roots kv with
  | nil => simp [collectModules]
  | cons name rest ih =>
    obtain ⟨listed, later⟩ := forall_mem_cons.mp known
    obtain ⟨root, read⟩ := recorded.root_of listed
    have kept : rootOf store state.height name = some ⟨state.height, name, root⟩ := by
      rw [rootOf, read]
      rfl
    rw [collectModules, read]
    simp only [export_pairs_of store (modules_text name listed).1, bind, Except.bind, ih later, filterMap_cons_some kept,
      flatMap_cons, append_assoc, cons_append, nil_append]

theorem latest_state_ok : latestStateRecord store .background = .ok state := by
  rw [latestStateRecord, require, if_pos (show Context.background.done = false from rfl)]
  simp only [bind, Except.bind, recorded.latest, require, ne_eq, recorded.height, not_false_eq_true, if_true]
  rfl

end

theorem namespaces_known : ∀ space ∈ snapshotNamespaces defaultApplicationModules, space ∈ defaultApplicationModules ∨ space = auth := by
  intro space listed
  simpa using (mem_sorted_strings.mp listed).1

def commandDocument (store : LevelDBStore) (state : StateRecord) (chainID : GoString) : SnapshotDocument :=
  let namespaces := snapshotNamespaces defaultApplicationModules
  snapshotDocumentFromState chainID namespaces state (namespaces.filterMap (rootOf store state.height)) (namespaces.flatMap (pairsOf store))

theorem build_document_eq (recorded : Recorded store state) (noAuth : NoAuthRoot store) (chainID : GoString) :
    buildSnapshotDocument store chainID (snapshotNamespaces defaultApplicationModules) = .ok (commandDocument store state chainID) := by
  rw [buildSnapshotDocument, latest_state_ok recorded]
  simp only [bind, Except.bind, collect_namespaces_eq recorded noAuth _ namespaces_known, nil_append]
  rfl

def rpcSnapshot (store : LevelDBStore) (state : StateRecord) : StateSnapshot :=
  ⟨state.height, state.appHash, state.lastBlockHash, state.validatorSetHash,
    defaultApplicationModules.filterMap (rootOf store state.height), defaultApplicationModules.flatMap (pairsOf store)⟩

theorem state_snapshot_eq (recorded : Recorded store state) :
    stateSnapshot store .background defaultApplicationModules = .ok (rpcSnapshot store state) := by
  rw [stateSnapshot, latest_state_ok recorded]
  simp only [bind, Except.bind, collect_modules_eq recorded _ (fun _ listed => listed), nil_append]
  rfl

end Collecting

end

structure DocumentAccepted (document : SnapshotDocument) (chainID : GoString) : Prop where
  valid : validateSnapshotDocument document chainID = .ok ()
  restored : (restoreSnapshotDocumentWithContext Context.background emptyStore document).2 = .ok ()

def ExportsAccepted (store : LevelDBStore) (chainID : GoString) : Prop :=
  (∃ document, buildSnapshotDocument store chainID (snapshotNamespaces defaultApplicationModules) = .ok document ∧
    DocumentAccepted document chainID ∧ ∀ size chunks, snapshotChunks document size = .ok chunks →
      ∀ chunk ∈ chunks, validateSnapshotChunk chunk chainID = .ok ()) ∧
  ∃ snapshot, stateSnapshot store Context.background defaultApplicationModules = .ok snapshot ∧
    DocumentAccepted (snapshotExportResponse snapshot) chainID ∧ ∀ index size chunk, size ≠ 0 →
      snapshotChunkResponse snapshot index size = .ok chunk → validateSnapshotChunk chunk chainID = .ok ()

section Bare

structure Bare (document : SnapshotDocument) (chainID : GoString) : Prop where
  schema : document.schemaVersion = utf8 "v1"
  chain : document.chainID = [] ∨ document.chainID = chainID
  height : document.state.height ≠ 0
  kv : document.kv = []
  roots : ∀ record ∈ document.stateRoots, record.height = document.state.height ∧ record.space ≠ []
  distinct : (document.stateRoots.map StateRootRecord.space).Nodup
  modules : ∀ space ∈ document.modules, space ≠ [] ∧ space ∈ document.stateRoots.map StateRootRecord.space
  checksum : document.checksum = snapshotChecksum document

variable {document : SnapshotDocument} {chainID : GoString}

theorem check_roots_distinct {height : Height} (records : List StateRootRecord) (seen : List GoString)
    (fits : ∀ record ∈ records, record.height = height ∧ record.space ≠ []) (distinct : (records.map StateRootRecord.space).Nodup)
    (fresh : ∀ record ∈ records, record.space ∉ seen) : ∃ found, checkRoots height seen records = .ok found := by
  induction records generalizing seen with
  | nil => exact ⟨seen, rfl⟩
  | cons record rest ih =>
    obtain ⟨⟨level, named⟩, later⟩ := forall_mem_cons.mp fits
    obtain ⟨unseen, unseenLater⟩ := forall_mem_cons.mp fresh
    obtain ⟨single, distinct⟩ := nodup_cons.mp (map_cons ▸ distinct)
    obtain ⟨found, checked⟩ := ih (record.space :: seen) later distinct fun other listed known => by
      rcases mem_cons.mp known with same | known
      · exact single (same ▸ mem_map_of_mem listed)
      · exact unseenLater other listed known
    refine ⟨found, ?_⟩
    simp only [checkRoots, ok_iff]
    exact ⟨level, named, unseen, checked⟩

theorem check_modules_of {found modules : List GoString} (listed : ∀ space ∈ modules, space ∈ found) : checkModules found modules = .ok () := by
  induction modules with
  | nil => rfl
  | cons first rest ih =>
    obtain ⟨here, later⟩ := forall_mem_cons.mp listed
    simp only [checkModules, ok_iff]
    exact ⟨here, ih later⟩

theorem Bare.valid (bare : Bare document chainID) {expected : GoString} (matching : expected = [] ∨ expected = chainID) :
    validateSnapshotDocument document expected = .ok () := by
  obtain ⟨found, checked⟩ := check_roots_distinct document.stateRoots [] bare.roots bare.distinct fun _ _ known => by cases known
  have members := (check_roots_ok checked).2.2
  simp only [validateSnapshotDocument, ok_iff]
  refine ⟨bare.schema, ?_, bare.height, found, checked, (), check_modules_of fun space listed => ?_, (), ?_, fun other => other.2 bare.checksum⟩
  · rintro ⟨given, named, differs⟩
    rcases bare.chain with empty | same
    · exact named empty
    · rcases matching with empty | wanted
      · exact given empty
      · exact differs (same.trans wanted.symm)
  · exact (members space).mpr (.inr (bare.modules space (mem_sorted_strings.mp listed).1).2)
  · rw [bare.kv]
    rfl

theorem Bare.accepted (bare : Bare document chainID) : DocumentAccepted document chainID := by
  have valid := bare.valid (.inl rfl : ([] : GoString) = [] ∨ [] = chainID)
  have rooted : validateSnapshotKVRoots document = .ok () := by rw [validateSnapshotKVRoots, if_pos bare.kv]
  have named : [] ∉ document.modules := fun listed => (bare.modules [] listed).1 rfl
  refine ⟨bare.valid (.inr rfl), ?_⟩
  have usable : ∀ record ∈ document.stateRoots, record.height ≠ 0 ∧ record.space ≠ [] := fun record listed =>
    ⟨fun zero => bare.height ((bare.roots record listed).1.symm.trans zero), (bare.roots record listed).2⟩
  have live : Context.background.done = false := rfl
  rw [restore_named _ live valid rooted named, save_roots_match live document.stateRoots _ usable (.inl bare.kv)]

theorem hex_sum_ne_nil (message : Bytes) : Hex.encode (Sha256.sum256 message).bytes ≠ [] := by
  intro empty
  have size := congrArg length empty
  rw [Hex.encode_length, (Sha256.sum256 message).size] at size
  cases size

variable {records : List StateRootRecord}

theorem check_chunk_roots_of {height : Height}
    (fits : ∀ record ∈ records, record.height = height ∧ record.space ≠ []) : checkChunkRoots height records = .ok () := by
  induction records with
  | nil => rfl
  | cons first rest ih =>
    obtain ⟨⟨level, named⟩, later⟩ := forall_mem_cons.mp fits
    simp only [checkChunkRoots, ok_iff]
    exact ⟨level, named, ih later⟩

theorem mem_sorted_state_roots {record : StateRootRecord} : record ∈ sortedStateRoots records ↔ record ∈ records := mem_mergeSort

theorem Bare.chunk_accepted (bare : Bare document chainID) (size : Nat) : validateSnapshotChunk (chunkAt document size 0) chainID = .ok () := by
  have empty : sortedKVPairs document.kv = [] := by rw [bare.kv, sortedKVPairs, mergeSort_nil]
  have one : (chunkAt document size 0).chunkCount = 1 := by
    rw [chunkAt, empty]
    rfl
  have nothing : (chunkAt document size 0).kv = [] := by
    rw [chunkAt, empty, drop_nil, take_nil, sortedKVPairs, mergeSort_nil]
  have carried : ∀ space, space ∈ (sortedStateRoots (sortedStateRoots document.stateRoots)).map StateRootRecord.space ↔
      space ∈ document.stateRoots.map StateRootRecord.space := by
    intro space
    simp only [mem_map, mem_sorted_state_roots]
  have checked : validateSnapshotChunkPayload ⟨(chunkAt document size 0).schemaVersion, (chunkAt document size 0).chainID,
      sortedStrings (chunkAt document size 0).modules, (chunkAt document size 0).state, sortedStateRoots (chunkAt document size 0).stateRoots,
      sortedKVPairs (chunkAt document size 0).kv, []⟩ = .ok () := by
    simp only [validateSnapshotChunkPayload, ok_iff]
    refine ⟨rfl, (), check_chunk_roots_of fun record listed => ?_, (), check_modules_of fun space listed => ?_, ?_⟩
    · exact bare.roots record (mem_sorted_state_roots.mp (mem_sorted_state_roots.mp listed))
    · refine (carried space).mpr (bare.modules space ?_).2
      exact (mem_sorted_strings.mp (mem_sorted_strings.mp (mem_sorted_strings.mp listed).1).1).1
    · rw [nothing, sortedKVPairs, mergeSort_nil]
      rfl
  have sealed : document.checksum ≠ [] := by
    rw [bare.checksum]
    exact hex_sum_ne_nil _
  rw [validateSnapshotChunk, checked]
  simp only [ok_iff]
  refine ⟨rfl, ?_, ?_, ?_, sealed, hex_sum_ne_nil _, rfl, bare.height, rfl⟩
  · rintro ⟨given, named, differs⟩
    rcases bare.chain with empty | same
    · exact named empty
    · exact differs same
  · rw [one]
    decide
  · rw [one]
    exact (by decide : (0 : UInt64) < 1)

end Bare

section Exports

variable {store : LevelDBStore} {state : StateRecord}

theorem recorded_spaces (recorded : Recorded store state) (noAuth : NoAuthRoot store) (spaces : List GoString)
    (known : ∀ space ∈ spaces, space ∈ defaultApplicationModules ∨ space = auth) :
    (spaces.filterMap (rootOf store state.height)).map StateRootRecord.space = spaces.filter (· ≠ auth) ∧
      ∀ record ∈ spaces.filterMap (rootOf store state.height), record.height = state.height := by
  induction spaces with
  | nil => simp
  | cons space rest ih =>
    obtain ⟨first, later⟩ := forall_mem_cons.mp known
    obtain ⟨names, heights⟩ := ih later
    rcases first with listed | rfl
    · obtain ⟨root, read⟩ := recorded.root_of listed
      have kept : rootOf store state.height space = some ⟨state.height, space, root⟩ := by
        rw [rootOf, read]
        rfl
      rw [filterMap_cons_some kept, map_cons, names, filter_cons_of_pos (by simpa using (modules_text space listed).2.1)]
      exact ⟨rfl, forall_mem_cons.mpr ⟨rfl, heights⟩⟩
    · have passed : rootOf store state.height auth = none := by
        rw [rootOf, recorded.auth_missing noAuth]
        rfl
      rw [filterMap_cons_none passed, filter_cons_of_neg (by simp)]
      exact ⟨names, heights⟩

theorem sorted_roots_map (records : List StateRootRecord) :
    ((sortedStateRoots records).map StateRootRecord.space).Perm (records.map StateRootRecord.space) :=
  (mergeSort_perm _ _).map _

theorem namespaces_nodup : (snapshotNamespaces defaultApplicationModules).Nodup := by
  unfold snapshotNamespaces sortedStrings
  exact (mergeSort_perm _ _).nodup_iff.mpr (nodup_dedup _)

theorem known_named {space : GoString} (known : space ∈ defaultApplicationModules ∨ space = auth) : space ≠ [] := by
  rcases known with listed | rfl
  · exact (modules_text space listed).1
  · with_unfolding_all decide

variable {spaces : List GoString}

theorem recorded_roots (recorded : Recorded store state) (noAuth : NoAuthRoot store)
    (known : ∀ space ∈ spaces, space ∈ defaultApplicationModules ∨ space = auth) (nodup : spaces.Nodup) :
    (∀ record ∈ sortedStateRoots (spaces.filterMap (rootOf store state.height)), record.height = state.height ∧ record.space ≠ []) ∧
      ((sortedStateRoots (spaces.filterMap (rootOf store state.height))).map StateRootRecord.space).Nodup ∧
      ∀ space, space ∈ (sortedStateRoots (spaces.filterMap (rootOf store state.height))).map StateRootRecord.space ↔
        space ∈ spaces ∧ space ≠ auth := by
  obtain ⟨names, heights⟩ := recorded_spaces recorded noAuth spaces known
  have members : ∀ space, space ∈ (sortedStateRoots (spaces.filterMap (rootOf store state.height))).map StateRootRecord.space ↔
      space ∈ spaces ∧ space ≠ auth := by
    intro space
    rw [(sorted_roots_map _).mem_iff, names, mem_filter, decide_eq_true_iff]
  refine ⟨fun record listed => ⟨heights record (mem_sorted_state_roots.mp listed), ?_⟩, ?_, members⟩
  · exact known_named (known _ ((members record.space).mp (mem_map_of_mem listed)).1)
  · rw [(sorted_roots_map _).nodup_iff, names]
    exact nodup.filter _

theorem no_pairs (known : ∀ space ∈ spaces, space ∈ defaultApplicationModules ∨ space = auth)
    (empty : ∀ space ∈ auth :: defaultApplicationModules, pairsOf store space = []) : spaces.flatMap (pairsOf store) = [] := by
  refine flatMap_eq_nil_iff.mpr fun space listed => empty space ?_
  rcases known space listed with here | rfl
  · exact mem_cons_of_mem _ here
  · exact mem_cons_self

theorem command_bare (recorded : Recorded store state) (noAuth : NoAuthRoot store) (chainID : GoString)
    (empty : ∀ space ∈ auth :: defaultApplicationModules, pairsOf store space = []) : Bare (commandDocument store state chainID) chainID := by
  obtain ⟨fits, distinct, members⟩ := recorded_roots recorded noAuth namespaces_known namespaces_nodup
  have nothing := no_pairs namespaces_known empty
  refine ⟨rfl, .inr rfl, recorded.height, ?_, fits, distinct, fun space listed => ?_, rfl⟩
  · rw [commandDocument, snapshotDocumentFromState, nothing, sortedKVPairs, mergeSort_nil]
  · have active : space ∈ sortedStrings _ := listed
    rw [mem_sorted_strings, mem_filter, nothing, map_nil, append_nil] at active
    exact ⟨active.2, (sorted_roots_map _).mem_iff.mpr active.1.1⟩

theorem modules_known : ∀ name ∈ defaultApplicationModules, name ∈ defaultApplicationModules ∨ name = auth := fun _ listed => Or.inl listed

theorem rpc_bare (recorded : Recorded store state) (noAuth : NoAuthRoot store) (chainID : GoString)
    (empty : ∀ space ∈ auth :: defaultApplicationModules, pairsOf store space = []) :
    Bare (snapshotExportResponse (rpcSnapshot store state)) chainID := by
  obtain ⟨fits, distinct, -⟩ := recorded_roots recorded noAuth modules_known (by with_unfolding_all decide)
  have nothing := no_pairs modules_known empty
  refine ⟨rfl, .inl rfl, recorded.height, ?_, fits, distinct, fun space listed => (by cases listed), ?_⟩
  · rw [snapshotExportResponse, rpcSnapshot, nothing, sortedKVPairs, mergeSort_nil]
  · rw [snapshotChecksum]
    refine congrArg (fun value => Hex.encode (Sha256.sum256 (Json.render value)).bytes) ?_
    simp [snapshotValue, exportResponseValue, objectOf, unlessEmpty, snapshotExportResponse, sortedStrings]

variable {chainID : GoString}

theorem DocumentAccepted.checked {document : SnapshotDocument} (accepted : DocumentAccepted document chainID) : Checked document := by
  refine checked_of_valid accepted.valid ?_
  have restored := accepted.restored
  unfold restoreSnapshotDocumentWithContext at restored
  split at restored
  · cases restored
  · split at restored
    · cases restored
    · rename_i rooted
      exact rooted

theorem mem_sorted_kv_pairs {pairs : List KVPair} {pair : KVPair} : pair ∈ sortedKVPairs pairs ↔ pair ∈ pairs := mem_mergeSort

theorem pairs_space {space : GoString} (named : space ≠ []) {pair : KVPair} (listed : pair ∈ pairsOf store space) : pair.space = space :=
  ((export_mem (export_pairs_of store named) pair).mp listed).1

-- A response declares no modules, so it is accepted only when it has no pairs.
theorem rpc_accepted_empty (accepted : DocumentAccepted (snapshotExportResponse (rpcSnapshot store state)) chainID) :
    ∀ name ∈ defaultApplicationModules, pairsOf store name = [] := by
  intro name listed
  refine eq_nil_iff_forall_not_mem.mpr fun pair held => ?_
  have given : pair ∈ (snapshotExportResponse (rpcSnapshot store state)).kv :=
    mem_sorted_kv_pairs.mpr (mem_flatMap.mpr ⟨name, listed, held⟩)
  have declared := (accepted.checked.pairs pair given).2.2
  cases declared

-- No root is recorded for the account sequences, which the command exports.
theorem command_accepted_empty (recorded : Recorded store state) (noAuth : NoAuthRoot store)
    (accepted : DocumentAccepted (commandDocument store state chainID) chainID) : pairsOf store auth = [] := by
  obtain ⟨-, -, members⟩ := recorded_roots recorded noAuth namespaces_known namespaces_nodup
  have named : auth ≠ [] := known_named (.inr rfl)
  have exported : auth ∈ snapshotNamespaces defaultApplicationModules := mem_sorted_strings.mpr ⟨by simp, named⟩
  refine eq_nil_iff_forall_not_mem.mpr fun pair held => ?_
  have given : pair ∈ (commandDocument store state chainID).kv :=
    mem_sorted_kv_pairs.mpr (mem_flatMap.mpr ⟨auth, exported, held⟩)
  have declared := (accepted.checked.pairs pair given).2.2
  rw [pairs_space named held] at declared
  exact ((members auth).mp (accepted.checked.modules auth declared named)).2 rfl

theorem accepted_of_empty (recorded : Recorded store state) (noAuth : NoAuthRoot store) (chainID : GoString)
    (empty : ∀ space ∈ auth :: defaultApplicationModules, pairsOf store space = []) : ExportsAccepted store chainID := by
  have command := command_bare recorded noAuth chainID empty
  have rpc := rpc_bare recorded noAuth chainID empty
  refine ⟨⟨_, build_document_eq recorded noAuth chainID, command.accepted, ?_⟩, _, state_snapshot_eq recorded, rpc.accepted, ?_⟩
  · intro size chunks made chunk listed
    simp only [snapshotChunks, ok_iff] at made
    obtain ⟨⟨⟩, -, -, returned⟩ := made
    cases returned
    rw [command.kv] at listed
    obtain ⟨index, inside, rfl⟩ := mem_map.mp listed
    cases Nat.lt_one_iff.mp (mem_range.mp inside)
    exact command.chunk_accepted size
  · intro index size chunk _ made
    simp only [snapshotChunkResponse, ok_iff] at made
    obtain ⟨inside, returned⟩ := made
    cases returned
    rw [rpc.kv] at inside
    cases Nat.lt_one_iff.mp inside
    exact rpc.chunk_accepted size

end Exports

-- The exports of a chain that executed blocks are accepted exactly while there is nothing to export.
theorem exports_accepted_iff (kv : Table Bytes Bytes) (blocks : List ExecutedBlock) (some : blocks ≠ []) (store : LevelDBStore)
    (executed : executeBlocks defaultApplicationModules (genesisStore kv) blocks = .ok store) (chainID : GoString) :
    ExportsAccepted store chainID ↔ ∀ space ∈ auth :: defaultApplicationModules, exportNamespace store Context.background space = .ok [] := by
  obtain ⟨state, recorded, noAuth⟩ := execute_blocks_recorded blocks (fun _ => rfl) executed some
  have shown : ∀ space ∈ auth :: defaultApplicationModules, (exportNamespace store .background space = .ok [] ↔ pairsOf store space = []) := by
    intro space listed
    have named : space ≠ [] := known_named ((mem_cons.mp listed).symm.imp_right id)
    rw [export_pairs_of store named]
    exact ⟨Except.ok.inj, congrArg _⟩
  constructor
  · rintro ⟨⟨document, built, command, -⟩, snapshot, exported, rpc, -⟩ space listed
    rw [build_document_eq recorded noAuth] at built
    rw [state_snapshot_eq recorded] at exported
    cases built
    cases exported
    refine (shown space listed).mpr ?_
    rcases mem_cons.mp listed with rfl | here
    · exact command_accepted_empty recorded noAuth command
    · exact rpc_accepted_empty rpc space here
  · intro empty
    exact accepted_of_empty recorded noAuth chainID fun space listed => (shown space listed).mp (empty space listed)

def blockState (height : Height) : StateRecord := ⟨height, zeroHash, ⟨List.replicate 32 1, ones_length⟩, zeroHash, 0, 0, 0, 0, 0, 0⟩

def signedBlock : ExecutedBlock := ⟨[⟨auth, nonceKey (utf8 "alice"), some (putUint64 1)⟩], blockState 1⟩

def quietBlock : ExecutedBlock := ⟨[], blockState 1⟩

theorem runs_evaluated : ((executeBlocks defaultApplicationModules (genesisStore ∅) [signedBlock]).toOption.any fun store =>
      (pairsOf store auth).length = 1) = true ∧
    ((executeBlocks defaultApplicationModules (genesisStore ∅) [quietBlock]).toOption.any fun store =>
      (auth :: defaultApplicationModules).all fun space => exportNamespace store .background space = .ok []) = true := by
  decide +kernel

-- One signed transaction, and the command's export is refused.
theorem signed_export_refused :
    ∃ store, executeBlocks defaultApplicationModules (genesisStore ∅) [signedBlock] = .ok store ∧ ¬ ExportsAccepted store (utf8 "vexo") := by
  obtain ⟨store, executed, single⟩ := exists_ok_of_any runs_evaluated.1
  refine ⟨store, executed, ?_⟩
  obtain ⟨state, recorded, noAuth⟩ := execute_blocks_recorded [signedBlock] (fun _ => rfl) executed (cons_ne_nil _ _)
  rintro ⟨⟨document, built, command, -⟩, -⟩
  rw [build_document_eq recorded noAuth] at built
  cases built
  rw [command_accepted_empty recorded noAuth command] at single
  exact absurd single (by decide)

theorem quiet_export_accepted :
    ∃ store, executeBlocks defaultApplicationModules (genesisStore ∅) [quietBlock] = .ok store ∧ ExportsAccepted store (utf8 "vexo") := by
  obtain ⟨store, executed, empty⟩ := exists_ok_of_any runs_evaluated.2
  refine ⟨store, executed, (exports_accepted_iff ∅ [quietBlock] (cons_ne_nil _ _) store executed (utf8 "vexo")).mpr ?_⟩
  intro space listed
  exact of_decide_eq_true (all_eq_true.mp empty space listed)

end Vexo.Snapshot
