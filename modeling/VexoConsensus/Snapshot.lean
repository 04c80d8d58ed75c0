import VexoConsensus.Finality.Evidence
import VexoConsensus.Lib.BigEndian

namespace Vexo.LevelDb

open ByteCodec Checks OrderedMap PrefixStore App List

inductive StoreErr where
  | contextDone | invalidNamespace | invalidKey | keyNotFound | invalidStateRecord | stateNotFound | invalidStateRoot | stateRootNotFound
  | invalidBlockRecord | stateProof
deriving DecidableEq, Repr

structure StateRecord where
  height : Height
  (appHash lastBlockHash validatorSetHash : Hash)
  (baseFee nextBaseFee blobBaseFee nextBlobBaseFee blobGasUsed excessBlobGas : UInt64)
deriving DecidableEq

structure StateRootRecord where
  height : Height
  space : GoString
  root : Hash
deriving DecidableEq

structure KVPair where
  space : GoString
  (key value : Bytes)
deriving DecidableEq

structure KVHistoryRecord where
  height : Height
  space : GoString
  (key value : Bytes)
  deleted : Bool
deriving DecidableEq

-- Every family of keys has a first part of its own, so each is a table; only the keys of values run into each other.
structure LevelDBStore where
  kv : Table Bytes Bytes
  history : Table Bytes KVHistoryRecord
  latestState : Option StateRecord
  states : Table Height StateRecord
  stateRoots : Table (Height × GoString) StateRootRecord

def emptyStore : LevelDBStore := ⟨∅, ∅, none, ∅, ∅⟩

def kvPrefix : Bytes := utf8 "kv:"

variable (space : GoString)

def kvNamespacePrefix : Bytes := kvPrefix ++ space ++ [58]

variable (key : Bytes)

def kvKey : Bytes := kvNamespacePrefix space ++ key

def kvHistoryPrefix : Bytes := utf8 "kvh:"

def kvHistoryPrefixKey : Bytes := kvHistoryPrefix ++ space ++ [58] ++ Hex.encode key ++ [58]

def kvHistoryKey (height : Height) (space : GoString) (key : Bytes) : Bytes := kvHistoryPrefixKey space key ++ putUint64 height

theorem kv_key_injective {space : GoString} {key other : Bytes} (same : kvKey space key = kvKey space other) : key = other :=
  append_cancel_left same

theorem prefix_kv_key : kvNamespacePrefix space <+: kvKey space key := ⟨key, rfl⟩

section Values

variable (store : LevelDBStore) (ctx : Context) (space : GoString)

def exportNamespace : Except StoreErr (List KVPair) := do
  require (ctx.done = false) .contextDone
  require (space ≠ []) .invalidNamespace
  let start := kvNamespacePrefix space
  return (scan store.kv start).map fun entry => ⟨space, entry.1.drop start.length, entry.2⟩

def checkImported (space : GoString) : List KVPair → Except StoreErr Unit
  | [] => .ok ()
  | pair :: rest => do
      require (¬ (pair.space ≠ [] ∧ pair.space ≠ space)) .invalidNamespace
      require (pair.key ≠ []) .invalidKey
      checkImported space rest

variable (pairs : List KVPair)

def importNamespace : Except StoreErr LevelDBStore := do
  require (ctx.done = false) .contextDone
  require (space ≠ []) .invalidNamespace
  checkImported space pairs
  return { store with
    kv := putAll (erasePrefix store.kv (kvNamespacePrefix space)) (pairs.map fun pair => (kvKey space pair.key, pair.value)) }

def stateProofPairs : List StateProof.Pair := pairs.map fun pair => ⟨pair.key, pair.value⟩

def proofRoot : Except StoreErr Hash :=
  match StateProof.root space (stateProofPairs pairs) with
  | some root => .ok root
  | none => .error .stateProof

def root : Except StoreErr Hash := do
  let pairs ← exportNamespace store ctx space
  proofRoot space pairs

-- The pairs the namespace will hold once the writes are in; a Go map gives them in any order.
def rootWithWrites (writes : List KVWrite) : Except StoreErr Hash := do
  require (ctx.done = false) .contextDone
  require (space ≠ []) .invalidNamespace
  let pairs ← exportNamespace store ctx space
  let own := writes.filter fun write => write.space = space
  require (∀ write ∈ own, write.key ≠ []) .invalidKey
  let values : Table Bytes Bytes := pairs.foldl (fun table pair => table.insert pair.key pair.value) ∅
  let merged := own.foldl (fun table write =>
    match write.value with
    | none => table.erase write.key
    | some value => table.insert write.key value) values
  proofRoot space (merged.entries.map fun entry => ⟨space, entry.1, entry.2⟩)

end Values

section Records

variable (store : LevelDBStore) (ctx : Context)

def saveState (state : StateRecord) : Except StoreErr LevelDBStore := do
  require (ctx.done = false) .contextDone
  require (state.height ≠ 0) .invalidStateRecord
  return { store with latestState := some state, states := store.states.insert state.height state }

variable (record : StateRootRecord)

-- The record is written as JSON, which replaces what is no text in the namespace; the key keeps the bytes.
def StateRootRecord.written : StateRootRecord := { record with space := Utf8.toValid record.space }

def saveStateRoot : Except StoreErr LevelDBStore := do
  require (ctx.done = false) .contextDone
  require (¬ (record.height = 0 ∨ record.space = [])) .invalidStateRoot
  return { store with stateRoots := store.stateRoots.insert (record.height, record.space) record.written }

def latestStateRecord : Except StoreErr StateRecord := do
  require (ctx.done = false) .contextDone
  match store.latestState with
  | none => .error .stateNotFound
  | some state => do
      require (state.height ≠ 0) .invalidStateRecord
      return state

def stateByHeight (height : Height) : Except StoreErr StateRecord := do
  require (ctx.done = false) .contextDone
  require (height ≠ 0) .invalidStateRecord
  match store.states.lookup height with
  | none => .error .stateNotFound
  | some state => do
      require (state.height = height) .invalidStateRecord
      return state

def stateRoot (height : Height) (space : GoString) : Except StoreErr StateRootRecord := do
  require (ctx.done = false) .contextDone
  require (¬ (height = 0 ∨ space = [])) .invalidStateRoot
  match store.stateRoots.lookup (height, space) with
  | none => .error .stateRootNotFound
  | some record => do
      require (record.height = height ∧ record.space = space) .invalidStateRoot
      return record

end Records

section Commits

variable (store : LevelDBStore) (ctx : Context)

def writeKV (kv : Table Bytes Bytes) (write : KVWrite) : Table Bytes Bytes :=
  match write.value with
  | none => kv.erase (kvKey write.space write.key)
  | some value => kv.insert (kvKey write.space write.key) value

def historyOf (height : Height) (write : KVWrite) : KVHistoryRecord :=
  ⟨height, Utf8.toValid write.space, write.key, write.value.getD [], write.value.isNone⟩

def checkWrites : List KVWrite → Except StoreErr Unit
  | [] => .ok ()
  | write :: rest => do
      require (write.space ≠ []) .invalidNamespace
      require (write.key ≠ []) .invalidKey
      checkWrites rest

variable (writes : List KVWrite)

def setBatch : Except StoreErr LevelDBStore := do
  require (ctx.done = false) .contextDone
  checkWrites writes
  return { store with kv := writes.foldl writeKV store.kv }

-- The block itself and its index are stored beside these records.
def commitBlockStateWithWrites (blockHeight : Height) (blockHash : Hash) (state : StateRecord)
    (roots : List StateRootRecord) : Except StoreErr LevelDBStore := do
  require (ctx.done = false) .contextDone
  require (¬ (blockHeight = 0 ∨ blockHash = zeroHash)) .invalidBlockRecord
  require (state.height ≠ 0) .invalidStateRecord
  require (∀ record ∈ roots, ¬ (record.height = 0 ∨ record.space = [])) .invalidStateRoot
  checkWrites writes
  return {
    kv := writes.foldl writeKV store.kv
    history := writes.foldl (fun table write => table.insert (kvHistoryKey state.height write.space write.key) (historyOf state.height write))
      store.history
    latestState := some state
    states := store.states.insert state.height state
    stateRoots := roots.foldl (fun table record => table.insert (record.height, record.space) record.written) store.stateRoots }

end Commits

section Contents

variable {store : LevelDBStore} {ctx : Context} {space : GoString} {pairs : List KVPair}

theorem export_ok (store : LevelDBStore) (live : ctx.done = false) (named : space ≠ []) : ∃ pairs, exportNamespace store ctx space = .ok pairs := by
  unfold exportNamespace
  rw [require, if_pos live, require, if_pos named]
  exact ⟨_, rfl⟩

variable (exported : exportNamespace store ctx space = .ok pairs)
include exported

theorem export_mem (pair : KVPair) : pair ∈ pairs ↔ pair.space = space ∧ store.kv.lookup (kvKey space pair.key) = some pair.value := by
  simp only [exportNamespace, ok_iff] at exported
  obtain ⟨-, -, returned⟩ := exported
  cases returned
  rw [mem_map]
  constructor
  · rintro ⟨⟨raw, value⟩, listed, rfl⟩
    obtain ⟨⟨key, rfl⟩, held⟩ := mem_scan.mp listed
    rw [drop_left]
    exact ⟨rfl, held⟩
  · rintro ⟨rfl, held⟩
    refine ⟨(kvKey pair.space pair.key, pair.value), mem_scan.mpr ⟨prefix_kv_key .., held⟩, ?_⟩
    rw [kvKey, drop_left]

theorem export_keys_nodup : (pairs.map KVPair.key).Nodup := by
  simp only [exportNamespace, ok_iff] at exported
  obtain ⟨-, -, returned⟩ := exported
  cases returned
  rw [map_map]
  have distinct := scan_keys_nodup store.kv (kvNamespacePrefix space)
  refine (nodup_map_iff_inj_on ?_).mpr ?_
  · exact distinct.of_map _
  · intro first listed second listed' same
    obtain ⟨⟨rest, named⟩, -⟩ := (@mem_scan _ _ _ _ _ store.kv (kvNamespacePrefix space) first.1 first.2).mp listed
    obtain ⟨⟨rest', named'⟩, -⟩ := (@mem_scan _ _ _ _ _ store.kv (kvNamespacePrefix space) second.1 second.2).mp listed'
    refine inj_on_of_nodup_map distinct listed listed' ?_
    simp only [Function.comp, ← named, ← named', drop_left] at same
    rw [← named, ← named', same]

end Contents

end Vexo.LevelDb

namespace Vexo.Snapshot

open ByteCodec Checks LevelDb

structure SnapshotDocument where
  (schemaVersion chainID : GoString)
  modules : List GoString
  state : StateRecord
  stateRoots : List StateRootRecord
  kv : List KVPair
  checksum : GoString
deriving DecidableEq

inductive SnapshotErr where
  | unsupportedSchema (schemaVersion : GoString)
  | chainMismatch (expected got : GoString)
  | rootHeightMismatch (state root : Height) (space : GoString)
  | duplicateRoot (space : GoString)
  | missingRoot (space : GoString)
  | undeclaredNamespace (space : GoString)
  | checksumMismatch
  | rootMismatch (space : GoString)
  | store (reason : StoreErr)
deriving DecidableEq, Repr

def stored {Result : Type} : Except StoreErr Result → Except SnapshotErr Result
  | .ok result => .ok result
  | .error reason => .error (.store reason)

-- Empty names are dropped and every name is kept once.
def sortedStrings (values : List GoString) : List GoString := ((values.filter (· ≠ [])).dedup).mergeSort (· ≤ ·)

def sortedStateRoots (roots : List StateRootRecord) : List StateRootRecord :=
  roots.mergeSort fun left right => left.height < right.height ∨ (left.height = right.height ∧ left.space ≤ right.space)

def sortedKVPairs (pairs : List KVPair) : List KVPair :=
  pairs.mergeSort fun left right => left.space < right.space ∨ (left.space = right.space ∧ left.key ≤ right.key)

def kvForNamespace (pairs : List KVPair) (space : GoString) : List KVPair := pairs.filter fun pair => pair.space = space

variable (document : SnapshotDocument)

section Checksum

open Json Finality

def stateRecordValue (state : StateRecord) : Value :=
  object ["Height", "AppHash", "LastBlockHash", "ValidatorSetHash", "BaseFee", "NextBaseFee", "BlobBaseFee", "NextBlobBaseFee",
      "BlobGasUsed", "ExcessBlobGas"]
    [integer state.height.toNat, hashValue state.appHash, hashValue state.lastBlockHash, hashValue state.validatorSetHash,
      integer state.baseFee.toNat, integer state.nextBaseFee.toNat, integer state.blobBaseFee.toNat, integer state.nextBlobBaseFee.toNat,
      integer state.blobGasUsed.toNat, integer state.excessBlobGas.toNat]

def stateRootValue (record : StateRootRecord) : Value :=
  object ["Height", "Namespace", "Root"] [integer record.height.toNat, text record.space, hashValue record.root]

def kvPairValue (pair : KVPair) : Value := object ["Namespace", "Key", "Value"] [text pair.space, base64 pair.key, base64 pair.value]

-- The members that are left out when they are empty are given as optional ones.
def objectOf (members : List (Option (String × Value))) : Value :=
  .object ((members.filterMap id).map fun member => (quoteBody (utf8 member.1), member.2))

def unlessEmpty {Item : Type} (items : List Item) (name : String) (value : Value) : Option (String × Value) :=
  if items.isEmpty then none else some (name, value)

def snapshotValue : Value :=
  let modules := sortedStrings document.modules
  let kv := sortedKVPairs document.kv
  objectOf
    [some ("schema_version", text document.schemaVersion), unlessEmpty document.chainID "chain_id" (text document.chainID),
      unlessEmpty modules "modules" (list (modules.map text)), some ("state", stateRecordValue document.state),
      some ("state_roots", list ((sortedStateRoots document.stateRoots).map stateRootValue)),
      unlessEmpty kv "kv" (list (kv.map kvPairValue))]

def snapshotChecksum : GoString :=
  Hex.encode (Sha256.sum256 (render (snapshotValue document))).bytes

end Checksum

def checkRoots (height : Height) : List GoString → List StateRootRecord → Except SnapshotErr (List GoString)
  | seen, [] => .ok seen
  | seen, root :: rest => do
      require (root.height = height) (.rootHeightMismatch height root.height root.space)
      require (root.space ≠ []) (.store .invalidNamespace)
      require (root.space ∉ seen) (.duplicateRoot root.space)
      checkRoots height (root.space :: seen) rest

def checkModules (rootNamespaces : List GoString) : List GoString → Except SnapshotErr Unit
  | [] => .ok ()
  | space :: rest => do
      require (space ∈ rootNamespaces) (.missingRoot space)
      checkModules rootNamespaces rest

def checkPairs (modules : List GoString) : List KVPair → Except SnapshotErr Unit
  | [] => .ok ()
  | pair :: rest => do
      require (pair.space ≠ []) (.store .invalidNamespace)
      require (pair.key ≠ []) (.store .invalidKey)
      require (pair.space ∈ modules) (.undeclaredNamespace pair.space)
      checkPairs modules rest

def validateSnapshotDocument (expectedChainID : GoString) : Except SnapshotErr Unit := do
  require (document.schemaVersion = utf8 "v1") (.unsupportedSchema document.schemaVersion)
  require (¬ (expectedChainID ≠ [] ∧ document.chainID ≠ [] ∧ document.chainID ≠ expectedChainID))
    (.chainMismatch expectedChainID document.chainID)
  require (document.state.height ≠ 0) (.store .invalidStateRecord)
  let rootNamespaces ← checkRoots document.state.height [] document.stateRoots
  checkModules rootNamespaces (sortedStrings document.modules)
  checkPairs (sortedStrings document.modules) document.kv
  require (¬ (document.checksum ≠ [] ∧ document.checksum ≠ snapshotChecksum document)) .checksumMismatch

def checkKVRoots (kv : List KVPair) : List StateRootRecord → Except SnapshotErr Unit
  | [] => .ok ()
  | root :: rest => do
      let actualRoot ← stored (proofRoot root.space (kvForNamespace kv root.space))
      require (actualRoot = root.root) (.rootMismatch root.space)
      checkKVRoots kv rest

def validateSnapshotKVRoots : Except SnapshotErr Unit :=
  if document.kv = [] then .ok () else checkKVRoots document.kv document.stateRoots

section Restoring

variable (ctx : Context)

-- The store as it is left behind, and the error if one is returned.
abbrev Restored := LevelDBStore × Except SnapshotErr Unit

def importModules (kv : List KVPair) : LevelDBStore → List GoString → Restored
  | store, [] => (store, .ok ())
  | store, space :: rest =>
    match importNamespace store ctx space (kvForNamespace kv space) with
    | .error reason => (store, .error (.store reason))
    | .ok store => importModules kv store rest

def saveRoots (kv : List KVPair) : LevelDBStore → List StateRootRecord → Restored
  | store, [] => (store, .ok ())
  | store, record :: rest =>
    match saveStateRoot store ctx record with
    | .error reason => (store, .error (.store reason))
    | .ok store =>
      if kv = [] then saveRoots kv store rest
      else
        match root store ctx record.space with
        | .error reason => (store, .error (.store reason))
        | .ok actualRoot =>
          if actualRoot ≠ record.root then (store, .error (.rootMismatch record.space)) else saveRoots kv store rest

def restoreSnapshotDocumentWithContext (store : LevelDBStore) (document : SnapshotDocument) : Restored :=
  match validateSnapshotDocument document [] with
  | .error reason => (store, .error reason)
  | .ok _ =>
    match validateSnapshotKVRoots document with
    | .error reason => (store, .error reason)
    | .ok _ =>
      match importModules ctx document.kv store document.modules with
      | (store, .error reason) => (store, .error reason)
      | (store, .ok _) =>
        match saveState store ctx document.state with
        | .error reason => (store, .error (.store reason))
        | .ok store => saveRoots ctx document.kv store document.stateRoots

end Restoring

-- computeAppHashAtHeight: the application's modules in their order, each with the root of its namespace.
def computeAppHashAtHeight (store : LevelDBStore) (chainID : GoString) (modules : List GoString) (height : Height) : Hash :=
  Sha256.sum256 (chainID ++ putUint64 height ++ modules.flatMap fun name =>
    match root store Context.background name with
    | .error _ => []
    | .ok found => name ++ found.bytes)

end Vexo.Snapshot

namespace Vexo.Snapshot

open ByteCodec Checks OrderedMap PrefixStore LevelDb List

variable {modules : List GoString} {pairs : List KVPair}

structure Checked (document : SnapshotDocument) : Prop where
  height : document.state.height ≠ 0
  rootHeights : ∀ record ∈ document.stateRoots, record.height = document.state.height
  rootNames : ∀ record ∈ document.stateRoots, record.space ≠ []
  distinctRoots : (document.stateRoots.map StateRootRecord.space).Nodup
  modules : ∀ space ∈ document.modules, space ≠ [] → space ∈ document.stateRoots.map StateRootRecord.space
  pairs : ∀ pair ∈ document.kv, pair.space ≠ [] ∧ pair.key ≠ [] ∧ pair.space ∈ document.modules
  kvRoots : document.kv ≠ [] → ∀ record ∈ document.stateRoots, proofRoot record.space (kvForNamespace document.kv record.space) = .ok record.root

variable {records : List StateRootRecord}

theorem check_roots_ok {height : Height} {seen found : List GoString} (checked : checkRoots height seen records = .ok found) :
    (∀ record ∈ records, record.height = height ∧ record.space ≠ [] ∧ record.space ∉ seen) ∧
      (records.map StateRootRecord.space).Nodup ∧ ∀ space, space ∈ found ↔ space ∈ seen ∨ space ∈ records.map StateRootRecord.space := by
  induction records generalizing seen with
  | nil =>
    cases checked
    simp
  | cons record rest ih =>
    simp only [checkRoots, ok_iff] at checked
    obtain ⟨level, named, fresh, checked⟩ := checked
    obtain ⟨each, distinct, members⟩ := ih checked
    refine ⟨?_, ?_, ?_⟩
    · intro other listed
      rcases mem_cons.mp listed with rfl | later
      · exact ⟨level, named, fresh⟩
      · obtain ⟨level, named, fresh⟩ := each other later
        exact ⟨level, named, fun known => fresh (mem_cons_of_mem _ known)⟩
    · refine nodup_cons.mpr ⟨fun listed => ?_, distinct⟩
      obtain ⟨other, later, same⟩ := mem_map.mp listed
      exact (each other later).2.2 (same ▸ mem_cons_self)
    · intro space
      rw [members, mem_cons, map_cons, mem_cons]
      grind

theorem check_modules_ok {found : List GoString} (checked : checkModules found modules = .ok ()) : ∀ space ∈ modules, space ∈ found := by
  induction modules with
  | nil => simp
  | cons first rest ih =>
    simp only [checkModules, ok_iff] at checked
    exact forall_mem_cons.mpr ⟨checked.1, ih checked.2⟩

theorem check_pairs_ok (checked : checkPairs modules pairs = .ok ()) : ∀ pair ∈ pairs, pair.space ≠ [] ∧ pair.key ≠ [] ∧ pair.space ∈ modules := by
  induction pairs with
  | nil => simp
  | cons first rest ih =>
    simp only [checkPairs, ok_iff] at checked
    obtain ⟨named, keyed, declared, checked⟩ := checked
    exact forall_mem_cons.mpr ⟨⟨named, keyed, declared⟩, ih checked⟩

theorem check_kv_roots_ok {kv : List KVPair} (checked : checkKVRoots kv records = .ok ()) :
    ∀ record ∈ records, proofRoot record.space (kvForNamespace kv record.space) = .ok record.root := by
  induction records with
  | nil => simp
  | cons first rest ih =>
    simp only [checkKVRoots, ok_iff] at checked
    obtain ⟨actual, computed, same, checked⟩ := checked
    refine forall_mem_cons.mpr ⟨?_, ih checked⟩
    cases found : proofRoot first.space (kvForNamespace kv first.space) with
    | error reason =>
      rw [found] at computed
      cases computed
    | ok given =>
      rw [found] at computed
      cases computed
      rw [same]

theorem mem_sorted_strings {values : List GoString} {value : GoString} : value ∈ sortedStrings values ↔ value ∈ values ∧ value ≠ [] := by
  simp [sortedStrings, mem_mergeSort]

theorem checked_of_valid {document : SnapshotDocument} {expected : GoString} (valid : validateSnapshotDocument document expected = .ok ())
    (rooted : validateSnapshotKVRoots document = .ok ()) : Checked document := by
  simp only [validateSnapshotDocument, ok_iff] at valid
  obtain ⟨-, -, height, found, roots, ⟨⟩, modules, ⟨⟩, pairs, -⟩ := valid
  obtain ⟨each, distinct, members⟩ := check_roots_ok roots
  refine ⟨height, fun record listed => (each record listed).1, fun record listed => (each record listed).2.1, distinct, ?_, ?_, ?_⟩
  · intro space listed named
    rcases (members space).mp (check_modules_ok modules space (mem_sorted_strings.mpr ⟨listed, named⟩)) with seen | rooted
    · cases seen
    · exact rooted
  · intro pair listed
    obtain ⟨named, keyed, declared⟩ := check_pairs_ok pairs pair listed
    exact ⟨named, keyed, (mem_sorted_strings.mp declared).1⟩
  · intro present
    rw [validateSnapshotKVRoots, if_neg present] at rooted
    exact check_kv_roots_ok rooted

section Importing

variable (kv : List KVPair) (store : LevelDBStore)

def importOne (space : GoString) : LevelDBStore :=
  { store with
    kv := putAll (erasePrefix store.kv (kvNamespacePrefix space))
      ((kvForNamespace kv space).map fun pair => (kvKey space pair.key, pair.value)) }

def imported (modules : List GoString) : LevelDBStore := modules.foldl (importOne kv) store

def KeysOnce (modules : List GoString) : Prop :=
  ∀ space ∈ modules, ((kvForNamespace kv space).map KVPair.key).Nodup

variable {space : GoString}

theorem check_imported_ok (own : ∀ pair ∈ pairs, pair.space = space ∧ pair.key ≠ []) : checkImported space pairs = .ok () := by
  induction pairs with
  | nil => rfl
  | cons first rest ih =>
    obtain ⟨⟨named, keyed⟩, later⟩ := forall_mem_cons.mp own
    simp only [checkImported, ok_iff]
    exact ⟨fun other => other.2 named, keyed, ih later⟩

variable {ctx : Context} {kv : List KVPair}

theorem import_namespace_ok (live : ctx.done = false) (keyed : ∀ pair ∈ kv, pair.key ≠ []) (store : LevelDBStore)
    (named : space ≠ []) : importNamespace store ctx space (kvForNamespace kv space) = .ok (importOne kv store space) := by
  have own : ∀ pair ∈ kvForNamespace kv space, pair.space = space ∧ pair.key ≠ [] := by
    intro pair listed
    obtain ⟨listed, same⟩ := mem_filter.mp listed
    exact ⟨of_decide_eq_true same, keyed pair listed⟩
  simp only [importNamespace, ok_iff]
  exact ⟨live, named, (), check_imported_ok own, rfl⟩

theorem import_modules_eq (live : ctx.done = false) (keyed : ∀ pair ∈ kv, pair.key ≠ []) (modules : List GoString) (store : LevelDBStore) :
    importModules ctx kv store modules = (imported kv store (modules.takeWhile (· ≠ [])),
      if [] ∈ modules then .error (.store .invalidNamespace) else .ok ()) := by
  induction modules generalizing store with
  | nil => rfl
  | cons space rest ih =>
    by_cases named : space = []
    · subst named
      have refused : importNamespace store ctx [] (kvForNamespace kv []) = .error .invalidNamespace := by
        simp only [importNamespace, require, live, if_true, ne_eq, not_true_eq_false, if_false]
        rfl
      rw [importModules, refused]
      simp [imported]
    · rw [importModules, import_namespace_ok live keyed store named]
      simp only [ih, takeWhile_cons, named, ne_eq, not_false_eq_true, decide_true, if_true, mem_cons, Ne.symm named, false_or]
      rfl

theorem lookup_import_one (once : ((kvForNamespace kv space).map KVPair.key).Nodup) (store : LevelDBStore) (raw value : Bytes) :
    (importOne kv store space).kv.lookup raw = some value ↔ (∃ key, raw = kvKey space key ∧ (⟨space, key, value⟩ : KVPair) ∈ kv) ∨
        (¬ kvNamespacePrefix space <+: raw ∧ store.kv.lookup raw = some value) := by
  have distinct : (((kvForNamespace kv space).map fun pair => (kvKey space pair.key, pair.value)).map Prod.fst).Nodup := by
    rw [map_map]
    have raws := once.map (fun _ _ same => kv_key_injective same : Function.Injective (kvKey space))
    rwa [map_map] at raws
  have put : (raw, value) ∈ (kvForNamespace kv space).map (fun pair => (kvKey space pair.key, pair.value)) ↔
      ∃ key, raw = kvKey space key ∧ (⟨space, key, value⟩ : KVPair) ∈ kv := by
    rw [mem_map]
    constructor
    · rintro ⟨pair, listed, shown⟩
      obtain ⟨given, same⟩ := mem_filter.mp listed
      obtain ⟨rfl, rfl⟩ := Prod.mk.inj shown
      cases of_decide_eq_true same
      exact ⟨pair.key, rfl, given⟩
    · rintro ⟨key, rfl, listed⟩
      exact ⟨⟨space, key, value⟩, mem_filter.mpr ⟨listed, decide_eq_true rfl⟩, rfl⟩
  rw [importOne, lookup_put_all_some distinct, put, lookup_erase_prefix]
  refine or_congr_right ?_
  by_cases under : kvNamespacePrefix space <+: raw
  · simp [under]
  · have unlisted : raw ∉ ((kvForNamespace kv space).map fun pair => (kvKey space pair.key, pair.value)).map Prod.fst := by
      rw [map_map, mem_map]
      rintro ⟨pair, -, rfl⟩
      exact under (prefix_kv_key ..)
    simp only [unlisted, under, not_false_eq_true, if_false, true_and]

theorem imported_append (modules : List GoString) (space : GoString) :
    imported kv store (modules ++ [space]) = importOne kv (imported kv store modules) space := foldl_append

def Agreeing (kv : List KVPair) (modules : List GoString) : Prop :=
  ∀ space ∈ modules, ∀ pair ∈ kv, ∀ key, kvKey pair.space pair.key = kvKey space key → (⟨space, key, pair.value⟩ : KVPair) ∈ kv

theorem imported_declared (once : KeysOnce kv modules) (agreeing : Agreeing kv modules) (store : LevelDBStore)
    (declared : space ∈ modules) (key value : Bytes) :
    (imported kv store modules).kv.lookup (kvKey space key) = some value ↔ (⟨space, key, value⟩ : KVPair) ∈ kv := by
  induction modules using reverseRecOn with
  | nil => cases declared
  | append_singleton earlier last ih =>
    have lastDeclared : last ∈ earlier ++ [last] := mem_append_right _ (mem_singleton_self _)
    rw [imported_append, lookup_import_one (once last lastDeclared)]
    by_cases under : kvNamespacePrefix last <+: kvKey space key
    · obtain ⟨rest, named⟩ := under
      have covers : kvNamespacePrefix last <+: kvKey space key := ⟨rest, named⟩
      have same : kvKey last rest = kvKey space key := named
      simp only [covers, not_true_eq_false, false_and, or_false]
      constructor
      · rintro ⟨other, shown, listed⟩
        exact agreeing space declared ⟨last, other, value⟩ listed key shown.symm
      · intro listed
        exact ⟨rest, same.symm, agreeing last lastDeclared ⟨space, key, value⟩ listed rest same.symm⟩
    · have earlierDeclared : space ∈ earlier := by
        rcases mem_append.mp declared with here | here
        · exact here
        · rw [mem_singleton] at here
          exact absurd (here ▸ prefix_kv_key space key) under
      have outside : ¬ ∃ other, kvKey space key = kvKey last other ∧ (⟨last, other, value⟩ : KVPair) ∈ kv := by
        rintro ⟨other, shown, -⟩
        exact under (shown ▸ prefix_kv_key last other)
      rw [or_iff_right outside, and_iff_right under]
      exact ih (forall_mem_append.mp once).1
        (forall_mem_append.mp agreeing).1 earlierDeclared

end Importing

section Roots

variable {document : SnapshotDocument} {store : LevelDBStore} {space : GoString}

theorem proof_root_keyed {found : Hash} (computed : proofRoot space pairs = .ok found) : StateProof.WellKeyed space (stateProofPairs pairs) := by
  unfold proofRoot at computed
  cases rooted : StateProof.root space (stateProofPairs pairs) with
  | none =>
    rw [rooted] at computed
    cases computed
  | some top =>
    unfold StateProof.root at rooted
    obtain ⟨leaves, sorted, -⟩ := Option.map_eq_some_iff.mp rooted
    exact (StateProof.sorted_leaves_iff.mp sorted).1

theorem Checked.keys_once (checked : Checked document) : KeysOnce document.kv document.modules := by
  intro space declared
  by_cases present : kvForNamespace document.kv space = []
  · rw [present]
    exact nodup_nil
  · obtain ⟨pair, listed⟩ := exists_mem_of_ne_nil _ present
    obtain ⟨given, same⟩ := mem_filter.mp listed
    cases of_decide_eq_true same
    obtain ⟨record, recorded, named⟩ := mem_map.mp (checked.modules _ declared (checked.pairs pair given).1)
    have keyed := proof_root_keyed (checked.kvRoots (ne_nil_of_mem given) record recorded)
    have distinct := keyed.distinct
    rwa [named, stateProofPairs, map_map] at distinct

theorem root_of_contents (named : space ≠ []) (own : ∀ pair ∈ pairs, pair.space = space ∧ pair.key ≠ []) (once : (pairs.map KVPair.key).Nodup)
    (contents : ∀ key value, store.kv.lookup (kvKey space key) = some value ↔ (⟨space, key, value⟩ : KVPair) ∈ pairs) :
    root store .background space = proofRoot space pairs := by
  obtain ⟨held, exported⟩ := @export_ok .background space store rfl named
  have same : held.Perm pairs := by
    refine (perm_ext_iff_of_nodup (export_keys_nodup exported).of_map once.of_map).mpr fun pair => ?_
    rw [export_mem exported, contents]
    constructor
    · rintro ⟨rfl, listed⟩
      exact listed
    · intro listed
      obtain ⟨rfl, -⟩ := own pair listed
      exact ⟨rfl, listed⟩
  have keyed : StateProof.WellKeyed space (stateProofPairs pairs) := by
    refine ⟨named, ?_, ?_⟩
    · intro pair listed
      obtain ⟨given, member, rfl⟩ := mem_map.mp listed
      exact (own given member).2
    · rw [stateProofPairs, map_map]
      exact once
  rw [root, exported]
  simp only [bind, Except.bind, proofRoot]
  rw [show StateProof.root space (stateProofPairs held) = _ from StateProof.root_order keyed (same.map _)]

theorem Checked.imported_root (checked : Checked document) (agreeing : Agreeing document.kv document.modules)
    (store : LevelDBStore) (declared : space ∈ document.modules) (named : space ≠ []) :
    root (imported document.kv store document.modules) .background space = proofRoot space (kvForNamespace document.kv space) := by
  refine root_of_contents named ?_ (checked.keys_once space declared) fun key value => ?_
  · intro pair listed
    obtain ⟨given, same⟩ := mem_filter.mp listed
    exact ⟨of_decide_eq_true same, (checked.pairs pair given).2.1⟩
  · rw [imported_declared checked.keys_once agreeing store declared, kvForNamespace, mem_filter]
    simp

end Roots

variable {record : StateRootRecord}

section Saving

variable {ctx : Context} {kv : List KVPair} (store : LevelDBStore)

def recordState (state : StateRecord) : LevelDBStore :=
  { store with latestState := some state, states := store.states.insert state.height state }

def recordRoots (records : List StateRootRecord) : LevelDBStore :=
  { store with
    stateRoots := records.foldl (fun table record => table.insert (record.height, record.space) record.written) store.stateRoots }

theorem root_kv_eq {store other : LevelDBStore} (same : other.kv = store.kv) (ctx : Context) (space : GoString) :
    root other ctx space = root store ctx space := by
  unfold root exportNamespace
  rw [same]

theorem save_state_root_ok (live : ctx.done = false) (store : LevelDBStore)
    (valid : record.height ≠ 0 ∧ record.space ≠ []) : saveStateRoot store ctx record = .ok (recordRoots store [record]) := by
  simp only [saveStateRoot, ok_iff]
  exact ⟨live, not_or.mpr valid, rfl⟩

theorem record_roots_cons (record : StateRootRecord) (rest : List StateRootRecord) :
    recordRoots (recordRoots store [record]) rest = recordRoots store (record :: rest) := rfl

theorem save_roots_match (live : ctx.done = false) (records : List StateRootRecord) (store : LevelDBStore)
    (valid : ∀ record ∈ records, record.height ≠ 0 ∧ record.space ≠ [])
    (matching : kv = [] ∨ ∀ record ∈ records, root store ctx record.space = .ok record.root) :
    saveRoots ctx kv store records = (recordRoots store records, .ok ()) := by
  induction records generalizing store with
  | nil => rfl
  | cons record rest ih =>
    obtain ⟨first, later⟩ := forall_mem_cons.mp valid
    rw [saveRoots, save_state_root_ok live store first]
    have step := ih (recordRoots store [record]) later (matching.imp_right fun each other listed =>
      (root_kv_eq rfl ctx other.space).trans (each other (mem_cons_of_mem _ listed)))
    rw [record_roots_cons] at step
    by_cases none : kv = []
    · simp only [none, if_true] at step ⊢
      exact step
    · have same := (matching.resolve_left none) record mem_cons_self
      simp only [none, if_false, root_kv_eq (show (recordRoots store [record]).kv = store.kv from rfl), same, ne_eq, not_true_eq_false]
      exact step

theorem save_roots_mismatch (live : ctx.done = false) (present : kv ≠ []) (before : List StateRootRecord)
    {after : List StateRootRecord} (store : LevelDBStore)
    (valid : ∀ other ∈ before ++ record :: after, other.height ≠ 0 ∧ other.space ≠ [])
    (matching : ∀ other ∈ before, root store ctx other.space = .ok other.root)
    (differs : root store ctx record.space ≠ .ok record.root) :
    ∃ reason, saveRoots ctx kv store (before ++ record :: after) = (recordRoots store (before ++ [record]), .error reason) := by
  induction before generalizing store with
  | nil =>
    have first := valid record mem_cons_self
    rw [nil_append, saveRoots, save_state_root_ok live store first]
    simp only [present, if_false, root_kv_eq (show (recordRoots store [record]).kv = store.kv from rfl)]
    cases found : root store ctx record.space with
    | error reason => exact ⟨_, rfl⟩
    | ok actual =>
      have other : actual ≠ record.root := fun same => differs (by rw [found, same])
      simp only [ne_eq, other, not_false_eq_true, if_true]
      exact ⟨_, rfl⟩
  | cons first rest ih =>
    obtain ⟨firstValid, later⟩ := forall_mem_cons.mp valid
    have same := matching first mem_cons_self
    have step := ih (recordRoots store [first]) later
      (fun other listed => (root_kv_eq rfl ctx other.space).trans (matching other (mem_cons_of_mem _ listed)))
      ((root_kv_eq rfl ctx record.space).trans_ne differs)
    rw [cons_append, saveRoots, save_state_root_ok live store firstValid]
    simp only [present, if_false, root_kv_eq (show (recordRoots store [first]).kv = store.kv from rfl), same, ne_eq, not_true_eq_false]
    exact step

end Saving

structure SameContents (store other : LevelDBStore) : Prop where
  kv : ∀ raw, other.kv.lookup raw = store.kv.lookup raw
  latestState : other.latestState = store.latestState
  states : ∀ height, other.states.lookup height = store.states.lookup height
  stateRoots : ∀ key, other.stateRoots.lookup key = store.stateRoots.lookup key
  history : other.history = store.history

section Outcome

variable (ctx : Context) (store : LevelDBStore) (document : SnapshotDocument) (chainID : GoString) (names : List GoString)

-- The store is what the document says it is, for an application of that chain with those modules.
structure Claimed : Prop where
  contents : ∀ space ∈ document.modules, ∃ pairs, exportNamespace store Context.background space = .ok pairs ∧
    ∀ pair, pair ∈ pairs ↔ pair ∈ kvForNamespace document.kv space
  roots : ∀ space ∈ document.modules, ∃ record, stateRoot store Context.background document.state.height space = .ok record ∧
    root store Context.background space = .ok record.root
  appHash : ∃ state, stateByHeight store Context.background document.state.height = .ok state ∧
    state.appHash = computeAppHashAtHeight store chainID names document.state.height

def RestoresOrKeeps : Prop :=
  match restoreSnapshotDocumentWithContext ctx store document with
  | (next, .ok _) => Claimed next document chainID names
  | (next, .error _) => SameContents store next

def Refused : Prop :=
  ctx.done = true ∨ validateSnapshotDocument document [] ≠ .ok () ∨ validateSnapshotKVRoots document ≠ .ok ()

-- What the code leaves unchecked before it writes.
structure Honest : Prop where
  named : [] ∉ document.modules
  text : ∀ space ∈ document.modules, Utf8.toValid space = space
  agreeing : Agreeing document.kv document.modules
  roots : ∀ record ∈ document.stateRoots, record.space ∈ document.modules →
    proofRoot record.space (kvForNamespace document.kv record.space) = .ok record.root
  undeclared : document.kv ≠ [] → ∀ record ∈ document.stateRoots, record.space ∉ document.modules →
    root (imported document.kv store document.modules) Context.background record.space = .ok record.root
  appHash : document.state.appHash = computeAppHashAtHeight (imported document.kv store document.modules) chainID names document.state.height

-- An import that fails halfway, after writes that repeat what the store held.
inductive Repeats : Prop where
  | unnamed (empty : [] ∈ document.modules)
      (same : SameContents store (imported document.kv store (document.modules.takeWhile (· ≠ []))))
  | mismatch (named : [] ∉ document.modules) (present : document.kv ≠ []) (before : List StateRootRecord) (record : StateRootRecord)
      (after : List StateRootRecord) (split : document.stateRoots = before ++ record :: after)
      (matching : ∀ other ∈ before, root (imported document.kv store document.modules) Context.background other.space = .ok other.root)
      (differs : root (imported document.kv store document.modules) Context.background record.space ≠ .ok record.root)
      (same : SameContents store
        (recordRoots (recordState (imported document.kv store document.modules) document.state) (before ++ [record])))

variable {ctx document}

theorem root_live (live : ctx.done = false) (store : LevelDBStore) (space : GoString) : root store ctx space = root store .background space := by
  cases ctx
  cases live
  rfl

theorem take_all_named (named : [] ∉ modules) : modules.takeWhile (· ≠ []) = modules := by
  refine takeWhile_eq_self_iff.mpr fun space listed => decide_eq_true fun empty => named (empty ▸ listed)

theorem restore_refused (refused : Refused ctx document) : ∃ reason, restoreSnapshotDocumentWithContext ctx store document = (store, .error reason) := by
  unfold restoreSnapshotDocumentWithContext
  cases valid : validateSnapshotDocument document [] with
  | error reason => exact ⟨reason, rfl⟩
  | ok done =>
    cases rooted : validateSnapshotKVRoots document with
    | error reason => exact ⟨reason, rfl⟩
    | ok done =>
      have stopped : ctx.done = true := by
        rcases refused with stopped | invalid | unrooted
        · exact stopped
        · exact absurd valid invalid
        · exact absurd rooted unrooted
      have none : ∀ space pairs, importNamespace store ctx space pairs = .error .contextDone := by
        intro space pairs
        rw [importNamespace, require, if_neg (by rw [stopped]; decide)]
        rfl
      have unsaved : saveState store ctx document.state = .error .contextDone := by
        rw [saveState, require, if_neg (by rw [stopped]; decide)]
        rfl
      cases document.modules with
      | nil =>
        simp only [importModules, unsaved]
        exact ⟨_, rfl⟩
      | cons space rest =>
        simp only [importModules, none]
        exact ⟨_, rfl⟩

variable (live : ctx.done = false) (valid : validateSnapshotDocument document [] = .ok ()) (rooted : validateSnapshotKVRoots document = .ok ())
include live valid rooted

theorem restore_unnamed (empty : [] ∈ document.modules) : ∃ reason, restoreSnapshotDocumentWithContext ctx store document =
      (imported document.kv store (document.modules.takeWhile (· ≠ [])), .error reason) := by
  have checked := checked_of_valid valid rooted
  rw [restoreSnapshotDocumentWithContext, valid, rooted]
  simp only [import_modules_eq live (fun pair listed => (checked.pairs pair listed).2.1), if_pos empty]
  exact ⟨_, rfl⟩

theorem restore_named (named : [] ∉ document.modules) : restoreSnapshotDocumentWithContext ctx store document =
      saveRoots ctx document.kv (recordState (imported document.kv store document.modules) document.state) document.stateRoots := by
  have checked := checked_of_valid valid rooted
  have saved : saveState (imported document.kv store document.modules) ctx document.state =
      .ok (recordState (imported document.kv store document.modules) document.state) := by
    simp only [saveState, ok_iff]
    exact ⟨live, checked.height, rfl⟩
  rw [restoreSnapshotDocumentWithContext, valid, rooted]
  simp only [import_modules_eq live (fun pair listed => (checked.pairs pair listed).2.1), if_neg named, take_all_named named, saved]

end Outcome

section Faithful

variable {store : LevelDBStore} {document : SnapshotDocument}

def restoredStore (store : LevelDBStore) (document : SnapshotDocument) : LevelDBStore :=
  recordRoots (recordState (imported document.kv store document.modules) document.state) document.stateRoots

theorem restored_root (store : LevelDBStore) (document : SnapshotDocument) (space : GoString) :
    root (restoredStore store document) .background space = root (imported document.kv store document.modules) .background space := root_kv_eq rfl _ _

theorem restored_app_hash (store : LevelDBStore) (document : SnapshotDocument) (chainID : GoString) (names : List GoString) (height : Height) :
    computeAppHashAtHeight (restoredStore store document) chainID names height =
      computeAppHashAtHeight (imported document.kv store document.modules) chainID names height := by
  unfold computeAppHashAtHeight
  simp only [restored_root]

variable (checked : Checked document)
include checked

theorem Checked.state_root_eq (store : LevelDBStore) (listed : record ∈ document.stateRoots) :
    stateRoot (restoredStore store document) .background document.state.height record.space =
      if Utf8.toValid record.space = record.space then .ok record else .error .invalidStateRoot := by
  have plain := checked.distinctRoots.of_map
  have keys : (document.stateRoots.map fun record => (record.height, record.space)).Nodup := by
    refine (nodup_map_iff_inj_on plain).mpr fun first member second member' same => ?_
    exact (nodup_map_iff_inj_on plain).mp checked.distinctRoots first member second member' (Prod.mk.inj same).2
  have found : (restoredStore store document).stateRoots.lookup (record.height, record.space) = some record.written :=
    lookup_insert_member keys listed _
  rw [checked.rootHeights record listed] at found
  have given : ¬ (document.state.height = 0 ∨ record.space = []) := not_or.mpr ⟨checked.height, checked.rootNames record listed⟩
  rw [stateRoot, require, if_pos (show Context.background.done = false from rfl), require, if_pos given]
  simp only [bind, Except.bind, found]
  by_cases valid : Utf8.toValid record.space = record.space
  · have same : record.written = record := by
      unfold StateRootRecord.written
      rw [valid]
    rw [same, require, if_pos ⟨checked.rootHeights record listed, rfl⟩, if_pos valid]
    rfl
  · have differs : ¬ (record.written.height = document.state.height ∧ record.written.space = record.space) := fun same => valid same.2
    rw [require, if_neg differs, if_neg valid]

theorem Checked.record_of (named : [] ∉ document.modules) {space : GoString} (declared : space ∈ document.modules) :
    ∃ record ∈ document.stateRoots, record.space = space :=
  mem_map.mp (checked.modules space declared fun empty => named (empty ▸ declared))

theorem Checked.state_eq (store : LevelDBStore) :
    stateByHeight (restoredStore store document) .background document.state.height = .ok document.state := by
  have found : (restoredStore store document).states.lookup document.state.height = some document.state := AList.lookup_insert _
  rw [stateByHeight, require, if_pos (show Context.background.done = false from rfl), require, if_pos checked.height]
  simp only [bind, Except.bind, found, require, if_true]
  rfl

theorem Checked.agreeing_of_contents (contents : ∀ space ∈ document.modules, ∃ pairs, exportNamespace store .background space = .ok pairs ∧
      ∀ pair, pair ∈ pairs ↔ pair ∈ kvForNamespace document.kv space) : Agreeing document.kv document.modules := by
  intro space declared pair listed key same
  obtain ⟨own, exported, members⟩ := contents pair.space (checked.pairs pair listed).2.2
  obtain ⟨others, exported', members'⟩ := contents space declared
  have held := ((export_mem exported pair).mp ((members pair).mpr (mem_filter.mpr ⟨listed, decide_eq_true rfl⟩))).2
  rw [same] at held
  exact (mem_filter.mp ((members' _).mp ((export_mem exported' ⟨space, key, pair.value⟩).mpr ⟨rfl, held⟩))).1

theorem Checked.claimed_iff (named : [] ∉ document.modules) (chainID : GoString) (names : List GoString) :
    Claimed (restoredStore store document) document chainID names ↔
      (∀ space ∈ document.modules, Utf8.toValid space = space) ∧ Agreeing document.kv document.modules ∧
      (∀ record ∈ document.stateRoots, record.space ∈ document.modules →
        proofRoot record.space (kvForNamespace document.kv record.space) = .ok record.root) ∧
      document.state.appHash = computeAppHashAtHeight (imported document.kv store document.modules) chainID names document.state.height := by
  have nonempty : ∀ space ∈ document.modules, space ≠ [] := fun space declared empty => named (empty ▸ declared)
  constructor
  · intro claimed
    have agreeing := checked.agreeing_of_contents claimed.contents
    have saved : ∀ record ∈ document.stateRoots, record.space ∈ document.modules → Utf8.toValid record.space = record.space ∧
        root (restoredStore store document) .background record.space = .ok record.root := by
      intro record listed declared
      obtain ⟨found, read, rooted⟩ := claimed.roots record.space declared
      rw [checked.state_root_eq store listed] at read
      split at read
      · next valid =>
        cases read
        exact ⟨valid, rooted⟩
      · cases read
    refine ⟨fun space declared => ?_, agreeing, fun record listed declared => ?_, ?_⟩
    · obtain ⟨record, listed, rfl⟩ := checked.record_of named declared
      exact (saved record listed declared).1
    · rw [← checked.imported_root agreeing store declared (nonempty _ declared), ← restored_root]
      exact (saved record listed declared).2
    · obtain ⟨state, read, computed⟩ := claimed.appHash
      rw [checked.state_eq] at read
      cases read
      rw [computed, restored_app_hash]
  · rintro ⟨text, agreeing, roots, appHash⟩
    refine ⟨fun space declared => ?_, fun space declared => ?_, document.state, checked.state_eq store, ?_⟩
    · obtain ⟨pairs, exported⟩ := @export_ok .background space (restoredStore store document) rfl (nonempty space declared)
      refine ⟨pairs, exported, fun pair => ?_⟩
      rw [export_mem exported, kvForNamespace, mem_filter, decide_eq_true_iff, and_comm]
      refine and_congr_left fun same => ?_
      subst same
      exact imported_declared checked.keys_once agreeing store declared pair.key pair.value
    · obtain ⟨record, listed, rfl⟩ := checked.record_of named declared
      refine ⟨record, ?_, ?_⟩
      · rw [checked.state_root_eq store listed, if_pos (text _ declared)]
      · rw [restored_root, checked.imported_root agreeing store declared (nonempty _ declared)]
        exact roots record listed declared
    · rw [restored_app_hash]
      exact appHash

end Faithful

theorem first_failing {Item : Type} (holds : Item → Prop) (items : List Item) :
    (∀ item ∈ items, holds item) ∨ ∃ before item after, items = before ++ item :: after ∧ (∀ other ∈ before, holds other) ∧ ¬ holds item := by
  induction items with
  | nil => exact .inl (by simp)
  | cons first rest ih =>
    by_cases passes : holds first
    · rcases ih with all | ⟨before, item, after, split, passed, fails⟩
      · exact .inl (forall_mem_cons.mpr ⟨passes, all⟩)
      · exact .inr ⟨first :: before, item, after, by rw [split]; rfl, forall_mem_cons.mpr ⟨passes, passed⟩, fails⟩
    · exact .inr ⟨[], first, rest, rfl, by simp, passes⟩

-- A restored store is what the document claims, or nothing changed, exactly for these documents.
theorem restores_or_keeps_iff (ctx : Context) (store : LevelDBStore) (document : SnapshotDocument) (chainID : GoString) (names : List GoString) :
    RestoresOrKeeps ctx store document chainID names ↔ Refused ctx document ∨ Honest store document chainID names ∨ Repeats store document := by
  by_cases refused : Refused ctx document
  · obtain ⟨reason, kept⟩ := restore_refused store refused
    rw [RestoresOrKeeps, kept]
    exact iff_of_true ⟨fun _ => rfl, rfl, fun _ => rfl, fun _ => rfl, rfl⟩ (.inl refused)
  · obtain ⟨live, valid, rooted⟩ : ctx.done = false ∧ validateSnapshotDocument document [] = .ok () ∧ validateSnapshotKVRoots document = .ok () := by
      simpa [Refused] using refused
    have checked := checked_of_valid valid rooted
    rw [or_iff_right refused]
    by_cases empty : [] ∈ document.modules
    · obtain ⟨reason, stopped⟩ := restore_unnamed store live valid rooted empty
      rw [RestoresOrKeeps, stopped]
      constructor
      · intro same
        exact .inr (.unnamed empty same)
      · rintro (honest | ⟨-, same⟩ | named)
        · exact absurd empty honest.named
        · exact same
        · exact absurd empty named
    · have usable : ∀ record ∈ document.stateRoots, record.height ≠ 0 ∧ record.space ≠ [] := fun record listed =>
        ⟨fun zero => checked.height ((checked.rootHeights record listed).symm.trans zero), checked.rootNames record listed⟩
      have held : ∀ space, root (recordState (imported document.kv store document.modules) document.state) ctx space =
          root (imported document.kv store document.modules) .background space :=
        fun space => (root_kv_eq rfl ctx space).trans (root_live live _ space)
      have saves : (document.kv = [] ∨ ∀ record ∈ document.stateRoots,
            root (imported document.kv store document.modules) .background record.space = .ok record.root) →
          (RestoresOrKeeps ctx store document chainID names ↔ Claimed (restoredStore store document) document chainID names) := by
        intro matching
        rw [RestoresOrKeeps, restore_named store live valid rooted empty, save_roots_match live document.stateRoots _ usable
          (matching.imp_right fun each record listed => (held record.space).trans (each record listed))]
        exact Iff.rfl
      constructor
      · intro keeps
        by_cases none : document.kv = []
        · obtain ⟨text, agreeing, roots, appHash⟩ := (checked.claimed_iff empty chainID names).mp ((saves (.inl none)).mp keeps)
          exact .inl ⟨empty, text, agreeing, roots, fun present => absurd none present, appHash⟩
        · rcases first_failing (fun record : StateRootRecord =>
            root (imported document.kv store document.modules) .background record.space = .ok record.root) document.stateRoots
            with all | ⟨before, record, after, split, matching, differs⟩
          · obtain ⟨text, agreeing, roots, appHash⟩ := (checked.claimed_iff empty chainID names).mp ((saves (.inr all)).mp keeps)
            exact .inl ⟨empty, text, agreeing, roots, fun _ record listed _ => all record listed, appHash⟩
          · obtain ⟨reason, stopped⟩ := save_roots_mismatch live none before _ (split ▸ usable)
              (fun other listed => (held other.space).trans (matching other listed)) ((held record.space).trans_ne differs)
            rw [RestoresOrKeeps, restore_named store live valid rooted empty, split, stopped] at keeps
            exact .inr (.mismatch empty none before record after split matching differs keeps)
      · rintro (honest | repeats)
        · have matching : document.kv = [] ∨ ∀ record ∈ document.stateRoots,
              root (imported document.kv store document.modules) .background record.space = .ok record.root := by
            by_cases none : document.kv = []
            · exact .inl none
            · refine .inr fun record listed => ?_
              by_cases declared : record.space ∈ document.modules
              · rw [checked.imported_root honest.agreeing store declared (checked.rootNames record listed)]
                exact honest.roots record listed declared
              · exact honest.undeclared none record listed declared
          exact (saves matching).mpr ((checked.claimed_iff empty chainID names).mpr
            ⟨honest.text, honest.agreeing, honest.roots, honest.appHash⟩)
        · cases repeats with
          | unnamed unnamed same => exact absurd unnamed empty
          | mismatch named present before record after split matching differs same =>
            obtain ⟨reason, stopped⟩ := save_roots_mismatch live present before _ (split ▸ usable)
              (fun other listed => (held other.space).trans (matching other listed)) ((held record.space).trans_ne differs)
            rw [RestoresOrKeeps, restore_named store live valid rooted empty, split, stopped]
            exact same

def bank : GoString := utf8 "bank"

def stateAt (appHash : Hash) : StateRecord := ⟨1, appHash, zeroHash, zeroHash, 0, 0, 0, 0, 0, 0⟩

def documentOf (modules : List GoString) (appHash root : Hash) (kv : List KVPair) : SnapshotDocument :=
  ⟨utf8 "v1", utf8 "vexo", modules, stateAt appHash, [⟨1, bank, root⟩], kv, []⟩

-- A root for a namespace of which no pairs are given, and a list of modules with an empty name in it.
def emptyHanded : SnapshotDocument := documentOf [bank] zeroHash zeroHash []
def unnamedModule : SnapshotDocument := documentOf [bank, []] zeroHash zeroHash []

def heldBalance : LevelDBStore := { emptyStore with kv := emptyStore.kv.insert (kvKey bank [1]) [2] }

theorem documents_evaluated : (restoreSnapshotDocumentWithContext .background emptyStore emptyHanded).2 = .ok () ∧
      stateRoot (restoreSnapshotDocumentWithContext .background emptyStore emptyHanded).1 .background 1 bank = .ok ⟨1, bank, zeroHash⟩ ∧
      root (restoreSnapshotDocumentWithContext .background emptyStore emptyHanded).1 .background bank ≠ .ok zeroHash ∧
      (restoreSnapshotDocumentWithContext .background heldBalance unnamedModule).2 = .error (.store .invalidNamespace) ∧
      (restoreSnapshotDocumentWithContext .background heldBalance unnamedModule).1.kv.lookup (kvKey bank [1]) = none ∧
      heldBalance.kv.lookup (kvKey bank [1]) = some [2] := by
  decide +kernel

theorem snapshot_restored_unchecked : ¬ RestoresOrKeeps Context.background emptyStore emptyHanded (utf8 "vexo") [bank] ∧
      ¬ RestoresOrKeeps Context.background heldBalance unnamedModule (utf8 "vexo") [bank] := by
  obtain ⟨restored, saved, differs, stopped, gone, held⟩ := documents_evaluated
  constructor
  · unfold RestoresOrKeeps
    generalize restoreSnapshotDocumentWithContext .background emptyStore emptyHanded = outcome at restored saved differs ⊢
    obtain ⟨next, result⟩ := outcome
    cases (show result = .ok () from restored)
    intro claimed
    obtain ⟨record, read, rooted⟩ := claimed.roots bank (mem_singleton_self _)
    cases (show Except.ok record = .ok _ from read.symm.trans saved)
    exact differs rooted
  · unfold RestoresOrKeeps
    generalize restoreSnapshotDocumentWithContext .background heldBalance unnamedModule = outcome at stopped gone ⊢
    obtain ⟨next, result⟩ := outcome
    cases (show result = .error _ from stopped)
    intro same
    have kept := same.kv (kvKey bank [1])
    rw [held] at kept
    exact absurd (kept.symm.trans gone) (by decide)

def onePair : List KVPair := [⟨bank, [1], [2]⟩]

def honestDocument : SnapshotDocument :=
  documentOf [bank] (computeAppHashAtHeight (imported onePair emptyStore [bank]) (utf8 "vexo") [bank] 1) (StateProof.leafHash bank [1] [2]) onePair

theorem honest_snapshot_restored : RestoresOrKeeps Context.background emptyStore honestDocument (utf8 "vexo") [bank] := by
  refine (restores_or_keeps_iff .background emptyStore honestDocument (utf8 "vexo") [bank]).mpr (.inr (.inl ?_))
  have rooted : proofRoot bank (kvForNamespace onePair bank) = .ok (StateProof.leafHash bank [1] [2]) := by
    simp [proofRoot, kvForNamespace, onePair, stateProofPairs, StateProof.root, StateProof.sortedLeaves, StateProof.merkleRoot,
      StateProof.climbLevels, show bank ≠ [] by with_unfolding_all decide]
  refine ⟨?_, ?_, ?_, ?_, ?_, rfl⟩
  · with_unfolding_all decide
  · intro space declared
    cases mem_singleton.mp declared
    with_unfolding_all decide
  · intro space declared pair listed key same
    cases mem_singleton.mp declared
    cases mem_singleton.mp listed
    cases kv_key_injective same
    exact listed
  · intro record listed _
    cases mem_singleton.mp listed
    exact rooted
  · intro _ record listed undeclared
    cases mem_singleton.mp listed
    exact absurd (mem_singleton_self _) undeclared

end Vexo.Snapshot
