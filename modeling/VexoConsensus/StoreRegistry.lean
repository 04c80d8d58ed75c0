import VexoConsensus.Lib.Checks
import VexoConsensus.Lib.OrderedMap
import VexoConsensus.Lib.TextCodec
import VexoConsensus.Validator

namespace Vexo

open Checks OrderedMap

structure Candidate where
  address : GoString
  publicKey : PublicKey
  stake : UInt64
deriving DecidableEq

abbrev AdmissionPolicy := Context → Candidate → SetSnapshot → Except Err Unit

structure AdmissionConfig where
  permissionless : Bool
  minStake : UInt64
  maxValidators : Int
  whitelist : GoString → Bool
  requirePublicKey : Bool

def configurableAdmissionPolicy (config : AdmissionConfig) : AdmissionPolicy := fun ctx candidate currentSet => do
  require (ctx.done = false) .contextDone
  require (¬ (config.maxValidators > 0 ∧ (currentSet.list.length : Int) ≥ config.maxValidators)) .validatorSetFull
  require (¬ candidate.stake < config.minStake) .insufficientStake
  require (¬ (config.requirePublicKey ∧ candidate.publicKey = [])) .missingCandidateKey
  require (config.permissionless ∨ config.whitelist candidate.address) .candidateDenied

inductive RotationEventType where
  | join | leave | powerChange
deriving DecidableEq, Repr

structure RotationEvent where
  height : Height
  type : RotationEventType
  validatorID : ValidatorID
  votingPower : VotingPower
  validatorSetHash : Hash
deriving DecidableEq

structure ValidatorSetVersion where
  height : Height
  validators : Table ValidatorID Validator
  hash : Hash

structure InMemoryRegistry where
  policy : Option AdmissionPolicy
  validators : Table ValidatorID Validator
  effectiveHeight : Height
  versions : List ValidatorSetVersion
  events : List RotationEvent

def sortedValidatorMap (validators : Table ValidatorID Validator) : List Validator :=
  (validators.entries.map Sigma.snd).insertionSort fun left right => left.id ≤ right.id

def SetSnapshot.toMap (set : SetSnapshot) : Table ValidatorID Validator :=
  set.validators.foldl (fun validators validator => validators.insert validator.id validator) ∅

namespace InMemoryRegistry

variable (registry : InMemoryRegistry)

def snapshot : SetSnapshot := ⟨sortedValidatorMap registry.validators⟩

variable (height : Height) (ctx : Context)

-- The versions are kept in order of height, so the last one not above the asked height is in force there.
def snapshotAt : SetSnapshot :=
  if registry.versions.isEmpty then registry.snapshot
  else
    match (registry.versions.filter fun version => version.height ≤ height).getLast? with
    | none => ⟨[]⟩
    | some selected => ⟨sortedValidatorMap selected.validators⟩

def placeVersion (version : ValidatorSetVersion) : List ValidatorSetVersion → Option (List ValidatorSetVersion)
  | [] => none
  | head :: rest =>
    if head.height = version.height then some (version :: rest) else (placeVersion version rest).map (head :: ·)

def recordVersion : InMemoryRegistry :=
  let height := if height = 0 then 1 else height
  let version := ⟨height, registry.snapshot.toMap, registry.snapshot.hash⟩
  { registry with
    versions := (placeVersion version registry.versions).getD
      ((registry.versions ++ [version]).insertionSort fun left right => left.height ≤ right.height) }

def recordMutation (eventType : RotationEventType) (validatorID : ValidatorID) (power : VotingPower) : InMemoryRegistry :=
  let recorded := registry.recordVersion height
  { recorded with
    events := recorded.events ++ [⟨height, eventType, validatorID, power, registry.snapshot.hash⟩]
    effectiveHeight := height }

def validatorSet (height : Height) : Except Err SetSnapshot := do
  require (ctx.done = false) .contextDone
  return registry.snapshotAt (if height = 0 then registry.effectiveHeight else height)

-- Each change works on the set in force at its height, which replaces the current validators even when the change fails.
def loadedAt : InMemoryRegistry := { registry with validators := (registry.snapshotAt height).toMap }

def applyJoinAt (height : Height) (candidate : Candidate) : InMemoryRegistry × Except Err Validator :=
  if ctx.done then (registry, .error .contextDone)
  else if candidate.address = [] then (registry, .error .missingCandidateID)
  else
    let height := if height = 0 then registry.effectiveHeight else height
    let loaded := registry.loadedAt height
    if (loaded.validators.lookup candidate.address).isSome then (loaded, .error .validatorExists)
    else
      match (match loaded.policy with
        | none => Except.ok ()
        | some canJoin => canJoin ctx candidate loaded.snapshot) with
      | .error reason => (loaded, .error reason)
      | .ok _ =>
        let validator : Validator := ⟨candidate.address, candidate.publicKey, candidate.stake, candidate.stake⟩
        if validator.votingPower = 0 then (loaded, .error .zeroVotingPower)
        else
          let joined := { loaded with validators := loaded.validators.insert validator.id validator }
          (joined.recordMutation height .join validator.id validator.votingPower, .ok validator)

def applyLeaveAt (height : Height) (id : ValidatorID) : InMemoryRegistry × Except Err Unit :=
  if ctx.done then (registry, .error .contextDone)
  else
    let height := if height = 0 then registry.effectiveHeight else height
    let loaded := registry.loadedAt height
    if (loaded.validators.lookup id).isNone then (loaded, .error .validatorNotFound)
    else
      let left := { loaded with validators := loaded.validators.erase id }
      (left.recordMutation height .leave id 0, .ok ())

def updateVotingPowerAt (height : Height) (id : ValidatorID) (power : VotingPower) : InMemoryRegistry × Except Err Unit :=
  if ctx.done then (registry, .error .contextDone)
  else if power = 0 then (registry, .error .zeroVotingPower)
  else
    let height := if height = 0 then registry.effectiveHeight else height
    let loaded := registry.loadedAt height
    match loaded.validators.lookup id with
    | none => (loaded, .error .validatorNotFound)
    | some validator =>
      let changed := { loaded with validators := loaded.validators.insert id { validator with votingPower := power } }
      (changed.recordMutation height .powerChange id power, .ok ())

end InMemoryRegistry

def newInMemoryRegistry (policy : Option AdmissionPolicy) (initialValidators : List Validator) : Except Err InMemoryRegistry := do
  require (∀ validator ∈ initialValidators, validator.votingPower ≠ 0) .zeroVotingPower
  let registry : InMemoryRegistry := ⟨policy, (SetSnapshot.mk initialValidators).toMap, 1, [], []⟩
  return registry.recordVersion 1

-- A document is JSON, so the identifiers read from it are UTF-8.
structure ValidatorSetDocument where
  validators : List Validator
  decoded : ∀ validator ∈ validators, Utf8.toValid validator.id = validator.id

variable (validators : List Validator)

def sortedValidators : List Validator := validators.insertionSort fun left right => left.id ≤ right.id

def Validator.written (validator : Validator) : Validator := { validator with id := Utf8.toValid validator.id }

def RotationEvent.written (event : RotationEvent) : RotationEvent := { event with validatorID := Utf8.toValid event.validatorID }

def writtenDocument : ValidatorSetDocument where
  validators := (sortedValidators validators).map Validator.written
  decoded := by
    intro validator listed
    obtain ⟨original, -, rfl⟩ := List.mem_map.mp listed
    exact Utf8.to_valid_twice original.id

-- The last three fields are the registry's documents in the store.
structure StoreRegistry where
  policy : Option AdmissionPolicy
  effectiveHeight : Height
  events : List RotationEvent
  pendingEvents : Table Height (List RotationEvent)
  heights : Option (List Height)
  sets : Table Height ValidatorSetDocument
  persistedEvents : List RotationEvent

inductive RegistryWrite where
  | set (height : Height) (document : ValidatorSetDocument)
  | heights (heights : List Height)
  | events (events : List RotationEvent)

namespace StoreRegistry

variable (registry : StoreRegistry)
variable (height : Height) (ctx : Context)

def setEffectiveHeight : StoreRegistry := { registry with effectiveHeight := if height = 0 then 1 else height }

def loadHeights : Except Err (List Height) :=
  match registry.heights with
  | some heights => .ok heights
  | none => .error .validatorSetNotFound

def selectHeight (heights : List Height) : Height :=
  heights.foldl (fun selected candidate => if candidate ≤ height ∧ selected ≤ candidate then candidate else selected) 0

def loadLatest : Except Err ValidatorSetDocument := do
  let heights ← registry.loadHeights
  let selected := selectHeight height heights
  require (selected ≠ 0) .validatorSetNotFound
  match registry.sets.lookup selected with
  | some document => return document
  | none => .error .validatorSetMissing

def validatorsAt : Except Err (Table ValidatorID Validator) := do
  let document ← registry.loadLatest height
  return (SetSnapshot.mk document.validators).toMap

def validatorSet : Except Err SetSnapshot := do
  let document ← registry.loadLatest (if height = 0 then registry.effectiveHeight else height)
  return ⟨sortedValidators document.validators⟩

def snapshotWrites (validators : List Validator) : List RegistryWrite :=
  let heights := registry.heights.getD []
  let heights := if height ∈ heights then heights else (heights ++ [height]).insertionSort fun left right => left ≤ right
  [.set height (writtenDocument validators), .heights heights]

def rotationEventWrites (events : List RotationEvent) : List RegistryWrite :=
  if events = [] then [] else [.events ((registry.persistedEvents ++ events).map RotationEvent.written)]

-- The identifier is also the address, so an update without one has neither.
def stageUpdate (validators : Table ValidatorID Validator) (update : ValidatorUpdate) : Except Err (Table ValidatorID Validator) := do
  require (update.id ≠ []) .missingCandidateID
  if update.votingPower = 0 then
    require ((validators.lookup update.id).isSome) .validatorNotFound
    return validators.erase update.id
  else
    match validators.lookup update.id with
    | some validatorInfo =>
      return validators.insert update.id
        { validatorInfo with
          votingPower := update.votingPower
          stake := if update.stake > 0 then update.stake else validatorInfo.stake
          publicKey := if update.publicKey ≠ [] then update.publicKey else validatorInfo.publicKey }
    | none => do
        let stake := if update.stake = 0 then update.votingPower else update.stake
        match registry.policy with
        | none => .ok ()
        | some canJoin => canJoin ctx ⟨update.id, update.publicKey, stake⟩ ⟨sortedValidatorMap validators⟩
        return validators.insert update.id ⟨update.id, update.publicKey, update.votingPower, stake⟩

def rotationEvent (previous current : SetSnapshot) (update : ValidatorUpdate) : Option RotationEvent :=
  if update.id = [] then none
  else
    match current.get update.id, previous.get update.id with
    | none, some _ => some ⟨height, .leave, update.id, 0, current.hash⟩
    | some validator, none => some ⟨height, .join, update.id, validator.votingPower, current.hash⟩
    | some validator, some _ => some ⟨height, .powerChange, update.id, validator.votingPower, current.hash⟩
    | none, none => none

def stageRotationEvents (previous current : SetSnapshot) (updates : List ValidatorUpdate) : StoreRegistry :=
  { registry with pendingEvents := registry.pendingEvents.insert height (updates.filterMap (rotationEvent height previous current)) }

def stageValidatorUpdatesAt (height : Height) (updates : List ValidatorUpdate) : Except Err (StoreRegistry × SetSnapshot × List RegistryWrite) := do
  let height := if height = 0 then registry.effectiveHeight else height
  let validators ← registry.validatorsAt height
  let previous : SetSnapshot := ⟨sortedValidatorMap validators⟩
  let validators ← updates.foldlM (registry.stageUpdate ctx) validators
  let set : SetSnapshot := ⟨sortedValidatorMap validators⟩
  let staged := registry.stageRotationEvents height previous set updates
  return (staged, set, registry.snapshotWrites height set.list ++ registry.rotationEventWrites ((staged.pendingEvents.lookup height).getD []))

def write : RegistryWrite → StoreRegistry
  | .set height document => { registry with sets := registry.sets.insert height document }
  | .heights heights => { registry with heights := some heights }
  | .events events => { registry with persistedEvents := events }

def commitWrites (writes : List RegistryWrite) : StoreRegistry := writes.foldl write registry

-- A done context fails the first read, after the effective height has moved.
def currentValidators : Except Err (Table ValidatorID Validator) :=
  if ctx.done then .error .contextDone else registry.validatorsAt registry.effectiveHeight

def saveChange (eventType : RotationEventType) (validatorID : ValidatorID) (power : VotingPower)
    (validators : Table ValidatorID Validator) : StoreRegistry :=
  let set : SetSnapshot := ⟨sortedValidatorMap validators⟩
  let event : RotationEvent := ⟨height, eventType, validatorID, power, set.hash⟩
  let saved := registry.commitWrites (registry.snapshotWrites height set.list ++ registry.rotationEventWrites [event])
  { saved with events := saved.events ++ [event] }

def applyJoinAt (height : Height) (candidate : Candidate) : StoreRegistry × Except Err Validator :=
  if candidate.address = [] then (registry, .error .missingCandidateID)
  else
    let height := if height = 0 then registry.effectiveHeight else height
    let registry := registry.setEffectiveHeight height
    match registry.currentValidators ctx with
    | .error reason => (registry, .error reason)
    | .ok validators =>
      if (validators.lookup candidate.address).isSome then (registry, .error .validatorExists)
      else
        match (match registry.policy with
          | none => Except.ok ()
          | some canJoin => canJoin ctx candidate ⟨sortedValidatorMap validators⟩) with
        | .error reason => (registry, .error reason)
        | .ok _ =>
          let validator : Validator := ⟨candidate.address, candidate.publicKey, candidate.stake, candidate.stake⟩
          if validator.votingPower = 0 then (registry, .error .zeroVotingPower)
          else
            (registry.saveChange height .join validator.id validator.votingPower (validators.insert validator.id validator), .ok validator)

def applyLeaveAt (height : Height) (id : ValidatorID) : StoreRegistry × Except Err Unit :=
  let height := if height = 0 then registry.effectiveHeight else height
  let registry := registry.setEffectiveHeight height
  match registry.currentValidators ctx with
  | .error reason => (registry, .error reason)
  | .ok validators =>
    if (validators.lookup id).isNone then (registry, .error .validatorNotFound)
    else (registry.saveChange height .leave id 0 (validators.erase id), .ok ())

def updateVotingPowerAt (height : Height) (id : ValidatorID) (power : VotingPower) : StoreRegistry × Except Err Unit :=
  if power = 0 then (registry, .error .zeroVotingPower)
  else
    let height := if height = 0 then registry.effectiveHeight else height
    let registry := registry.setEffectiveHeight height
    match registry.currentValidators ctx with
    | .error reason => (registry, .error reason)
    | .ok validators =>
      match validators.lookup id with
      | none => (registry, .error .validatorNotFound)
      | some validator =>
        (registry.saveChange height .powerChange id power (validators.insert id { validator with votingPower := power }), .ok ())

variable (policy : Option AdmissionPolicy)

-- NewStoreRegistry on a store that holds these documents; the registry's other fields are its own.
def newStoreRegistryAt (initialHeight : Height) (stored : StoreRegistry) (validators : List Validator) : Except Err StoreRegistry :=
  let initialHeight := if initialHeight = 0 then 1 else initialHeight
  let registry : StoreRegistry := { stored with policy := policy, effectiveHeight := initialHeight, events := [], pendingEvents := ∅ }
  match registry.loadLatest initialHeight with
  | .ok _ => .ok { registry with events := registry.persistedEvents }
  | .error .validatorSetNotFound => do
      require (∀ validator ∈ validators, validator.votingPower ≠ 0) .zeroVotingPower
      return registry.commitWrites (registry.snapshotWrites initialHeight validators)
  | .error reason => .error reason

-- NewStoreRegistry at height one, on a store that holds these documents.
def newStoreRegistry (stored : StoreRegistry) (validators : List Validator) : Except Err StoreRegistry :=
  let registry : StoreRegistry := { stored with policy := policy, effectiveHeight := 1, events := [], pendingEvents := ∅ }
  match registry.loadLatest 1 with
  | .ok _ => .ok { registry with events := registry.persistedEvents }
  | .error .validatorSetNotFound => do
      require (∀ validator ∈ validators, validator.votingPower ≠ 0) .zeroVotingPower
      return registry.commitWrites (registry.snapshotWrites 1 validators)
  | .error reason => .error reason

def commitStagedValidatorUpdates (updates : List ValidatorUpdate) : StoreRegistry × Except Err Unit :=
  let height := if height = 0 then registry.effectiveHeight else height
  let registry := registry.setEffectiveHeight height
  let pending := (registry.pendingEvents.lookup height).getD []
  if pending ≠ [] then ({ registry with events := registry.events ++ pending, pendingEvents := registry.pendingEvents.erase height }, .ok ())
  else
    let previous : SetSnapshot :=
      if height > 1 then
        match registry.validatorsAt (height - 1) with
        | .ok validators => ⟨sortedValidatorMap validators⟩
        | .error _ => ⟨[]⟩
      else ⟨[]⟩
    match registry.validatorsAt height with
    | .error reason => (registry, .error reason)
    | .ok validators =>
      ({ registry with events := registry.events ++ updates.filterMap (rotationEvent height previous ⟨sortedValidatorMap validators⟩) }, .ok ())

end StoreRegistry

end Vexo
