import VexoConsensus.App.CanonicalTxs
import VexoConsensus.Lib.JsonText
import VexoConsensus.Lib.Segments

namespace Vexo.Staking

open ByteCodec Checks App FairOrdering OrderedMap List

section

def moduleName : GoString := utf8 "staking"

def delegateGasCost : UInt64 := 50
def undelegateGasCost : UInt64 := 40
def unjailGasCost : UInt64 := 20
def claimRewardsGasCost : UInt64 := 20
def withdrawUnbondedGasCost : UInt64 := 25
def setCommissionGasCost : UInt64 := 20
def commissionDenominatorBPS : UInt64 := 10000

structure Module where
  unbondingDelay : Height
  feeCollector : Address
  maxCommissionBPS : UInt64

def pairKey (kind : GoString) (delegator : Address) (validatorID : ValidatorID) : Bytes := kind ++ 47 :: delegator ++ 47 :: validatorID

variable (store : Store) (delegator : Address) (validatorID : ValidatorID)

def stakeKey : Bytes := pairKey (utf8 "stake") delegator validatorID
def unbondingKey : Bytes := pairKey (utf8 "unbonding") delegator validatorID
def unbondingAmountKey : Bytes := pairKey (utf8 "unbonding_amount") delegator validatorID
def rewardKey : Bytes := pairKey (utf8 "rewards") delegator validatorID

def unbondingRecordKey (record : GoString) : Bytes :=
  pairKey (utf8 "unbonding_entries") delegator validatorID ++ 47 :: record

def unbondingIndexKey : Bytes := unbondingRecordKey delegator validatorID (utf8 "index")
def unbondingNextIDKey : Bytes := unbondingRecordKey delegator validatorID (utf8 "next_id")

def unbondingEntryKey (id : UInt64) : Bytes :=
  unbondingRecordKey delegator validatorID (Decimal.format id.toNat)

def validatorKey (record : GoString) : Bytes := utf8 "validator/" ++ validatorID ++ 47 :: record

def validatorPowerKey : Bytes := validatorKey validatorID (utf8 "power")
def validatorKeyKey : Bytes := validatorKey validatorID (utf8 "public_key")
def jailKey : Bytes := validatorKey validatorID (utf8 "jail")
def tombstoneKey : Bytes := validatorKey validatorID (utf8 "tombstone")
def commissionKey : Bytes := validatorKey validatorID (utf8 "commission_bps")

variable (key : Bytes)

def parseStakeKey : Option (Address × ValidatorID) :=
  match key.splitOn 47 with
  | [kind, delegator, validatorID] =>
    if kind = utf8 "stake" ∧ delegator ≠ [] ∧ validatorID ≠ [] then some (delegator, validatorID) else none
  | _ => none

def parseValidatorPowerKey : Option ValidatorID :=
  match key.splitOn 47 with
  | [kind, validatorID, record] =>
    if kind = utf8 "validator" ∧ validatorID ≠ [] ∧ record = utf8 "power" then some validatorID else none
  | _ => none

def decodeUint64 (value : Bytes) : Except AppErr UInt64 :=
  if value = [] then .ok 0
  else if value.length = 8 then .ok (UInt64.ofNat (BigEndian.value value))
  else .error .invalidStakeRecord

def getUint64 : Except AppErr UInt64 :=
  match store.get moduleName key with
  | none => .ok 0
  | some value => decodeUint64 value

def encodeBankBalanceBig (amount : Nat) : Bytes := if amount = 0 then [0] else BigEndian.minimal amount

def getModuleAmountBig : Except AppErr Nat :=
  match store.get moduleName key with
  | none => .ok 0
  | some value => if value.length > 32 then .error .invalidStakeRecord else .ok (BigEndian.value value)

def bankBalanceBig (address : Address) : Except AppErr Nat := readBalance bankBalanceKey .invalidStakeRecord store address

def stake : Except AppErr UInt64 :=
  getUint64 store (stakeKey delegator validatorID)

def validatorPower : Except AppErr UInt64 := getUint64 store (validatorPowerKey validatorID)

def rewardsBig : Except AppErr Nat :=
  getModuleAmountBig store (rewardKey delegator validatorID)

def commission : Except AppErr UInt64 := getUint64 store (commissionKey validatorID)

def tombstoned : Except AppErr Bool :=
  if validatorID = [] then .error .invalidStakingTx else .ok (store.get moduleName (tombstoneKey validatorID)).isSome

-- The sum the running total of the code reaches without passing the largest uint64.
def addStake (total amount : UInt64) : Except AppErr UInt64 := do
  require (total ≤ ~~~0 - amount) .stakeOverflow
  return total + amount

def delegatedPower : Except AppErr VotingPower := do
  require (delegator ≠ []) .invalidStakingTx
  let start := utf8 "stake/" ++ delegator ++ [47]
  let pairs := (store.exportNamespace moduleName).filter fun pair => start.isPrefixOf pair.1
  pairs.foldlM (fun total pair =>
    match parseStakeKey pair.1 with
    | some (owner, _) => if owner = delegator then decodeUint64 pair.2 >>= addStake total else .ok total
    | none => .ok total) 0

structure UnbondingEntry where
  (id amount : UInt64)
  releaseHeight : Height
  legacy : Bool
deriving DecidableEq

def entryDecoder : Json.Decoder UnbondingEntry :=
  Json.intoStruct
    [(utf8 "id", fun entry value => (Json.intoUint64 entry.id value).map fun id => { entry with id }),
      (utf8 "amount", fun entry value => (Json.intoUint64 entry.amount value).map fun amount => { entry with amount }),
      (utf8 "release_height", fun entry value => (Json.intoUint64 entry.releaseHeight value).map fun releaseHeight => { entry with releaseHeight })]

def unmarshalEntry (document : Bytes) : Option UnbondingEntry := Json.unmarshal ⟨0, 0, 0, false⟩ entryDecoder document

variable (entry : UnbondingEntry)

def marshalEntry : Bytes :=
  Json.encodeObject [(utf8 "id", .number entry.id.toNat), (utf8 "amount", .number entry.amount.toNat),
    (utf8 "release_height", .number entry.releaseHeight.toNat)]

def unmarshalIDs (document : Bytes) : Option (List UInt64) := Json.unmarshal [] (Json.intoList 0 Json.intoUint64) document

def stored {Value : Type} (value : Option Value) : Except AppErr Value :=
  match value with
  | some value => .ok value
  | none => .error .invalidStakeRecord

def loadEntry (id : UInt64) : Except AppErr UnbondingEntry :=
  match store.get moduleName (unbondingEntryKey delegator validatorID id) with
  | none => .error .keyNotFound
  | some rawEntry => do
      let entry ← stored (unmarshalEntry rawEntry)
      require (entry.id = id ∧ entry.amount ≠ 0 ∧ entry.releaseHeight ≠ 0) .invalidStakeRecord
      return entry

-- The one entry an index was not yet kept for.
def legacyEntries : Except AppErr (List UnbondingEntry) := do
  let releaseHeight ← getUint64 store (unbondingKey delegator validatorID)
  let amount ← getUint64 store (unbondingAmountKey delegator validatorID)
  if amount = 0 then return []
  else do
    require (releaseHeight ≠ 0) .invalidStakeRecord
    return [⟨0, amount, releaseHeight, true⟩]

def loadUnbondingEntries : Except AppErr (List UnbondingEntry) := do
  require (delegator ≠ [] ∧ validatorID ≠ []) .invalidStakingTx
  match store.get moduleName (unbondingIndexKey delegator validatorID) with
  | some (byte :: rest) => do
      let ids ← stored (unmarshalIDs (byte :: rest))
      ids.mapM (loadEntry store delegator validatorID)
  | _ => legacyEntries store delegator validatorID

variable (entries : List UnbondingEntry)

def sumUnbondingEntries : Except AppErr UInt64 :=
  entries.foldlM (fun total entry => do
    require (entry.amount ≠ 0 ∧ entry.releaseHeight ≠ 0) .invalidStakeRecord
    addStake total entry.amount) 0

-- Entries without an identifier are given the next one.
def renumber (nextID : UInt64) : List UnbondingEntry → UInt64 × List UnbondingEntry
  | [] => (nextID, [])
  | entry :: rest =>
    let (nextID, entry) := if entry.id = 0 then (nextID + 1, { entry with id := nextID + 1, legacy := false }) else (nextID, entry)
    let nextID := if entry.id > nextID then entry.id else nextID
    let (last, renumbered) := renumber nextID rest
    (last, entry :: renumbered)

-- The total and the next release height, with one more entry.
def checkEntry (sums : UInt64 × Height) (entry : UnbondingEntry) : Except AppErr (UInt64 × Height) := do
  require (entry.amount ≠ 0 ∧ entry.releaseHeight ≠ 0) .invalidStakeRecord
  require (entry.id ≠ 0) .invalidStakeRecord
  let total ← addStake sums.1 entry.amount
  return (total, if sums.2 = 0 ∨ entry.releaseHeight < sums.2 then entry.releaseHeight else sums.2)

def writeEntry : KVWrite :=
  ⟨moduleName, unbondingEntryKey delegator validatorID entry.id, some (marshalEntry entry)⟩

def replaceUnbondingEntriesWritesWithNextID (nextID : UInt64) : Except AppErr (List KVWrite) := do
  let (total, nextRelease) ← entries.foldlM checkEntry (0, 0)
  if entries = [] then
    return [⟨moduleName, unbondingIndexKey delegator validatorID, none⟩, ⟨moduleName, unbondingKey delegator validatorID, none⟩,
      ⟨moduleName, unbondingAmountKey delegator validatorID, none⟩]
  else
    return entries.map (writeEntry delegator validatorID) ++
      [⟨moduleName, unbondingIndexKey delegator validatorID, some (Json.encodeNumbers (entries.map fun entry => entry.id.toNat))⟩,
        ⟨moduleName, unbondingNextIDKey delegator validatorID, some (putUint64 nextID)⟩,
        ⟨moduleName, unbondingKey delegator validatorID, some (putUint64 nextRelease)⟩,
        ⟨moduleName, unbondingAmountKey delegator validatorID, some (putUint64 total)⟩]

def replaceUnbondingEntriesWrites : Except AppErr (List KVWrite) :=
  let nextID := entries.foldl (fun nextID entry => if entry.id > nextID then entry.id else nextID) 0
  replaceUnbondingEntriesWritesWithNextID delegator validatorID entries nextID

def appendUnbondingEntryWrites (existing : List UnbondingEntry) (amount : UInt64) (releaseHeight : Height) : Except AppErr (List KVWrite) := do
  let nextID ← getUint64 store (unbondingNextIDKey delegator validatorID)
  let (last, entries) := renumber nextID existing
  replaceUnbondingEntriesWritesWithNextID delegator validatorID (entries ++ [⟨last + 1, amount, releaseHeight, false⟩]) (last + 1)

section Actions

variable (module : Module)

def delegate (store : Store) (delegator : Address) (validatorID : ValidatorID) (amount : UInt64) (publicKey : PublicKey) :
    Except AppErr (Store × ValidatorUpdate) := do
  require (delegator ≠ [] ∧ validatorID ≠ [] ∧ amount ≠ 0) .invalidStakingTx
  let gone ← tombstoned store validatorID
  require (¬ gone) .validatorTombstoned
  let balance ← bankBalanceBig store delegator
  require (amount.toNat ≤ balance) .insufficientBalance
  let currentStake ← stake store delegator validatorID
  let currentPower ← validatorPower store validatorID
  require (currentPower ≤ ~~~0 - amount ∧ currentStake ≤ ~~~0 - amount) .stakeOverflow
  let newPower := currentPower + amount
  let next := store.setBatch
    [⟨bankSpace, bankBalanceKey delegator, some (encodeBankBalanceBig (balance - amount.toNat))⟩,
      ⟨moduleName, stakeKey delegator validatorID, some (putUint64 (currentStake + amount))⟩,
      ⟨moduleName, validatorPowerKey validatorID, some (putUint64 newPower)⟩,
      ⟨moduleName, validatorKeyKey validatorID, some publicKey⟩]
  return (next, ⟨validatorID, publicKey, newPower, newPower⟩)

def undelegate (store : Store) (height : Height) (delegator : Address) (validatorID : ValidatorID) (amount : UInt64) :
    Except AppErr (Store × ValidatorUpdate) := do
  require (delegator ≠ [] ∧ validatorID ≠ [] ∧ amount ≠ 0) .invalidStakingTx
  let currentStake ← stake store delegator validatorID
  require (amount ≤ currentStake) .insufficientStake
  let currentPower ← validatorPower store validatorID
  require (amount ≤ currentPower) .invalidStakeRecord
  let newPower := currentPower - amount
  let entries ← loadUnbondingEntries store delegator validatorID
  let unbondingAmount ← sumUnbondingEntries entries
  require (unbondingAmount ≤ ~~~0 - amount) .stakeOverflow
  require (height ≤ ~~~0 - module.unbondingDelay) .stakeOverflow
  let unbondingWrites ← appendUnbondingEntryWrites store delegator validatorID entries amount (height + module.unbondingDelay)
  let next := store.setBatch
    (⟨moduleName, stakeKey delegator validatorID, some (putUint64 (currentStake - amount))⟩ ::
      ⟨moduleName, validatorPowerKey validatorID, some (putUint64 newPower)⟩ :: unbondingWrites)
  let publicKey := (next.get moduleName (validatorKeyKey validatorID)).getD []
  return (next, ⟨validatorID, publicKey, newPower, newPower⟩)

def setCommission (store : Store) (tx : Tx) (validatorID : ValidatorID) (commissionBPS : UInt64) : Except AppErr Store := do
  require (validatorID ≠ [] ∧ commissionBPS ≤ module.maxCommissionBPS) .invalidCommission
  require (txTag tx (utf8 "signer") = some validatorID) .unauthorizedStaking
  return store.write ⟨moduleName, commissionKey validatorID, some (putUint64 commissionBPS)⟩

def claimRewards (store : Store) (delegator : Address) (validatorID : ValidatorID) : Except AppErr Store := do
  require (delegator ≠ [] ∧ validatorID ≠ []) .invalidStakingTx
  let reward ← rewardsBig store delegator validatorID
  require (reward ≠ 0) .noRewards
  let balance ← bankBalanceBig store delegator
  require (balance + reward < 2 ^ 256) .stakeOverflow
  return store.setBatch
    [⟨bankSpace, bankBalanceKey delegator, some (encodeBankBalanceBig (balance + reward))⟩,
      ⟨moduleName, rewardKey delegator validatorID, some (encodeBankBalanceBig 0)⟩]

def withdrawUnbonded (store : Store) (height : Height) (delegator : Address) (validatorID : ValidatorID) : Except AppErr Store := do
  require (delegator ≠ [] ∧ validatorID ≠ []) .invalidStakingTx
  let entries ← loadUnbondingEntries store delegator validatorID
  require (entries ≠ []) .noUnbonding
  let matured := entries.filter fun entry => entry.releaseHeight ≤ height
  let pending := entries.filter fun entry => height < entry.releaseHeight
  require (matured ≠ []) .unbondingNotMature
  let amount ← sumUnbondingEntries matured
  let balance ← bankBalanceBig store delegator
  let writes ← replaceUnbondingEntriesWrites delegator validatorID pending
  let removed := (matured.filter fun entry => !entry.legacy).map fun entry =>
    (⟨moduleName, unbondingEntryKey delegator validatorID entry.id, none⟩ : KVWrite)
  require (balance + amount.toNat < 2 ^ 256) .stakeOverflow
  return store.setBatch
    (⟨bankSpace, bankBalanceKey delegator, some (encodeBankBalanceBig (balance + amount.toNat))⟩ :: (writes ++ removed))

def unjail (store : Store) (validatorID : ValidatorID) : Except AppErr Store := do
  let gone ← tombstoned store validatorID
  require (¬ gone) .validatorTombstoned
  return store.write ⟨moduleName, jailKey validatorID, none⟩

variable (value : GoString)

def parseAmount : Except AppErr UInt64 :=
  match parseUint value with
  | some amount => if amount = 0 then .error .invalidStakingTx else .ok amount
  | none => .error .invalidStakingTx

def parsePublicKey : Except AppErr PublicKey :=
  match Base64.decodeStd value with
  | some publicKey => if publicKey = [] then .error .missingValidatorKey else .ok publicKey
  | none => .error .missingValidatorKey

def parseCommission : Except AppErr UInt64 :=
  match parseUint value with
  | some commissionBPS => .ok commissionBPS
  | none => .error .invalidCommission

-- What a delivered transaction leaves: the store, the gas meter and the update it adds to the pending ones.
structure Delivery where
  store : Store
  gas : Option GasMeter
  update : Option ValidatorUpdate

def deliverTx (height : Height) (gas : Option GasMeter) (store : Store) (tx : Tx) : Except Failure Delivery :=
  match executionParts tx with
  | [name, action, delegator, validatorID, amount, publicKey] => do
      require (name = moduleName ∧ action = utf8 "delegate") ⟨2, .invalidStakingTx⟩
      let gas ← failing 5 (consumeGas gas delegateGasCost)
      let amount ← failing 3 (parseAmount amount)
      let publicKey ← failing 3 (parsePublicKey publicKey)
      let (store, update) ← failing 4 (delegate store delegator validatorID amount publicKey)
      return ⟨store, gas, some update⟩
  | [name, action, delegator, validatorID, amount] => do
      require (name = moduleName ∧ action = utf8 "undelegate") ⟨2, .invalidStakingTx⟩
      let gas ← failing 5 (consumeGas gas undelegateGasCost)
      let amount ← failing 3 (parseAmount amount)
      let (store, update) ← failing 4 (undelegate module store height delegator validatorID amount)
      return ⟨store, gas, some update⟩
  | [name, action, validatorID] => do
      require (name = moduleName ∧ action = utf8 "unjail") ⟨2, .invalidStakingTx⟩
      let gas ← failing 5 (consumeGas gas unjailGasCost)
      let store ← failing 4 (unjail store validatorID)
      return ⟨store, gas, none⟩
  | [name, action, account, argument] => do
      require (name = moduleName) ⟨2, .invalidStakingTx⟩
      if action = utf8 "claim-rewards" then do
        let gas ← failing 5 (consumeGas gas claimRewardsGasCost)
        let store ← failing 4 (claimRewards store account argument)
        return ⟨store, gas, none⟩
      else if action = utf8 "withdraw-unbonded" then do
        let gas ← failing 5 (consumeGas gas withdrawUnbondedGasCost)
        let store ← failing 4 (withdrawUnbonded store height account argument)
        return ⟨store, gas, none⟩
      else if action = utf8 "set-commission" then do
        let gas ← failing 5 (consumeGas gas setCommissionGasCost)
        let commissionBPS ← failing 3 (parseCommission argument)
        let store ← failing 4 (setCommission module store tx account commissionBPS)
        return ⟨store, gas, none⟩
      else .error ⟨2, .invalidStakingTx⟩
  | _ => .error ⟨2, .invalidStakingTx⟩

def estimateGas (tx : Tx) : Except AppErr UInt64 :=
  match executionParts tx with
  | [_, action, _, _, _, _] => if action = utf8 "delegate" then .ok delegateGasCost else .error .invalidStakingTx
  | [_, action, _, _, _] => if action = utf8 "undelegate" then .ok undelegateGasCost else .error .invalidStakingTx
  | [_, action, _] => if action = utf8 "unjail" then .ok unjailGasCost else .error .invalidStakingTx
  | [_, action, _, _] =>
    if action = utf8 "claim-rewards" then .ok claimRewardsGasCost
    else if action = utf8 "withdraw-unbonded" then .ok withdrawUnbondedGasCost
    else if action = utf8 "set-commission" then .ok setCommissionGasCost
    else .error .invalidStakingTx
  | _ => .error .invalidStakingTx

end Actions

structure DelegationRecord where
  delegator : Address
  validatorID : ValidatorID
  stake : UInt64
deriving DecidableEq

structure RewardInputs where
  validators : List (ValidatorID × UInt64)
  delegations : List DelegationRecord

def addRewardInput (inputs : RewardInputs) (pair : Bytes × Bytes) : Except AppErr RewardInputs :=
  if (utf8 "validator/").isPrefixOf pair.1 ∧ (utf8 "/power").isSuffixOf pair.1 then
    match parseValidatorPowerKey pair.1 with
    | none => .ok inputs
    | some validatorID => do
        let power ← decodeUint64 pair.2
        return if power > 0 then { inputs with validators := inputs.validators ++ [(validatorID, power)] } else inputs
  else if (utf8 "stake/").isPrefixOf pair.1 then
    match parseStakeKey pair.1 with
    | none => .ok inputs
    | some (delegator, validatorID) => do
        let stake ← decodeUint64 pair.2
        return if stake > 0 then { inputs with delegations := inputs.delegations ++ [⟨delegator, validatorID, stake⟩] } else inputs
  else .ok inputs

def stakingRewardInputs (pairs : List (Bytes × Bytes)) : Except AppErr RewardInputs := pairs.foldlM addRewardInput ⟨[], []⟩

def totalValidatorPower (validators : List (ValidatorID × UInt64)) : Except AppErr UInt64 :=
  validators.foldlM (fun total validator => addStake total validator.2) 0

def stakeByValidator (delegations : List DelegationRecord) : Except AppErr (Table ValidatorID UInt64) :=
  delegations.foldlM (fun stakes delegation => do
    let total ← addStake ((stakes.lookup delegation.validatorID).getD 0) delegation.stake
    return stakes.insert delegation.validatorID total) ∅

def proportionalShareBig (total : Int) (part whole : UInt64) : Int :=
  if total = 0 ∨ part = 0 ∨ whole = 0 then 0 else total * part.toNat / whole.toNat

def rewardMapKey (delegator : Address) (validatorID : ValidatorID) : GoString := delegator ++ 0 :: validatorID

def splitRewardMapKey (key : GoString) : Address × ValidatorID := (cut 0 key).getD (key, [])

def addReward (rewards : Table GoString Int) (delegator : Address) (validatorID : ValidatorID) (amount : Int) :
    Except AppErr (Table GoString Int) := do
  require (0 ≤ amount) .invalidStakeRecord
  let key := rewardMapKey delegator validatorID
  return rewards.insert key ((rewards.lookup key).getD 0 + amount)

-- The rewards so far and what was given to one validator and its delegators, with one more share.
def addShare (pool : Int) (totalStake : UInt64) (given : Table GoString Int × Int) (delegation : DelegationRecord) :
    Except AppErr (Table GoString Int × Int) := do
  let share := proportionalShareBig pool delegation.stake totalStake
  if share = 0 then return given
  else do
    let rewards ← addReward given.1 delegation.delegator delegation.validatorID share
    return (rewards, given.2 + share)

-- One round of the loop over the validators.
def addValidatorFee (store : Store) (collectorBalance : Nat) (totalPower : UInt64) (delegations : List DelegationRecord)
    (stakes : Table ValidatorID UInt64) (given : Table GoString Int × Int) (validator : ValidatorID × UInt64) :
    Except AppErr (Table GoString Int × Int) := do
  let validatorID := validator.1
  let validatorFee := proportionalShareBig collectorBalance validator.2 totalPower
  if validatorFee = 0 then return given
  else do
    let commissionBPS ← commission store validatorID
    let taken := proportionalShareBig validatorFee commissionBPS commissionDenominatorBPS
    let rewards ← if taken > 0 then addReward given.1 validatorID validatorID taken else .ok given.1
    let pool := validatorFee - taken
    let own := delegations.filter fun delegation => delegation.validatorID = validatorID
    let totalStake := (stakes.lookup validatorID).getD 0
    let undivided := pool > 0 ∧ (own = [] ∨ totalStake = 0)
    let rewards ← if undivided then addReward rewards validatorID validatorID pool else .ok rewards
    let (rewards, distributed) ← own.foldlM (addShare pool totalStake) (rewards, if undivided then taken + pool else taken)
    let rewards ← if distributed < validatorFee then addReward rewards validatorID validatorID (validatorFee - distributed) else .ok rewards
    return (rewards, given.2 + validatorFee)

def rewardWrite (store : Store) (rewards : Table GoString Int) (key : GoString) : Except AppErr KVWrite := do
  let (delegator, validatorID) := splitRewardMapKey key
  let current ← rewardsBig store delegator validatorID
  let nextReward := current + ((rewards.lookup key).getD 0).toNat
  require (nextReward < 2 ^ 256) .stakeOverflow
  return ⟨moduleName, rewardKey delegator validatorID, some (encodeBankBalanceBig nextReward)⟩

def distributeFees (module : Module) (store : Store) : Except AppErr Store := do
  let collectorBalance ← bankBalanceBig store module.feeCollector
  if collectorBalance = 0 then return store
  else do
    let inputs ← stakingRewardInputs (store.exportNamespace moduleName)
    let totalPower ← totalValidatorPower inputs.validators
    if totalPower = 0 then return store
    else do
      let stakes ← stakeByValidator inputs.delegations
      let (rewards, distributed) ← inputs.validators.foldlM
        (addValidatorFee store collectorBalance totalPower inputs.delegations stakes) (∅, 0)
      if distributed = 0 then return store
      else do
        let writes ← rewards.keys.mapM (rewardWrite store rewards)
        let remainder := (collectorBalance - distributed).toNat
        return store.setBatch (⟨bankSpace, bankBalanceKey module.feeCollector, some (encodeBankBalanceBig remainder)⟩ :: writes)

def endBlock (module : Module) (store : Store) : Except AppErr Store := distributeFees module store

end

inductive PairRecord where
  | stake | reward | unbonding | unbondingAmount
  | entry (record : GoString)

def PairRecord.key (delegator : Address) (validatorID : ValidatorID) : PairRecord → Bytes
  | .stake => stakeKey delegator validatorID
  | .reward => rewardKey delegator validatorID
  | .unbonding => unbondingKey delegator validatorID
  | .unbondingAmount => unbondingAmountKey delegator validatorID
  | .entry record => unbondingRecordKey delegator validatorID record

def PairRecord.kind : PairRecord → GoString
  | .stake => utf8 "stake"
  | .reward => utf8 "rewards"
  | .unbonding => utf8 "unbonding"
  | .unbondingAmount => utf8 "unbonding_amount"
  | .entry _ => utf8 "unbonding_entries"

def PairRecord.Plain : PairRecord → Prop
  | .entry record => 47 ∉ record
  | _ => True

section Apart

variable {delegator delegator' : Address} {validatorID validatorID' : ValidatorID} {key key' : Bytes}

-- A key's text up to its first slash says what kind of record it is.
def kindOf (key : Bytes) : GoString := key.takeWhile (· ≠ 47)

variable (record : PairRecord) {kind : GoString}

theorem kind_of_slash (plain : 47 ∉ kind) (rest : Bytes) : kindOf (kind ++ 47 :: rest) = kind := by
  have passed : ∀ byte ∈ kind, decide (byte ≠ 47) = true := by
    intro byte member
    simp only [ne_eq, decide_eq_true_eq]
    rintro rfl
    exact plain member
  rw [kindOf, takeWhile_append_of_pos passed, takeWhile_cons_of_neg (by simp), append_nil]

theorem pair_key_joined (kind : GoString) (delegator : Address) (validatorID : ValidatorID) :
    pairKey kind delegator validatorID = kind ++ 47 :: (delegator ++ 47 :: validatorID) := by
  simp [pairKey]

theorem kind_of_pair (plain : 47 ∉ kind) : kindOf (pairKey kind delegator validatorID) = kind := by
  rw [pair_key_joined]
  exact kind_of_slash plain _

theorem kind_of_record (record : GoString) : kindOf (unbondingRecordKey delegator validatorID record) = utf8 "unbonding_entries" := by
  rw [unbondingRecordKey, pair_key_joined, append_assoc, cons_append]
  exact kind_of_slash (by with_unfolding_all decide) _

theorem kind_of_validator (record : GoString) : kindOf (validatorKey validatorID record) = utf8 "validator" := by
  have start : utf8 "validator/" = utf8 "validator" ++ [47] := by with_unfolding_all decide
  rw [validatorKey, start, append_assoc, append_assoc, singleton_append]
  exact kind_of_slash (by with_unfolding_all decide) _

-- No text before a slash of the validator's identifier is the rest of a delegator's.
def Undivided (validatorID : ValidatorID) : Prop := ∀ before after, validatorID = before ++ 47 :: after → after = []

theorem joined_apart (plain : 47 ∉ delegator') (undivided : Undivided validatorID') (other : delegator ≠ delegator') (named : validatorID ≠ []) :
    delegator ++ 47 :: validatorID ≠ delegator' ++ 47 :: validatorID' := by
  intro same
  rcases Segments.joined_cases plain same with ⟨owner, -⟩ | ⟨middle, -, rest⟩
  · exact other owner
  · exact named (undivided middle validatorID rest)

theorem pair_key_injective (same : pairKey kind delegator validatorID = pairKey kind delegator' validatorID') :
    delegator ++ 47 :: validatorID = delegator' ++ 47 :: validatorID' := by
  rw [pair_key_joined, pair_key_joined] at same
  exact (List.cons.inj (append_cancel_left same)).2

theorem kind_plain : 47 ∉ record.kind := by
  cases record <;> simp only [PairRecord.kind] <;> with_unfolding_all decide

theorem key_kind : kindOf (record.key delegator validatorID) = record.kind := by
  cases record with
  | entry record => exact kind_of_record record
  | stake => exact kind_of_pair (kind_plain .stake)
  | reward => exact kind_of_pair (kind_plain .reward)
  | unbonding => exact kind_of_pair (kind_plain .unbonding)
  | unbondingAmount => exact kind_of_pair (kind_plain .unbondingAmount)

theorem record_key_not_validator (name : GoString) : record.key delegator validatorID ≠ validatorKey validatorID' name := by
  intro same
  have kind := @key_kind delegator validatorID record
  rw [same, kind_of_validator] at kind
  revert kind
  cases record <;> simp only [PairRecord.kind] <;> with_unfolding_all decide

theorem record_key_joined {record record' : PairRecord} (plain : record.Plain) (plain' : record'.Plain)
    (same : record.key delegator validatorID = record'.key delegator' validatorID') :
    delegator ++ 47 :: validatorID = delegator' ++ 47 :: validatorID' := by
  have kinds : record.kind = record'.kind := by
    rw [← @key_kind delegator validatorID, same, key_kind]
  have apart : [utf8 "stake", utf8 "rewards", utf8 "unbonding", utf8 "unbonding_amount", utf8 "unbonding_entries"].Nodup := by with_unfolding_all decide
  cases record with
  | entry record =>
    cases record' with
    | entry record' => exact pair_key_injective (Segments.last_segment plain plain' same).1
    | _ => simp_all [PairRecord.kind]
  | _ =>
    cases record' with
    | entry record' => simp_all [PairRecord.kind]
    | _ => first | exact pair_key_injective same | simp_all [PairRecord.kind]

theorem record_keys_apart {record record' : PairRecord} (isPlain : record.Plain) (isPlain' : record'.Plain) (plain : 47 ∉ delegator')
    (undivided : Undivided validatorID') (other : delegator ≠ delegator') (named : validatorID ≠ []) :
    record.key delegator validatorID ≠ record'.key delegator' validatorID' := fun same =>
  joined_apart plain undivided other named (record_key_joined isPlain isPlain' same)

end Apart

section Readings

variable {store next : Store} {delegator delegator' : Address} {validatorID validatorID' : ValidatorID}

theorem entry_plain (id : UInt64) : (PairRecord.entry (Decimal.format id.toNat)).Plain := by
  intro slash
  have digit := Decimal.format_digits id.toNat slash
  revert digit
  decide

theorem readings_congr (same : ∀ record : PairRecord, record.Plain →
      next.get moduleName (record.key delegator' validatorID') = store.get moduleName (record.key delegator validatorID))
    (named : delegator' ≠ [] ∧ validatorID' ≠ [] ↔ delegator ≠ [] ∧ validatorID ≠ []) :
    stake next delegator' validatorID' = stake store delegator validatorID ∧
      rewardsBig next delegator' validatorID' = rewardsBig store delegator validatorID ∧
      loadUnbondingEntries next delegator' validatorID' = loadUnbondingEntries store delegator validatorID := by
  have staked := same .stake trivial
  have rewarded := same .reward trivial
  have released := same .unbonding trivial
  have unbonded := same .unbondingAmount trivial
  have indexed := same (.entry (utf8 "index")) (by simp only [PairRecord.Plain]; with_unfolding_all decide)
  have entries : loadEntry next delegator' validatorID' = loadEntry store delegator validatorID := by
    funext id
    have record := same (.entry (Decimal.format id.toNat)) (entry_plain id)
    simp only [PairRecord.key] at record
    simp only [loadEntry, unbondingEntryKey, record]
  simp only [PairRecord.key] at staked rewarded released unbonded indexed
  have legacy : legacyEntries next delegator' validatorID' = legacyEntries store delegator validatorID := by
    simp only [legacyEntries, getUint64, released, unbonded]
  refine ⟨by simp only [stake, getUint64, staked], by simp only [rewardsBig, getModuleAmountBig, rewarded], ?_⟩
  simp only [loadUnbondingEntries, unbondingIndexKey, indexed, entries, legacy, named]

theorem renamed_readings (joined : delegator' ++ 47 :: validatorID' = delegator ++ 47 :: validatorID)
    (named : delegator' ≠ [] ∧ validatorID' ≠ []) (named' : delegator ≠ [] ∧ validatorID ≠ []) :
    stake store delegator' validatorID' = stake store delegator validatorID ∧
      rewardsBig store delegator' validatorID' = rewardsBig store delegator validatorID ∧
      loadUnbondingEntries store delegator' validatorID' = loadUnbondingEntries store delegator validatorID := by
  refine readings_congr (fun record _ => ?_) ⟨fun _ => named', fun _ => named⟩
  have keys : ∀ kind, pairKey kind delegator' validatorID' = pairKey kind delegator validatorID := by
    intro kind
    rw [pair_key_joined, pair_key_joined, joined]
  cases record <;>
    simp only [PairRecord.key, stakeKey, rewardKey, unbondingKey, unbondingAmountKey, unbondingRecordKey, keys]

end Readings

section Writes

variable {store next : Store} {delegator : Address} {validatorID : ValidatorID}

inductive Owned (delegator : Address) (validatorID : ValidatorID) : KVWrite → Prop where
  | balance (value : Option Bytes) : Owned delegator validatorID ⟨bankSpace, bankBalanceKey delegator, value⟩
  | record (record : PairRecord) (plain : record.Plain) (value : Option Bytes) :
      Owned delegator validatorID ⟨moduleName, record.key delegator validatorID, value⟩
  | validator (name : GoString) (value : Option Bytes) : Owned delegator validatorID ⟨moduleName, validatorKey validatorID name, value⟩

def PairRecord.IsUnbonding : PairRecord → Prop
  | .stake => False
  | .reward => False
  | .entry record => 47 ∉ record
  | _ => True

def UnbondingWrite (delegator : Address) (validatorID : ValidatorID) (write : KVWrite) : Prop :=
  ∃ record : PairRecord, record.IsUnbonding ∧ write.space = moduleName ∧ write.key = record.key delegator validatorID

theorem unbonding_plain {record : PairRecord} (unbonding : record.IsUnbonding) : record.Plain := by
  cases record with
  | entry record => exact unbonding
  | _ => trivial

theorem unbonding_owned {write : KVWrite} (unbonding : UnbondingWrite delegator validatorID write) : Owned delegator validatorID write := by
  obtain ⟨space, key, value⟩ := write
  obtain ⟨record, isUnbonding, rfl, rfl⟩ := unbonding
  exact .record record (unbonding_plain isUnbonding) value

theorem replaced_writes {entries : List UnbondingEntry} {nextID : UInt64} {writes : List KVWrite}
    (replaced : replaceUnbondingEntriesWritesWithNextID delegator validatorID entries nextID = .ok writes) :
    ∀ write ∈ writes, UnbondingWrite delegator validatorID write := by
  have index : (PairRecord.entry (utf8 "index")).IsUnbonding := by
    simp only [PairRecord.IsUnbonding]
    with_unfolding_all decide
  have counter : (PairRecord.entry (utf8 "next_id")).IsUnbonding := by
    simp only [PairRecord.IsUnbonding]
    with_unfolding_all decide
  simp only [replaceUnbondingEntriesWritesWithNextID, bind_ok_iff] at replaced
  obtain ⟨sums, -, replaced⟩ := replaced
  split at replaced
  · cases replaced
    simp only [mem_cons, not_mem_nil, or_false, forall_eq_or_imp, forall_eq]
    exact ⟨⟨_, index, rfl, rfl⟩, ⟨.unbonding, trivial, rfl, rfl⟩, ⟨.unbondingAmount, trivial, rfl, rfl⟩⟩
  · cases replaced
    intro write listed
    rcases mem_append.mp listed with one | fixed
    · obtain ⟨entry, -, rfl⟩ := mem_map.mp one
      exact ⟨.entry (Decimal.format entry.id.toNat), entry_plain entry.id, rfl, rfl⟩
    · simp only [mem_cons, not_mem_nil, or_false] at fixed
      rcases fixed with rfl | rfl | rfl | rfl
      · exact ⟨_, index, rfl, rfl⟩
      · exact ⟨_, counter, rfl, rfl⟩
      · exact ⟨.unbonding, trivial, rfl, rfl⟩
      · exact ⟨.unbondingAmount, trivial, rfl, rfl⟩

end Writes

def SameDelegation (store next : Store) (delegator : Address) (validatorID : ValidatorID) : Prop :=
  stake next delegator validatorID = stake store delegator validatorID ∧
    rewardsBig next delegator validatorID = rewardsBig store delegator validatorID ∧
    loadUnbondingEntries next delegator validatorID = loadUnbondingEntries store delegator validatorID

def OthersUntouched (store next : Store) (owner : Address) : Prop :=
  ∀ delegator, delegator ≠ owner → bankBalanceBig next delegator = bankBalanceBig store delegator ∧
    ∀ validatorID, validatorID ≠ [] → SameDelegation store next delegator validatorID

structure Acted (store next : Store) (delegator : Address) (validatorID : ValidatorID) : Prop where
  named : delegator ≠ [] ∧ validatorID ≠ []
  owned : ∃ writes, next = store.setBatch writes ∧ ∀ write ∈ writes, Owned delegator validatorID write
  changed : ¬ SameDelegation store next delegator validatorID

section Frame

variable {store : Store} {writes : List KVWrite} {owner : Address} {validatorID : ValidatorID}

theorem owned_keeps_balance (account : AccountName owner) (owned : ∀ write ∈ writes, Owned owner validatorID write) {address : Address}
    (other : address ≠ owner) : bankBalanceBig (store.setBatch writes) address = bankBalanceBig store address := by
  have kept : ∀ key, key ≠ owner → (store.setBatch writes).get bankSpace key = store.get bankSpace key := by
    intro key different
    refine get_set_batch_other fun write listed => ?_
    have apart : moduleName ≠ bankSpace := by with_unfolding_all decide
    cases owned write listed with
    | balance value =>
      rw [account_key account]
      exact fun same => different (Prod.mk.inj same).2.symm
    | record record plain value | validator name value => exact fun same => apart (Prod.mk.inj same).1
  rw [bankBalanceBig, bankBalanceBig, readBalance, readBalance, kept _ fun same => other (key_of_account account same), kept _ other]

theorem owned_keeps_delegation (account : AccountName owner) (owned : ∀ write ∈ writes, Owned owner validatorID write)
    (undivided : Undivided validatorID) {delegator : Address} {validatorID' : ValidatorID} (other : delegator ≠ owner) (named : validatorID' ≠ []) :
    SameDelegation store (store.setBatch writes) delegator validatorID' := by
  refine readings_congr (fun record plain => get_set_batch_other fun write listed => ?_) Iff.rfl
  have apart : bankSpace ≠ moduleName := by with_unfolding_all decide
  cases owned write listed with
  | balance value => exact fun same => apart (Prod.mk.inj same).1
  | record written isPlain value =>
    exact fun same => record_keys_apart plain isPlain account.unslashed undivided other named (Prod.mk.inj same).2.symm
  | validator name value => exact fun same => record_key_not_validator record name (Prod.mk.inj same).2.symm

end Frame

theorem acted_untouched_iff {store next : Store} {delegator owner : Address} {validatorID : ValidatorID} (account : AccountName owner)
    (acted : Acted store next delegator validatorID) :
    OthersUntouched store next owner ↔ delegator = owner ∧ Undivided validatorID := by
  constructor
  · intro untouched
    have own : delegator = owner := by
      by_contra other
      exact acted.changed ((untouched delegator other).2 validatorID acted.named.2)
    refine ⟨own, fun before after split => ?_⟩
    by_contra present
    -- The rest of the identifier before the slash, taken as part of the delegator's name, gives another delegator the same records.
    have other : delegator ++ 47 :: before ≠ owner := by
      rw [← own]
      intro same
      have lengths := congrArg length same
      rw [length_append, length_cons] at lengths
      omega
    have joined : (delegator ++ 47 :: before) ++ 47 :: after = delegator ++ 47 :: validatorID := by
      rw [split, append_assoc, cons_append]
    have named : delegator ++ 47 :: before ≠ [] ∧ after ≠ [] := ⟨by simp, present⟩
    obtain ⟨staked, rewarded, unbonding⟩ := (untouched _ other).2 after present
    obtain ⟨staked', rewarded', unbonding'⟩ := @renamed_readings store _ _ _ _ joined named acted.named
    obtain ⟨stakedNext, rewardedNext, unbondingNext⟩ := @renamed_readings next _ _ _ _ joined named acted.named
    exact acted.changed ⟨stakedNext.symm.trans (staked.trans staked'), rewardedNext.symm.trans (rewarded.trans rewarded'),
      unbondingNext.symm.trans (unbonding.trans unbonding')⟩
  · rintro ⟨rfl, undivided⟩
    obtain ⟨writes, rfl, owned⟩ := acted.owned
    exact fun address other => ⟨owned_keeps_balance account owned other,
      fun validatorID' named => owned_keeps_delegation account owned undivided other named⟩

section Actions

variable {store next : Store} {delegator : Address} {validatorID : ValidatorID}

theorem get_uint64_written {key : Bytes} {value : UInt64} (written : store.get moduleName key = some (putUint64 value)) :
    getUint64 store key = .ok value := by
  have present : putUint64 value ≠ [] := by
    intro empty
    have lengths := congrArg length empty
    rw [put_uint64_length] at lengths
    contradiction
  rw [getUint64, written]
  simp only [decodeUint64, if_neg present, put_uint64_length, if_true, BigEndian.value_put_uint64, UInt64.ofNat_toNat]

theorem record_keys_differ {record record' : PairRecord} (kinds : record.kind ≠ record'.kind) :
    record.key delegator validatorID ≠ record'.key delegator validatorID := by
  intro same
  have kind := @key_kind delegator validatorID record
  rw [same, key_kind] at kind
  exact kinds kind.symm

theorem unbonding_not_stake {write : KVWrite} (unbonding : UnbondingWrite delegator validatorID write) :
    (write.space, write.key) ≠ (moduleName, stakeKey delegator validatorID) := by
  obtain ⟨record, isUnbonding, -, key⟩ := unbonding
  rw [key]
  refine fun same => @record_keys_differ delegator validatorID record .stake ?_ (Prod.mk.inj same).2
  cases record with
  | stake => contradiction
  | _ =>
    simp only [PairRecord.kind]
    with_unfolding_all decide

theorem entry_key_not_index (id : UInt64) : unbondingEntryKey delegator validatorID id ≠ unbondingIndexKey delegator validatorID := by
  intro same
  have records : Decimal.format id.toNat = utf8 "index" := (List.cons.inj (append_cancel_left same)).2
  have letter : (105 : UInt8) ∈ utf8 "index" := by with_unfolding_all decide
  rw [← records] at letter
  have digit := Decimal.format_digits id.toNat letter
  revert digit
  decide

theorem validator_not_stake (name : GoString) : (moduleName, validatorKey validatorID name) ≠ (moduleName, stakeKey delegator validatorID) :=
  fun same => record_key_not_validator .stake name (Prod.mk.inj same).2.symm

theorem stake_written (before : List KVWrite) {after : List KVWrite} {value : UInt64}
    (later : ∀ write ∈ after, (write.space, write.key) ≠ (moduleName, stakeKey delegator validatorID)) :
    stake (store.setBatch (before ++ ⟨moduleName, stakeKey delegator validatorID, some (putUint64 value)⟩ :: after)) delegator validatorID =
      .ok value :=
  get_uint64_written (get_set_batch_last store before ⟨moduleName, stakeKey delegator validatorID, some (putUint64 value)⟩ later)

variable {update : ValidatorUpdate}

theorem delegate_acted {amount : UInt64} {publicKey : PublicKey}
    (done : delegate store delegator validatorID amount publicKey = .ok (next, update)) : Acted store next delegator validatorID := by
  simp only [delegate, ok_iff] at done
  obtain ⟨⟨owner, validator, positive⟩, -, -, -, balance, -, -, current, staked, power, -, ⟨-, fits⟩, done⟩ := done
  cases done
  refine ⟨⟨owner, validator⟩, ⟨_, rfl, ?_⟩, ?_⟩
  · simp only [mem_cons, not_mem_nil, or_false, forall_eq_or_imp, forall_eq]
    exact ⟨.balance _, .record .stake trivial _, .validator _ _, .validator _ _⟩
  · rintro ⟨same, -⟩
    have later : ∀ write ∈ ([⟨moduleName, validatorPowerKey validatorID, some (putUint64 (power + amount))⟩,
        ⟨moduleName, validatorKeyKey validatorID, some publicKey⟩] : List KVWrite),
        (write.space, write.key) ≠ (moduleName, stakeKey delegator validatorID) := by
      simp only [mem_cons, not_mem_nil, or_false, forall_eq_or_imp, forall_eq]
      exact ⟨validator_not_stake _, validator_not_stake _⟩
    have raised := Except.ok.inj ((stake_written [_] later).symm.trans (same.trans staked))
    grind

theorem undelegate_acted {module : Module} {height : Height} {amount : UInt64}
    (done : undelegate module store height delegator validatorID amount = .ok (next, update)) : Acted store next delegator validatorID := by
  simp only [undelegate, ok_iff] at done
  obtain ⟨⟨owner, validator, positive⟩, current, staked, enough, power, -, -, entries, -, -, -, -, -, writes, appended, done⟩ := done
  cases done
  have replaced : ∀ write ∈ writes, UnbondingWrite delegator validatorID write := by
    simp only [appendUnbondingEntryWrites, bind_ok_iff] at appended
    obtain ⟨nextID, -, replaced⟩ := appended
    exact replaced_writes replaced
  refine ⟨⟨owner, validator⟩, ⟨_, rfl, ?_⟩, ?_⟩
  · simp only [mem_cons, forall_eq_or_imp]
    exact ⟨.record .stake trivial _, .validator _ _, fun write listed => unbonding_owned (replaced write listed)⟩
  · rintro ⟨same, -⟩
    have later : ∀ write ∈ ⟨moduleName, validatorPowerKey validatorID, some (putUint64 (power - amount))⟩ :: writes,
        (write.space, write.key) ≠ (moduleName, stakeKey delegator validatorID) := by
      simp only [mem_cons, forall_eq_or_imp]
      exact ⟨validator_not_stake _, fun write listed => unbonding_not_stake (replaced write listed)⟩
    have lowered := Except.ok.inj ((stake_written [] later).symm.trans (same.trans staked))
    grind

theorem claim_acted (done : claimRewards store delegator validatorID = .ok next) : Acted store next delegator validatorID := by
  simp only [claimRewards, ok_iff] at done
  obtain ⟨named, reward, rewarded, present, balance, -, -, done⟩ := done
  cases done
  refine ⟨named, ⟨_, rfl, ?_⟩, ?_⟩
  · simp only [mem_cons, not_mem_nil, or_false, forall_eq_or_imp, forall_eq]
    exact ⟨.balance _, .record .reward trivial _⟩
  · rintro ⟨-, same, -⟩
    have cleared := get_set_batch_last store [⟨bankSpace, bankBalanceKey delegator, some (encodeBankBalanceBig (balance + reward))⟩]
      ⟨moduleName, rewardKey delegator validatorID, some (encodeBankBalanceBig 0)⟩ (forall_mem_nil _)
    rw [rewarded, rewardsBig, getModuleAmountBig] at same
    rw [singleton_append] at cleared
    rw [cleared] at same
    have zero : Except.ok 0 = Except.ok reward := same
    exact present (Except.ok.inj zero).symm

section Withdrawn

variable {writes removed : List KVWrite} {paid : KVWrite}

theorem replaced_value {record : PairRecord} {value : Option Bytes} (bank : paid.space = bankSpace)
    (dropped : ∀ write ∈ removed, write.key ≠ record.key delegator validatorID)
    (written : ∃ write ∈ writes, (write.space, write.key) = (moduleName, record.key delegator validatorID))
    (only : ∀ write ∈ writes, write.key = record.key delegator validatorID → write.value = value) :
    (store.setBatch (paid :: (writes ++ removed))).get moduleName (record.key delegator validatorID) = value := by
  obtain ⟨write, listed, same⟩ := written
  refine get_set_batch_value ⟨write, mem_cons_of_mem _ (mem_append_left _ listed), same⟩ fun write listed same => ?_
  rcases mem_cons.mp listed with rfl | listed
  · have apart : bankSpace ≠ moduleName := by with_unfolding_all decide
    exact absurd (bank.symm.trans (Prod.mk.inj same).1) apart
  · rcases mem_append.mp listed with replacing | dropping
    · exact only write replacing (Prod.mk.inj same).2
    · exact absurd (Prod.mk.inj same).2 (dropped write dropping)

theorem counter_not_index : unbondingNextIDKey delegator validatorID ≠ unbondingIndexKey delegator validatorID := by
  intro same
  have apart : utf8 "next_id" ≠ utf8 "index" := by with_unfolding_all decide
  exact apart (List.cons.inj (append_cancel_left same)).2

theorem replaced_index {pending : List UnbondingEntry} {nextID : UInt64}
    (replaced : replaceUnbondingEntriesWritesWithNextID delegator validatorID pending nextID = .ok writes) (bank : paid.space = bankSpace)
    (dropped : ∀ write ∈ removed, ∃ id, write.key = unbondingEntryKey delegator validatorID id) :
    (store.setBatch (paid :: (writes ++ removed))).get moduleName (unbondingIndexKey delegator validatorID) =
      if pending = [] then none else some (Json.encodeNumbers (pending.map fun entry => entry.id.toNat)) := by
  have released := @record_keys_differ delegator validatorID .unbonding (.entry (utf8 "index")) (by simp only [PairRecord.kind]; with_unfolding_all decide)
  have summed :=
    @record_keys_differ delegator validatorID .unbondingAmount (.entry (utf8 "index")) (by simp only [PairRecord.kind]; with_unfolding_all decide)
  have kept : ∀ write ∈ removed, write.key ≠ (PairRecord.entry (utf8 "index")).key delegator validatorID := by
    intro write listed same
    obtain ⟨id, key⟩ := dropped write listed
    exact entry_key_not_index id (key.symm.trans same)
  simp only [replaceUnbondingEntriesWritesWithNextID, bind_ok_iff] at replaced
  obtain ⟨sums, -, replaced⟩ := replaced
  split at replaced
  · rename_i none
    cases replaced
    rw [if_pos none]
    refine @replaced_value store delegator validatorID _ removed paid (.entry (utf8 "index")) _ bank kept ⟨_, mem_cons_self .., rfl⟩ ?_
    simp
  · rename_i some
    cases replaced
    rw [if_neg some]
    refine @replaced_value store delegator validatorID _ removed paid (.entry (utf8 "index")) _ bank kept
      ⟨_, mem_append_right _ mem_cons_self, rfl⟩ fun write listed same => ?_
    rcases mem_append.mp listed with one | fixed
    · obtain ⟨entry, -, rfl⟩ := mem_map.mp one
      exact absurd same (entry_key_not_index entry.id)
    · simp only [mem_cons, not_mem_nil, or_false] at fixed
      rcases fixed with rfl | rfl | rfl | rfl
      · rfl
      · exact absurd same counter_not_index
      · exact absurd same released
      · exact absurd same summed

theorem emptied_amount {nextID : UInt64}
    (replaced : replaceUnbondingEntriesWritesWithNextID delegator validatorID [] nextID = .ok writes) (bank : paid.space = bankSpace)
    (dropped : ∀ write ∈ removed, ∃ id, write.key = unbondingEntryKey delegator validatorID id) :
    (store.setBatch (paid :: (writes ++ removed))).get moduleName (unbondingAmountKey delegator validatorID) = none := by
  have kept : ∀ write ∈ removed, write.key ≠ PairRecord.unbondingAmount.key delegator validatorID := by
    intro write listed same
    obtain ⟨id, key⟩ := dropped write listed
    refine @record_keys_differ delegator validatorID (.entry (Decimal.format id.toNat)) .unbondingAmount ?_ (key.symm.trans same)
    simp only [PairRecord.kind]
    with_unfolding_all decide
  simp only [replaceUnbondingEntriesWritesWithNextID, bind_ok_iff, if_true] at replaced
  obtain ⟨sums, -, replaced⟩ := replaced
  cases replaced
  refine @replaced_value store delegator validatorID _ removed paid .unbondingAmount _ bank kept
    ⟨_, mem_cons_of_mem _ (mem_cons_of_mem _ mem_cons_self), rfl⟩ ?_
  simp

theorem replaced_length {pending loaded : List UnbondingEntry} {nextID : UInt64}
    (replaced : replaceUnbondingEntriesWritesWithNextID delegator validatorID pending nextID = .ok writes) (bank : paid.space = bankSpace)
    (dropped : ∀ write ∈ removed, ∃ id, write.key = unbondingEntryKey delegator validatorID id)
    (load : loadUnbondingEntries (store.setBatch (paid :: (writes ++ removed))) delegator validatorID = .ok loaded) :
    loaded.length = pending.length := by
  have index := @replaced_index store delegator validatorID writes removed paid pending nextID replaced bank dropped
  simp only [loadUnbondingEntries, ok_iff, index] at load
  obtain ⟨-, load⟩ := load
  by_cases none : pending = []
  · rw [if_pos none] at load
    subst none
    have amount := @emptied_amount store delegator validatorID writes removed paid nextID replaced bank dropped
    simp only [legacyEntries, bind_ok_iff, getUint64, amount] at load
    obtain ⟨release, -, amount, zero, load⟩ := load
    cases zero
    cases load
    rfl
  · rw [if_neg none, Json.encodeNumbers, Json.encodeArray, cons_append] at load
    simp only [bind_ok_iff] at load
    obtain ⟨ids, read, load⟩ := load
    have small : ∀ number ∈ pending.map (fun entry => entry.id.toNat), number < 2 ^ 64 := by
      intro number listed
      obtain ⟨entry, -, rfl⟩ := mem_map.mp listed
      exact entry.id.toNat_lt
    have named := Json.unmarshal_numbers small
    rw [Json.encodeNumbers, Json.encodeArray, cons_append] at named
    rw [unmarshalIDs, named] at read
    cases read
    rw [map_ok_length load, length_map, length_map]

theorem withdraw_acted {height : Height} (done : withdrawUnbonded store height delegator validatorID = .ok next) :
    Acted store next delegator validatorID := by
  simp only [withdrawUnbonded, ok_iff] at done
  obtain ⟨named, entries, loaded, -, mature, amount, -, balance, -, writes, replaced, -, done⟩ := done
  cases done
  have dropped : ∀ write ∈ ((entries.filter fun entry => entry.releaseHeight ≤ height).filter fun entry => !entry.legacy).map
      (fun entry => (⟨moduleName, unbondingEntryKey delegator validatorID entry.id, none⟩ : KVWrite)),
      ∃ id, write = ⟨moduleName, unbondingEntryKey delegator validatorID id, none⟩ := by
    intro write listed
    obtain ⟨entry, -, rfl⟩ := mem_map.mp listed
    exact ⟨entry.id, rfl⟩
  refine ⟨named, ⟨_, rfl, ?_⟩, ?_⟩
  · intro write listed
    rcases mem_cons.mp listed with rfl | listed
    · exact .balance _
    · rcases mem_append.mp listed with replacing | dropping
      · exact unbonding_owned (replaced_writes replaced write replacing)
      · obtain ⟨id, rfl⟩ := dropped write dropping
        exact .record (.entry (Decimal.format id.toNat)) (entry_plain id) none
  · rintro ⟨-, -, same⟩
    have shorter := replaced_length replaced rfl (fun write listed => (dropped write listed).imp fun id same => congrArg KVWrite.key same)
      (same.trans loaded)
    have pending := length_filter_eq_length_iff.mp shorter.symm
    refine mature (filter_eq_nil_iff.mpr fun entry listed => ?_)
    have later := pending entry listed
    rw [decide_eq_true_eq] at later ⊢
    exact UInt64.not_le.mpr later

end Withdrawn

def delegationActions : List GoString := [utf8 "delegate", utf8 "undelegate", utf8 "claim-rewards", utf8 "withdraw-unbonded"]

theorem delivered_acted {module : Module} {height : Height} {gas : Option GasMeter} {tx : Tx} {delivery : Delivery}
    {name action : GoString} {rest : List GoString} (delivered : deliverTx module height gas store tx = .ok delivery)
    (parts : executionParts tx = name :: action :: delegator :: validatorID :: rest) (about : action ∈ delegationActions) :
    Acted store delivery.store delegator validatorID := by
  rw [deliverTx, parts] at delivered
  match rest with
  | [amount, publicKey] =>
    simp only [ok_iff, failing_ok_iff] at delivered
    obtain ⟨-, gas, -, amount, -, publicKey, -, ⟨next, update⟩, done, sent⟩ := delivered
    cases sent
    exact delegate_acted done
  | [amount] =>
    simp only [ok_iff, failing_ok_iff] at delivered
    obtain ⟨-, gas, -, amount, -, ⟨next, update⟩, done, sent⟩ := delivered
    cases sent
    exact undelegate_acted done
  | [] =>
    simp only [ok_iff] at delivered
    obtain ⟨-, delivered⟩ := delivered
    split_ifs at delivered with claiming withdrawing commission
    · simp only [bind_ok_iff, failing_ok_iff] at delivered
      obtain ⟨gas, -, next, done, sent⟩ := delivered
      cases sent
      exact claim_acted done
    · simp only [bind_ok_iff, failing_ok_iff] at delivered
      obtain ⟨gas, -, next, done, sent⟩ := delivered
      cases sent
      exact withdraw_acted done
    · have outside : utf8 "set-commission" ∉ delegationActions := by with_unfolding_all decide
      exact absurd (commission ▸ about) outside
  | _ :: _ :: _ :: _ => contradiction

end Actions

end Vexo.Staking
