import VexoConsensus.Governance
import VexoConsensus.Modules.Bank
import VexoConsensus.Modules.Staking

namespace Vexo.GovernanceModule

open ByteCodec Checks GoText App FairOrdering Governance

def moduleName : GoString := utf8 "governance"

def submitGasCost : UInt64 := 60
def voteGasCost : UInt64 := 25
def executeGasCost : UInt64 := 80

def governanceEscrowAddress : Address := utf8 "module:governance:deposit_escrow"
def governanceRejectedDepositAddress : Address := utf8 "module:governance:rejected_deposits"

section Deposits

variable (policy : TallyPolicy)

def depositEscrowAddress : Address := if policy.depositEscrow ≠ [] then policy.depositEscrow else governanceEscrowAddress

def rejectedDepositAddress : Address := if policy.rejectedDeposits ≠ [] then policy.rejectedDeposits else governanceRejectedDepositAddress

variable (value : GoString)

def amountDenomSuffix : GoString :=
  ((trimSpace (toLower value)).reverse.takeWhile fun char => 97 ≤ char ∧ char ≤ 122).reverse

def depositAmount : Except AppErr Nat := (Bank.parseAmountBig value).mapError fun _ => .invalidProposalDeposit

def validateProposalDeposit : Except AppErr (Option Nat) := do
  let value := trimSpace value
  if value = [] then do
    require (¬ policy.requireDeposit) .invalidProposalDeposit
    return none
  else do
    let suffix := amountDenomSuffix value
    require (¬ (suffix ≠ [] ∧ policy.depositDenom ≠ [] ∧ suffix ≠ policy.depositDenom)) .invalidProposalDeposit
    let amount ← depositAmount value
    if trimSpace policy.minDeposit ≠ [] then do
      let minimum ← depositAmount policy.minDeposit
      require (minimum ≤ amount) .invalidProposalDeposit
    return some amount

variable (store : Store)

-- What escrowDeposit, refundDeposit and slashDeposit share.
def moveDeposit (deposit : GoString) (sender receiver : Address) : Except AppErr Store :=
  if trimSpace deposit = [] then .ok store
  else do
    let amount ← validateProposalDeposit policy deposit
    Bank.transferBig store sender receiver (amount.getD 0)

def escrowDeposit (proposal : Proposal) : Except AppErr Store :=
  moveDeposit policy store proposal.deposit proposal.submitter (depositEscrowAddress policy)

variable (state : ProposalState)

def refundDeposit : Except AppErr Store :=
  moveDeposit policy store state.proposal.deposit (depositEscrowAddress policy) state.proposal.submitter

def slashDeposit : Except AppErr Store :=
  moveDeposit policy store state.proposal.deposit (depositEscrowAddress policy) (rejectedDepositAddress policy)

end Deposits

structure ProposalJSONPayload where
  (submitter title description metadataURI type deposit : GoString)
  changes : List ParameterChange

def changeDecoder : Json.Decoder ParameterChange :=
  Json.intoStruct
    [(utf8 "module", fun change value => (Json.intoText change.module value).map fun module => { change with module }),
      (utf8 "key", fun change value => (Json.intoText change.key value).map fun key => { change with key }),
      (utf8 "value", fun change value => (Json.intoText change.value value).map fun text => { change with value := text })]

def payloadDecoder : Json.Decoder ProposalJSONPayload :=
  Json.intoStruct
    [(utf8 "submitter", fun payload value => (Json.intoText payload.submitter value).map fun submitter => { payload with submitter }),
      (utf8 "title", fun payload value => (Json.intoText payload.title value).map fun title => { payload with title }),
      (utf8 "description", fun payload value => (Json.intoText payload.description value).map fun description => { payload with description }),
      (utf8 "metadata_uri", fun payload value => (Json.intoText payload.metadataURI value).map fun metadataURI => { payload with metadataURI }),
      (utf8 "type", fun payload value => (Json.intoText payload.type value).map fun type => { payload with type }),
      (utf8 "deposit", fun payload value => (Json.intoText payload.deposit value).map fun deposit => { payload with deposit }),
      (utf8 "changes",
        fun payload value => (Json.intoList ⟨[], [], []⟩ changeDecoder payload.changes value).map fun changes => { payload with changes })]

def valid {Value : Type} (value : Option Value) : Except AppErr Value :=
  match value with
  | some value => .ok value
  | none => .error .invalidGovernanceTx

def proposalDescription (payload : ProposalJSONPayload) : GoString :=
  let described := if trimSpace payload.description ≠ [] then [trimSpace payload.description] else []
  let located := if trimSpace payload.metadataURI ≠ [] then [utf8 "metadata_uri=" ++ trimSpace payload.metadataURI] else []
  let deposited := if trimSpace payload.deposit ≠ [] then [utf8 "deposit=" ++ trimSpace payload.deposit] else []
  [10].intercalate (described ++ located ++ deposited)

variable (encodedPayload : GoString)

def decodePayload : Except AppErr ProposalJSONPayload := do
  let rawPayload ← valid (Base64.decodeRaw encodedPayload <|> Base64.decodeStd encodedPayload)
  valid (Json.unmarshal ⟨[], [], [], [], [], [], []⟩ payloadDecoder rawPayload)

def proposalOfJSON : Except AppErr Proposal := do
  let payload ← decodePayload encodedPayload
  require (payload.submitter ≠ [] ∧ payload.title ≠ [] ∧ payload.changes ≠ []) .invalidGovernanceTx
  require (payload.type = [] ∨ payload.type = utf8 "parameter_change") .invalidGovernanceTx
  require (∀ change ∈ payload.changes, change.module ≠ [] ∧ change.key ≠ []) .invalidGovernanceTx
  return ⟨0, payload.title, proposalDescription payload, trimSpace payload.deposit, payload.changes, payload.submitter⟩

def parseProposalID (value : GoString) : Except AppErr UInt64 :=
  match parseUint value with
  | some id => if id = 0 then .error .invalidGovernanceTx else .ok id
  | none => .error .invalidGovernanceTx

section Actions

structure Delivery where
  store : Store
  gas : Option GasMeter
  data : Bytes

variable (policy : TallyPolicy)

def submitProposal (keeper : StoreKeeper) (store : Store) (proposal : Proposal) : Except AppErr (UInt64 × StoreKeeper × Store) := do
  let _ ← validateProposalDeposit policy proposal.deposit
  let store ← escrowDeposit policy store proposal
  let (id, keeper) ← keeper.submitProposal proposal
  return (id, keeper, store)

variable (keeper : StoreKeeper) (gas : Option GasMeter) (store : Store)

def submit (submitter title module key value : GoString) (deposit : Option GoString) : Except AppErr (UInt64 × StoreKeeper × Store) :=
  submitProposal policy keeper store ⟨0, title, [], trimSpace (deposit.getD []), [⟨module, key, value⟩], submitter⟩

def submitJSON (encodedPayload : GoString) : Except AppErr (UInt64 × StoreKeeper × Store) := do
  let proposal ← proposalOfJSON encodedPayload
  submitProposal policy keeper store proposal

-- The keeper keeps the power it was given even when it then refuses the vote.
def vote (keeper : StoreKeeper) (store : Store) (proposalID voter option : GoString) : StoreKeeper × Except AppErr Unit :=
  let prepared : Except AppErr (UInt64 × StoreKeeper) := do
    let proposalID ← parseProposalID proposalID
    let power ← Staking.delegatedPower store voter
    require (power ≠ 0) .noGovernanceVotingPower
    let keeper ← keeper.setVotingPower voter power
    return (proposalID, keeper)
  match prepared with
  | .error reason => (keeper, .error reason)
  | .ok (proposalID, keeper) =>
    match keeper.vote proposalID voter option with
    | .error reason => (keeper, .error reason)
    | .ok keeper => (keeper, .ok ())

def findProposal (proposalID : UInt64) : Except AppErr ProposalState := do
  match ← keeper.proposal proposalID with
  | none => .error .proposalNotFound
  | some state => do
      require (¬ state.rejected) .proposalRejected
      return state

def execute (keeper : StoreKeeper) (store : Store) (proposalID : GoString) : StoreKeeper × Except Failure (Store × Bytes) :=
  let executed : Except Failure (ProposalState × Bool × StoreKeeper) := do
    let proposalID ← failing 3 (parseProposalID proposalID)
    let state ← failing 4 (findProposal keeper proposalID)
    let (passed, keeper) ← failing 4 (keeper.execute proposalID)
    return (state, passed, keeper)
  match executed with
  | .error failure => (keeper, .error failure)
  | .ok (state, true, keeper) => (keeper, (failing 4 (refundDeposit policy store state)).map fun store => (store, []))
  | .ok (state, false, keeper) => (keeper, (failing 4 (slashDeposit policy store state)).map fun store => (store, utf8 "proposal_rejected"))

def delivered (result : UInt64 × StoreKeeper × Store) : StoreKeeper × Delivery :=
  (result.2.1, ⟨result.2.2, gas, Decimal.format result.1.toNat⟩)

-- A submission that fails leaves the keeper as it was.
def settled (outcome : Except Failure (StoreKeeper × Delivery)) : StoreKeeper × Except Failure Delivery :=
  match outcome with
  | .error failure => (keeper, .error failure)
  | .ok (keeper, delivery) => (keeper, .ok delivery)

def deliverSubmit (submission : Except AppErr (UInt64 × StoreKeeper × Store)) : StoreKeeper × Except Failure Delivery :=
  settled keeper do
    let gas ← failing 5 (consumeGas gas submitGasCost)
    let result ← failing 3 submission
    return delivered gas result

def deliverVote (ballot : StoreKeeper × Except AppErr Unit) : StoreKeeper × Except Failure Delivery :=
  match consumeGas gas voteGasCost with
  | .error reason => (keeper, .error ⟨5, reason⟩)
  | .ok gas => (ballot.1, (failing 3 ballot.2).map fun _ => ⟨store, gas, []⟩)

def deliverExecute (proposalID : GoString) : StoreKeeper × Except Failure Delivery :=
  match consumeGas gas executeGasCost with
  | .error reason => (keeper, .error ⟨5, reason⟩)
  | .ok gas =>
    let (keeper, outcome) := execute policy keeper store proposalID
    (keeper, outcome.map fun (store, data) => ⟨store, gas, data⟩)

def deliverParts (action : GoString) : List GoString → StoreKeeper × Except Failure Delivery
  | [submitter, title, module, key, value] =>
    if action = utf8 "submit" then deliverSubmit keeper gas (submit policy keeper store submitter title module key value none)
    else (keeper, .error ⟨2, .invalidGovernanceTx⟩)
  | [submitter, title, module, key, value, deposit] =>
    if action = utf8 "submit" then deliverSubmit keeper gas (submit policy keeper store submitter title module key value (some deposit))
    else (keeper, .error ⟨2, .invalidGovernanceTx⟩)
  | [argument] =>
    if action = utf8 "submit-json" then deliverSubmit keeper gas (submitJSON policy keeper store argument)
    else if action = utf8 "execute" then deliverExecute policy keeper gas store argument
    else (keeper, .error ⟨2, .invalidGovernanceTx⟩)
  | [proposalID, voter, option] =>
    if action = utf8 "vote" then deliverVote keeper gas store (vote keeper store proposalID voter option)
    else (keeper, .error ⟨2, .invalidGovernanceTx⟩)
  -- A vote that names its power is for a module without a store.
  | [_, _, _, _] =>
    if action = utf8 "vote" then deliverVote keeper gas store (keeper, .error .invalidGovernanceTx)
    else (keeper, .error ⟨2, .invalidGovernanceTx⟩)
  | _ => (keeper, .error ⟨2, .invalidGovernanceTx⟩)

def deliverTx (height : Height) (keeper : StoreKeeper) (gas : Option GasMeter) (store : Store) (tx : Tx) : StoreKeeper × Except Failure Delivery :=
  match keeper.setTime height with
  | .error reason => (keeper, .error ⟨1, reason⟩)
  | .ok keeper =>
    match executionParts tx with
    | name :: action :: arguments =>
      if name = moduleName then deliverParts policy keeper gas store action arguments else (keeper, .error ⟨2, .invalidGovernanceTx⟩)
    | _ => (keeper, .error ⟨2, .invalidGovernanceTx⟩)

def beginBlock (height : Height) : Except AppErr StoreKeeper := keeper.setTime height

def estimateGas (tx : Tx) : Except AppErr UInt64 :=
  match executionParts tx with
  | [_, action, _] =>
    if action = utf8 "submit-json" then .ok submitGasCost
    else if action = utf8 "execute" then .ok executeGasCost
    else .error .invalidGovernanceTx
  | [_, action, _, _, _] => if action = utf8 "vote" then .ok voteGasCost else .error .invalidGovernanceTx
  | [_, action, _, _, _, _] => if action = utf8 "vote" then .ok voteGasCost else .error .invalidGovernanceTx
  | [_, action, _, _, _, _, _] => if action = utf8 "submit" then .ok submitGasCost else .error .invalidGovernanceTx
  | [_, action, _, _, _, _, _, _] => if action = utf8 "submit" then .ok submitGasCost else .error .invalidGovernanceTx
  | _ => .error .invalidGovernanceTx

end Actions

end Vexo.GovernanceModule
