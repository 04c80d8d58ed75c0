import VexoConsensus.Consensus.BlockTree
import VexoConsensus.DataAvailability
import VexoConsensus.Finality.Evidence
import VexoConsensus.StoreRegistry

namespace Vexo.Consensus

open ByteCodec Checks Finality Slashing Json List

section

open StateProof (hashDecoder sized)

def invalidProposalReasons : List GoString :=
  [utf8 "da_mismatch", utf8 "missing_data", utf8 "validator_set_hash", utf8 "app_hash", utf8 "tx_validity", utf8 "timestamp"]

-- The source's type is a string with six constants; every other reason needs a verifier registered for it.
inductive InvalidProposalReason where
  | daMismatch | missingData | validatorSetHash | appHash | txValidity | timestamp
  | other (name : GoString) (unlisted : name ∉ invalidProposalReasons)
deriving DecidableEq

def InvalidProposalReason.ofName (name : GoString) : InvalidProposalReason :=
  if listed : name ∈ invalidProposalReasons then
    if name = utf8 "da_mismatch" then .daMismatch
    else if name = utf8 "missing_data" then .missingData
    else if name = utf8 "validator_set_hash" then .validatorSetHash
    else if name = utf8 "app_hash" then .appHash
    else if name = utf8 "tx_validity" then .txValidity
    else .timestamp
  else .other name listed

structure Result where
  code : UInt32
  log : GoString
  data : Bytes
  (gasUsed feePaid : UInt64)
deriving DecidableEq

structure ConflictingVoteProof where
  (first second : Vote)
deriving DecidableEq

structure ConflictingTimeoutVoteProof where
  (first second : TimeoutVote)
deriving DecidableEq

structure TxExecutionProof where
  txIndex : UInt64
  tx : Tx
  (expectedResults actualResults : List Result)
deriving DecidableEq

structure InvalidProposalProof where
  proposal : Proposal
  reason : InvalidProposalReason
  (expectedHash actualHash contextProofHash : Hash)
  stateProof : Option QueryProof.Proof
  executionProof : Option TxExecutionProof
  (expectedTimeUnixNano actualTimeUnixNano : Int64)
  verificationMessage : GoString
deriving DecidableEq

structure UnavailableDataProof where
  proposal : Proposal
  reason : GoString
  (expectedCommitment actualCommitment : Hash)
  (txCount totalBytes : UInt64)
deriving DecidableEq

structure InvalidProposalVerificationContext where
  (expectedValidatorSetHash expectedAppHash expectedTxResultsHash : Hash)
  (expectedTxResults actualTxResults : List Result)
  txIndex : UInt64
  contextProofHash : Hash
  chainID : GoString
  expectedStateRoot : Hash
  expectedProofNamespace : GoString
  (expectedProofKey expectedProofValue : Bytes)
  expectedProofExists : Option Bool
  requireStateProof : Bool
  expectedTimeUnixNano : Int64
deriving DecidableEq

def InvalidProposalVerificationContext.zero : InvalidProposalVerificationContext :=
  ⟨zeroHash, zeroHash, zeroHash, [], [], 0, zeroHash, [], zeroHash, [], [], [], none, false, 0⟩

def hashTxResults (results : List Result) : Hash :=
  Sha256.sum256 (putUint64 (UInt64.ofNat results.length) ++ results.flatMap fun result =>
    putUint64 (UInt64.ofNat result.code.toNat) ++ sized result.log ++ sized result.data ++ putUint64 result.gasUsed ++ putUint64 result.feePaid)

def flag (set : Bool) : Bytes := putUint64 (if set then 1 else 0)

variable (context : InvalidProposalVerificationContext) (evidence : Evidence) (proposal : Proposal) (proof : Bytes) {value : Value}

def InvalidProposalVerificationContext.preimage : Bytes :=
  utf8 "vexo.invalid_proposal.context.v1" ++ context.expectedValidatorSetHash.bytes ++ context.expectedAppHash.bytes ++
    context.expectedTxResultsHash.bytes ++ context.expectedStateRoot.bytes ++ sized context.chainID ++ sized context.expectedProofNamespace ++
    sized context.expectedProofKey ++ sized context.expectedProofValue ++
    (match context.expectedProofExists with
      | some found => flag true ++ flag found
      | none => flag false) ++
    flag context.requireStateProof ++ putUint64 context.expectedTimeUnixNano.toUInt64 ++
    (if context.expectedTxResults ≠ [] ∨ context.actualTxResults ≠ [] then
      (hashTxResults context.expectedTxResults).bytes ++ (hashTxResults context.actualTxResults).bytes ++ putUint64 context.txIndex
    else [])

-- A context with nothing but its own hash has no hash.
def InvalidProposalVerificationContext.proofHash : Hash :=
  if { context with contextProofHash := zeroHash } = .zero then zeroHash else Sha256.sum256 context.preimage

def txSetHash (txs : List Tx) : Hash := Sha256.sum256 (txs.flatMap fun tx => (Sha256.sum256 tx).bytes)

def zeroProposal : Proposal := ⟨⟨zeroHeader, []⟩, 0, [], zeroQC, []⟩

def blockDecoder : Decoder Block :=
  intoStruct
    [field "Header" Block.header headerDecoder fun block header => { block with header },
      field "Txs" Block.txs (intoList [] intoBytes) fun block txs => { block with txs }]

def proposalDecoder : Decoder Proposal :=
  intoStruct
    [field "Block" Proposal.block blockDecoder fun proposal block => { proposal with block },
      field "Round" Proposal.round intoUint64 fun proposal round => { proposal with round },
      field "Proposer" Proposal.proposer intoText fun proposal proposer => { proposal with proposer },
      field "JustifyQC" Proposal.justifyQC quorumCertDecoder fun proposal justifyQC => { proposal with justifyQC },
      field "Signature" Proposal.signature intoBytes fun proposal signature => { proposal with signature }]

def voteDecoder : Decoder Vote :=
  intoStruct
    [field "Height" Vote.height intoUint64 fun vote height => { vote with height },
      field "Round" Vote.round intoUint64 fun vote round => { vote with round },
      field "BlockHash" Vote.blockHash hashDecoder fun vote blockHash => { vote with blockHash },
      field "ValidatorID" Vote.validatorID intoText fun vote validatorID => { vote with validatorID },
      field "Signature" Vote.signature intoBytes fun vote signature => { vote with signature }]

def timeoutVoteDecoder : Decoder TimeoutVote :=
  intoStruct
    [field "Height" TimeoutVote.height intoUint64 fun vote height => { vote with height },
      field "Round" TimeoutVote.round intoUint64 fun vote round => { vote with round },
      field "ValidatorID" TimeoutVote.validatorID intoText fun vote validatorID => { vote with validatorID },
      field "HighQC" TimeoutVote.highQC quorumCertDecoder fun vote highQC => { vote with highQC },
      field "Signature" TimeoutVote.signature intoBytes fun vote signature => { vote with signature }]

def conflictingVoteDecoder : Decoder ConflictingVoteProof :=
  intoStruct
    [field "first" ConflictingVoteProof.first voteDecoder fun pair first => { pair with first },
      field "second" ConflictingVoteProof.second voteDecoder fun pair second => { pair with second }]

def conflictingTimeoutVoteDecoder : Decoder ConflictingTimeoutVoteProof :=
  intoStruct
    [field "first" ConflictingTimeoutVoteProof.first timeoutVoteDecoder fun pair first => { pair with first },
      field "second" ConflictingTimeoutVoteProof.second timeoutVoteDecoder fun pair second => { pair with second }]

def resultDecoder : Decoder Result :=
  intoStruct
    [field "Code" Result.code intoUint32 fun result code => { result with code },
      field "Log" Result.log intoText fun result log => { result with log },
      field "Data" Result.data intoBytes fun result data => { result with data },
      field "GasUsed" Result.gasUsed intoUint64 fun result gasUsed => { result with gasUsed },
      field "FeePaid" Result.feePaid intoUint64 fun result feePaid => { result with feePaid }]

def zeroResult : Result := ⟨0, [], [], 0, 0⟩

def executionProofDecoder : Decoder TxExecutionProof :=
  intoStruct
    [field "tx_index" TxExecutionProof.txIndex intoUint64 fun proof txIndex => { proof with txIndex },
      field "tx" TxExecutionProof.tx intoBytes fun proof tx => { proof with tx },
      field "expected_results" TxExecutionProof.expectedResults (intoList zeroResult resultDecoder) fun proof expectedResults =>
        { proof with expectedResults },
      field "actual_results" TxExecutionProof.actualResults (intoList zeroResult resultDecoder) fun proof actualResults =>
        { proof with actualResults }]

-- The reason is kept as the decoded text until the whole document is read.
def invalidProposalDecoder : Decoder (InvalidProposalProof × GoString) :=
  intoStruct
    [field "proposal" (·.1.proposal) proposalDecoder fun (proof, reason) proposal => ({ proof with proposal }, reason),
      field "reason" Prod.snd intoText fun (proof, _) reason => (proof, reason),
      field "expected_hash" (·.1.expectedHash) hashDecoder fun (proof, reason) expectedHash => ({ proof with expectedHash }, reason),
      field "actual_hash" (·.1.actualHash) hashDecoder fun (proof, reason) actualHash => ({ proof with actualHash }, reason),
      field "context_proof_hash" (·.1.contextProofHash) hashDecoder fun (proof, reason) contextProofHash =>
        ({ proof with contextProofHash }, reason),
      field "state_proof" (·.1.stateProof) (intoPointer .zero QueryProof.proofDecoder) fun (proof, reason) stateProof =>
        ({ proof with stateProof }, reason),
      field "execution_proof" (·.1.executionProof) (intoPointer ⟨0, [], [], []⟩ executionProofDecoder) fun (proof, reason) executionProof =>
        ({ proof with executionProof }, reason),
      field "expected_time_unix_nano" (·.1.expectedTimeUnixNano) intoInt64 fun (proof, reason) expectedTimeUnixNano =>
        ({ proof with expectedTimeUnixNano }, reason),
      field "actual_time_unix_nano" (·.1.actualTimeUnixNano) intoInt64 fun (proof, reason) actualTimeUnixNano =>
        ({ proof with actualTimeUnixNano }, reason),
      field "verification_message" (·.1.verificationMessage) intoText fun (proof, reason) verificationMessage =>
        ({ proof with verificationMessage }, reason)]

def unavailableDataDecoder : Decoder UnavailableDataProof :=
  intoStruct
    [field "proposal" UnavailableDataProof.proposal proposalDecoder fun proof proposal => { proof with proposal },
      field "reason" UnavailableDataProof.reason intoText fun proof reason => { proof with reason },
      field "expected_commitment" UnavailableDataProof.expectedCommitment hashDecoder fun proof expectedCommitment =>
        { proof with expectedCommitment },
      field "actual_commitment" UnavailableDataProof.actualCommitment hashDecoder fun proof actualCommitment => { proof with actualCommitment },
      field "tx_count" UnavailableDataProof.txCount intoUint64 fun proof txCount => { proof with txCount },
      field "total_bytes" UnavailableDataProof.totalBytes intoUint64 fun proof totalBytes => { proof with totalBytes }]

def zeroVote : Vote := ⟨0, 0, zeroHash, [], []⟩

def zeroTimeoutVote : TimeoutVote := ⟨0, 0, [], zeroQC, []⟩

def zeroInvalidProposalProof : InvalidProposalProof :=
  ⟨zeroProposal, .ofName [], zeroHash, zeroHash, zeroHash, none, none, 0, 0, []⟩

def decodeConflictingVoteProof : Except Err ConflictingVoteProof :=
  decodeDocument ⟨zeroVote, zeroVote⟩ conflictingVoteDecoder proof

def decodeConflictingTimeoutVoteProof : Except Err ConflictingTimeoutVoteProof :=
  decodeDocument ⟨zeroTimeoutVote, zeroTimeoutVote⟩ conflictingTimeoutVoteDecoder proof

def decodeInvalidProposalProof : Except Err InvalidProposalProof := do
  let (decoded, reason) ← decodeDocument (zeroInvalidProposalProof, []) invalidProposalDecoder proof
  return { decoded with reason := .ofName reason }

def decodeUnavailableDataProof : Except Err UnavailableDataProof :=
  decodeDocument ⟨zeroProposal, [], zeroHash, zeroHash, 0, 0⟩ unavailableDataDecoder proof

theorem decoded_header_spelled {current header : Header} (kept : Utf8.Valid current.chainID)
    (decoded : headerDecoder current value = some header) : Utf8.Valid header.chainID := by
  refine @into_struct_keeps _ _ (fun header => Utf8.Valid header.chainID) ?_ _ _ _ kept decoded
  simp only [forall_mem_cons]
  refine ⟨field_keeps fun _ _ _ kept read => into_text_valid kept read, ?_, ?_, ?_, ?_, ?_, ?_, ?_, by simp⟩
  all_goals exact field_keeps fun _ _ _ kept _ => kept

theorem decoded_block_spelled {current block : Block} (kept : Utf8.Valid current.header.chainID)
    (decoded : blockDecoder current value = some block) : Utf8.Valid block.header.chainID := by
  refine @into_struct_keeps _ _ (fun block => Utf8.Valid block.header.chainID) ?_ _ _ _ kept decoded
  simp only [forall_mem_cons]
  exact ⟨field_keeps fun _ _ _ kept read => decoded_header_spelled kept read, field_keeps fun _ _ _ kept _ => kept, by simp⟩

-- JSON text can only name a chain and a proposer that are UTF-8.
def SpelledProposal : Prop := Utf8.Valid proposal.block.header.chainID ∧ Utf8.Valid proposal.proposer

theorem zero_proposal_spelled : SpelledProposal zeroProposal := ⟨⟨[], rfl⟩, ⟨[], rfl⟩⟩

theorem decoded_proposal_spelled {current proposal : Proposal} (kept : SpelledProposal current)
    (decoded : proposalDecoder current value = some proposal) : SpelledProposal proposal := by
  refine into_struct_keeps ?_ kept decoded
  simp only [forall_mem_cons]
  refine ⟨field_keeps fun _ _ _ kept read => ⟨decoded_block_spelled kept.1 read, kept.2⟩, ?_,
    field_keeps fun _ _ _ kept read => ⟨kept.1, into_text_valid kept.2 read⟩, ?_, ?_, by simp⟩
  all_goals exact field_keeps fun _ _ _ kept _ => kept

theorem decode_document_ok {Target : Type} {zero target : Target} {decoder : Decoder Target} {document : Bytes}
    (decoded : decodeDocument zero decoder document = .ok target) : ∃ value, decoder zero value = some target := by
  unfold decodeDocument at decoded
  cases parsed : parse document with
  | none => simp [parsed] at decoded
  | some value =>
    cases read : decoder zero value with
    | none => simp [parsed, read] at decoded
    | some result =>
      simp only [parsed, read] at decoded
      cases decoded
      exact ⟨value, read⟩

theorem decoded_invalid_spelled {proof : Bytes} {decoded : InvalidProposalProof} (read : decodeInvalidProposalProof proof = .ok decoded) :
    SpelledProposal decoded.proposal := by
  simp only [decodeInvalidProposalProof, bind_ok_iff] at read
  obtain ⟨⟨document, reason⟩, read, done⟩ := read
  cases done
  obtain ⟨value, read⟩ := decode_document_ok read
  refine @into_struct_keeps _ _ (fun document => SpelledProposal document.1.proposal) ?_ _ _ _ zero_proposal_spelled read
  simp only [forall_mem_cons]
  refine ⟨field_keeps fun _ _ _ kept read => decoded_proposal_spelled kept read, ?_, ?_, ?_, ?_, ?_, ?_, ?_, ?_, ?_, by simp⟩
  all_goals exact field_keeps fun _ _ _ kept _ => kept

def blockValue (block : Block) : Value := object ["Header", "Txs"] [headerValue block.header, list (block.txs.map base64)]

def proposalValue : Value :=
  object ["Block", "Round", "Proposer", "JustifyQC", "Signature"]
    [blockValue proposal.block, integer proposal.round.toNat, text proposal.proposer, quorumCertValue proposal.justifyQC, base64 proposal.signature]

-- The fields left out are the ones omitempty leaves out.
def dataAvailabilityValue (reason : GoString) (expectedHash actualHash : Hash) : Value :=
  object ["proposal", "reason", "expected_hash", "actual_hash", "context_proof_hash"]
    [proposalValue proposal, text reason, hashValue expectedHash, hashValue actualHash, hashValue zeroHash]

theorem written_proposal : Written (proposalValue proposal) := by
  have txs : ∀ item ∈ proposal.block.txs.map base64, Written item := by
    intro item listed
    obtain ⟨tx, -, rfl⟩ := mem_map.mp listed
    exact written_base64 tx
  have block : Written (blockValue proposal.block) := by
    refine written_object _ ?_
    simp only [forall_mem_cons]
    exact ⟨written_header _, written_list txs, by simp⟩
  refine written_object _ ?_
  simp only [forall_mem_cons]
  exact ⟨block, written_integer _, written_text _, written_cert _, written_base64 _, by simp⟩

theorem read_block (current block : Block) (valid : Utf8.Valid block.header.chainID) : blockDecoder current (blockValue block) = some block := by
  have txs := fun current => @into_list Tx [] intoBytes base64 block.txs (fun tx _ current => into_base64 current tx) current
  rw [blockDecoder, blockValue, into_object (by with_unfolding_all decide) (List.Subset.refl _) (by with_unfolding_all decide) rfl]
  simp [field, read_header _ _ valid, txs]

theorem read_proposal (current proposal : Proposal) (chain : Utf8.Valid proposal.block.header.chainID)
    (proposer : Utf8.Valid proposal.proposer) : proposalDecoder current (proposalValue proposal) = some proposal := by
  rw [proposalDecoder, proposalValue, into_object (by with_unfolding_all decide) (List.Subset.refl _) (by with_unfolding_all decide) rfl]
  simp [field, read_block _ _ chain, into_uint64, into_text _ proposer, read_cert, into_base64]

theorem decode_data_availability {proposal : Proposal} (chain : Utf8.Valid proposal.block.header.chainID)
    (proposer : Utf8.Valid proposal.proposer) {reason : GoString} (spelled : Utf8.Valid reason) (expectedHash actualHash : Hash) :
    decodeInvalidProposalProof (render (dataAvailabilityValue proposal reason expectedHash actualHash)) =
      .ok ⟨proposal, .ofName reason, expectedHash, actualHash, zeroHash, none, none, 0, 0, []⟩ := by
  have written : Written (dataAvailabilityValue proposal reason expectedHash actualHash) := by
    refine written_object _ ?_
    simp only [forall_mem_cons]
    exact ⟨written_proposal _, written_text _, written_hash _, written_hash _, written_hash _, by simp⟩
  have read : invalidProposalDecoder (zeroInvalidProposalProof, []) (dataAvailabilityValue proposal reason expectedHash actualHash) =
      some (⟨proposal, .ofName [], expectedHash, actualHash, zeroHash, none, none, 0, 0, []⟩, reason) := by
    rw [invalidProposalDecoder, dataAvailabilityValue, into_object (by with_unfolding_all decide) (take_subset 5 _) (by with_unfolding_all decide) rfl]
    simp [field, read_proposal _ _ chain proposer, into_text _ spelled, read_hash, zeroInvalidProposalProof]
  have parsed : parse (render (dataAvailabilityValue proposal reason expectedHash actualHash)) =
      some (dataAvailabilityValue proposal reason expectedHash actualHash) := parse_render written
  simp only [decodeInvalidProposalProof, decodeDocument, parsed, read]
  rfl

def verifyConflictingVoteEvidence : Except Err Unit := do
  require (evidence.type = .conflictingVote) .unknownEvidenceType
  let decoded ← decodeConflictingVoteProof evidence.proof
  require (decoded.first.validatorID = evidence.validator ∧ decoded.first.height = evidence.height ∧
    decoded.first.round = evidence.round) .votePairMismatch
  require (decoded.second.validatorID = evidence.validator ∧ decoded.second.height = evidence.height ∧
    decoded.second.round = evidence.round) .votePairMismatch
  require (decoded.first.blockHash ≠ decoded.second.blockHash) .votesDoNotConflict

def verifyConflictingTimeoutVoteEvidence : Except Err Unit := do
  require (evidence.type = .conflictingTimeoutVote) .unknownEvidenceType
  let decoded ← decodeConflictingTimeoutVoteProof evidence.proof
  require (decoded.first.validatorID = evidence.validator ∧ decoded.first.height = evidence.height ∧
    decoded.first.round = evidence.round) .votePairMismatch
  require (decoded.second.validatorID = evidence.validator ∧ decoded.second.height = evidence.height ∧
    decoded.second.round = evidence.round) .votePairMismatch
  require (¬ sameQC decoded.first.highQC decoded.second.highQC) .timeoutVotesDoNotConflict

section Proposals

structure InvalidProposalVerifierEntry where
  verifier : InvalidProposalProof → InvalidProposalVerificationContext → Except Err Unit
  requireContext : Bool

-- Registering is refused for the empty reason and for the built-in ones.
structure VerifierRegistry where
  entry : GoString → Option InvalidProposalVerifierEntry
  refused : ∀ name, name = [] ∨ name ∈ invalidProposalReasons → entry name = none

def VerifierRegistry.empty : VerifierRegistry := ⟨fun _ => none, fun _ _ => rfl⟩

variable (registry : VerifierRegistry)

def validInvalidProposalReason : InvalidProposalReason → Bool
  | .other name _ => (registry.entry name).isSome
  | _ => true

def invalidProposalReasonRequiresContext : InvalidProposalReason → Bool
  | .validatorSetHash | .appHash | .timestamp | .txValidity => true
  | .daMismatch | .missingData => false
  | .other name _ => (registry.entry name).any InvalidProposalVerifierEntry.requireContext

variable (decoded : InvalidProposalProof)

-- The empty reason has no entry, so it is not valid either.
def verifyInvalidProposalEnvelope (validatorID : ValidatorID) (height : Height) (round : Round) : Except Err Unit :=
  require (validInvalidProposalReason registry decoded.reason ∧ decoded.proposal.proposer = validatorID ∧
    decoded.proposal.block.header.height = height ∧ decoded.proposal.round = round) .votePairMismatch

def verifyDACommitmentProof : Except Err Unit := do
  let expectedCommitment := DataAvailability.commitment decoded.proposal.block.txs
  let actualCommitment := decoded.proposal.block.header.consensusHash
  require (decoded.expectedHash ≠ zeroHash ∧ decoded.expectedHash = expectedCommitment ∧ decoded.actualHash = actualCommitment)
    (.invalidProposal "")
  require (¬ (decoded.reason = .daMismatch ∧ decoded.expectedHash = decoded.actualHash)) (.invalidProposal "")
  require (¬ (decoded.reason = .missingData ∧ decoded.actualHash ≠ zeroHash)) (.invalidProposal "")

def verifyHashMismatch (proposalActual : Hash) : Except Err Unit := do
  require (decoded.expectedHash ≠ zeroHash ∧ decoded.actualHash ≠ zeroHash ∧ decoded.expectedHash ≠ decoded.actualHash) (.invalidProposal "")
  require (¬ (proposalActual ≠ zeroHash ∧ decoded.actualHash ≠ proposalActual)) (.invalidProposal "")

def verifyTxValidityMismatch : Except Err Unit := do
  let txs := decoded.proposal.block.txs
  require (decoded.expectedHash ≠ zeroHash ∧ decoded.actualHash ≠ zeroHash ∧ decoded.expectedHash ≠ decoded.actualHash) (.invalidProposal "")
  match decoded.executionProof with
  | none => require (decoded.actualHash = txSetHash txs) (.invalidProposal "")
  | some proof => do
      let index := proof.txIndex.toNat
      require (txs[index]? = some proof.tx ∧ proof.expectedResults.length = txs.length ∧ proof.actualResults.length = txs.length)
        (.invalidProposal "")
      require (hashTxResults proof.expectedResults = decoded.expectedHash ∧ hashTxResults proof.actualResults = decoded.actualHash)
        (.invalidProposal "")
      require (proof.expectedResults[index]? ≠ proof.actualResults[index]?) (.invalidProposal "")

-- The evidence holds when the check it reports fails with this very error.
def requireFailure (expected : Err) : Except Err Unit → Except Err Unit
  | .ok _ => .error (.invalidProposal "")
  | .error reason => if reason = expected then .ok () else .error reason

def verifyInvalidProposalByReasonWithContext (context : InvalidProposalVerificationContext) : Except Err Unit :=
  let block := decoded.proposal.block
  match decoded.reason with
  | .daMismatch => do
      verifyDACommitmentProof decoded
      requireFailure .commitmentMismatch (DataAvailability.verify block.header block.txs)
  | .missingData => do
      verifyDACommitmentProof decoded
      requireFailure .missingData (DataAvailability.verify block.header block.txs)
  | .validatorSetHash => verifyHashMismatch decoded block.header.validatorSetHash
  | .appHash => verifyHashMismatch decoded block.header.appHash
  | .txValidity => do
      require (decoded.verificationMessage ≠ []) (.invalidProposal "")
      verifyTxValidityMismatch decoded
  | .timestamp =>
    require (decoded.expectedTimeUnixNano ≠ 0 ∧ decoded.actualTimeUnixNano ≠ 0 ∧ decoded.expectedTimeUnixNano ≠ decoded.actualTimeUnixNano ∧
      ¬ (block.header.timeUnixNano ≠ 0 ∧ decoded.actualTimeUnixNano ≠ block.header.timeUnixNano)) (.invalidProposal "")
  | .other name _ =>
    match registry.entry name with
    | some entry => entry.verifier decoded context
    | none => .error .unsupportedProposalReason

def verifyInvalidProposalBoundContext (context : InvalidProposalVerificationContext) : Except Err Unit :=
  if invalidProposalReasonRequiresContext registry decoded.reason then do
    require (decoded.contextProofHash ≠ zeroHash ∧ context.contextProofHash ≠ zeroHash) .invalidProposalContext
    require (context.proofHash ≠ zeroHash ∧ context.contextProofHash = context.proofHash) .invalidProposalContext
    require (decoded.contextProofHash = context.proofHash) (.invalidProposal "")
  else .ok ()

def verifyExpectation (context : InvalidProposalVerificationContext) : Except Err Unit :=
  match decoded.reason with
  | .validatorSetHash => do
      require (context.expectedValidatorSetHash ≠ zeroHash) .invalidProposalContext
      require (decoded.expectedHash = context.expectedValidatorSetHash) (.invalidProposal "")
  | .appHash => do
      require (context.expectedAppHash ≠ zeroHash) .invalidProposalContext
      require (decoded.expectedHash = context.expectedAppHash) (.invalidProposal "")
  | .timestamp => do
      require (context.expectedTimeUnixNano ≠ 0) .invalidProposalContext
      require (decoded.expectedTimeUnixNano = context.expectedTimeUnixNano) (.invalidProposal "")
  | .txValidity => do
      require (context.expectedTxResultsHash ≠ zeroHash) .invalidProposalContext
      require (decoded.executionProof.isSome) (.invalidProposal "")
      require (decoded.expectedHash = context.expectedTxResultsHash) (.invalidProposal "")
  | _ => .ok ()

def verifyContextProofHash (context : InvalidProposalVerificationContext) : Except Err Unit :=
  if decoded.contextProofHash ≠ zeroHash then do
    require (context.contextProofHash ≠ zeroHash ∧ context.proofHash ≠ zeroHash) .invalidProposalContext
    require (context.contextProofHash = context.proofHash) .invalidProposalContext
    require (decoded.contextProofHash = context.proofHash) (.invalidProposal "")
  else require (¬ (context.contextProofHash ≠ zeroHash ∧ context.contextProofHash ≠ context.proofHash)) .invalidProposalContext

def queryProofError : App.AppErr → Err
  | .rootMismatch => .stateRootMismatch
  | _ => .invalidQueryProof

def verifyInvalidProposalStateProof (context : InvalidProposalVerificationContext) (height : Height) : Except Err Unit :=
  match decoded.stateProof with
  | none => require (context.requireStateProof = false) .invalidProposalContext
  | some proof => do
      require (context.expectedStateRoot ≠ zeroHash) .invalidProposalContext
      (QueryProof.verify proof context.chainID height context.expectedStateRoot).mapError queryProofError
      require (context.expectedProofNamespace = [] ∨ proof.space = context.expectedProofNamespace) (.invalidProposal "")
      require (context.expectedProofKey = [] ∨ proof.key = context.expectedProofKey) (.invalidProposal "")
      require (∀ expected ∈ context.expectedProofExists, proof.found = expected) (.invalidProposal "")
      require (context.expectedProofValue = [] ∨ proof.value = context.expectedProofValue) (.invalidProposal "")

-- VerifyInvalidProposalEvidenceWithBoundContext checks the type once more and is the same function.
def verifyInvalidProposalEvidenceWithContext (evidence : Evidence) (context : InvalidProposalVerificationContext) : Except Err Unit := do
  require (evidence.type = .invalidProposal) .unknownEvidenceType
  let decoded ← decodeInvalidProposalProof evidence.proof
  verifyInvalidProposalEnvelope registry decoded evidence.validator evidence.height evidence.round
  verifyInvalidProposalBoundContext registry decoded context
  verifyExpectation decoded context
  verifyContextProofHash decoded context
  verifyInvalidProposalStateProof decoded context evidence.height
  verifyInvalidProposalByReasonWithContext registry decoded context

def totalBytes (txs : List Tx) : UInt64 := txs.foldl (fun total tx => total + UInt64.ofNat tx.length) 0

def verifyUnavailableDataEvidence (evidence : Evidence) : Except Err Unit := do
  require (evidence.type = .unavailableData) .unknownEvidenceType
  let decoded ← decodeUnavailableDataProof evidence.proof
  let block := decoded.proposal.block
  require (decoded.reason ≠ [] ∧ decoded.proposal.proposer = evidence.validator ∧ block.header.height = evidence.height ∧
    decoded.proposal.round = evidence.round) .votePairMismatch
  require (decoded.expectedCommitment ≠ zeroHash ∧ decoded.expectedCommitment = DataAvailability.commitment block.txs ∧
    decoded.actualCommitment = block.header.consensusHash ∧ decoded.actualCommitment = zeroHash ∧
    decoded.txCount = UInt64.ofNat block.txs.length ∧ decoded.totalBytes = totalBytes block.txs) (.invalidProposal "")
  require (DataAvailability.verify block.header block.txs = .error .missingData) .missingData

end Proposals

end

-- EvidenceSignatureVerifier, which may also be an EvidenceAggregateVerifier.
structure EvidenceVerifier where
  verify : PublicKey → Bytes → Signature → Bool
  aggregate : Option SignatureVerifier

def verifyDomainSignature (verifier : EvidenceVerifier) (publicKey : PublicKey) (domain : GoString) (message : Bytes) (signature : Signature) :
    Bool :=
  if signature = [] then false
  else
    match Crypto.domainMessage domain message with
    | .error _ => false
    | .ok domainMessage => verifier.verify publicKey domainMessage signature

def verifyProposalEvidenceSignature (proposal : Proposal) (validatorInfo : Validator) (verifier : Option EvidenceVerifier) : Except Err Unit :=
  match verifier with
  | none => .error .evidenceSignatureVerifier
  | some verifier =>
    require (verifyDomainSignature verifier validatorInfo.publicKey Crypto.domainConsensusProposal (proposalSignBytes proposal)
      proposal.signature) (.invalidProposal "")

def verifyFinalityConflictEvidence (evidence : Evidence) (validatorSet : SetSnapshot) (verifier : SignatureVerifier) : Except Err Unit :=
  (verifyConflictEvidence validatorSet (some verifier) evidence).map fun _ => ()

section Evidence

variable (reasons : VerifierRegistry) (evidence : Evidence) (validatorSet : SetSnapshot) (validatorInfo : Validator)
  (verifier : Option EvidenceVerifier)

def verifyVoteEvidence : Except Err Unit := do
  verifyConflictingVoteEvidence { evidence with type := .conflictingVote }
  let decoded ← decodeConflictingVoteProof evidence.proof
  match verifier with
  | none => .error .evidenceSignatureVerifier
  | some verifier =>
    require (verifyDomainSignature verifier validatorInfo.publicKey Crypto.domainConsensusVote (voteSignBytes decoded.first)
        decoded.first.signature ∧
      verifyDomainSignature verifier validatorInfo.publicKey Crypto.domainConsensusVote (voteSignBytes decoded.second)
        decoded.second.signature) .invalidEvidenceVoteSignature

def verifyTimeoutVoteEvidence : Except Err Unit := do
  verifyConflictingTimeoutVoteEvidence evidence
  let decoded ← decodeConflictingTimeoutVoteProof evidence.proof
  match verifier with
  | none => .error .evidenceSignatureVerifier
  | some verifier =>
    require (verifyDomainSignature verifier validatorInfo.publicKey Crypto.domainConsensusTimeoutVote (timeoutVoteSignBytes decoded.first)
        decoded.first.signature ∧
      verifyDomainSignature verifier validatorInfo.publicKey Crypto.domainConsensusTimeoutVote (timeoutVoteSignBytes decoded.second)
        decoded.second.signature) .invalidEvidenceTimeoutSignature

variable (context : InvalidProposalVerificationContext)

-- The set's own hash stands in for an expected hash the context leaves out.
def expectingSet : InvalidProposalVerificationContext :=
  if context.expectedValidatorSetHash = zeroHash then { context with expectedValidatorSetHash := validatorSet.hash } else context

def verifyProposalEvidence : Except Err Unit := do
  let decoded ← decodeInvalidProposalProof evidence.proof
  match decoded.reason with
  | .validatorSetHash => verifyInvalidProposalEvidenceWithContext reasons evidence (expectingSet validatorSet context)
  | .other name _ => do
      require ((reasons.entry name).isSome) .invalidProposalContext
      verifyInvalidProposalEvidenceWithContext reasons evidence context
  | _ => verifyInvalidProposalEvidenceWithContext reasons evidence context
  verifyProposalEvidenceSignature decoded.proposal validatorInfo verifier

def verifyConsensusEvidence : Except Err Unit :=
  match evidence.type with
  | .doubleSign | .conflictingVote => verifyVoteEvidence evidence validatorInfo verifier
  | .conflictingTimeoutVote => verifyTimeoutVoteEvidence evidence validatorInfo verifier
  | .invalidProposal => verifyProposalEvidence reasons evidence validatorSet validatorInfo verifier context
  | .unavailableData => do
      verifyUnavailableDataEvidence evidence
      let decoded ← decodeUnavailableDataProof evidence.proof
      verifyProposalEvidenceSignature decoded.proposal validatorInfo verifier
  | .finalityConflict =>
    match verifier.bind EvidenceVerifier.aggregate with
    | none => .error .evidenceFinalityVerifier
    | some aggregateVerifier => verifyFinalityConflictEvidence evidence validatorSet aggregateVerifier
  | .other _ _ => .error .unsupportedEvidenceProof

end Evidence

abbrev KeyVotes := PublicKey → Height → Round → Hash → Prop

def VotesOnce (Signed : KeyVotes) (key : PublicKey) : Prop :=
  ∀ height round first second, Signed key height round first → Signed key height round second → first = second

def HonestVoter (set : SetSnapshot) (Signed : KeyVotes) (id : ValidatorID) : Prop :=
  ∀ member, set.get id = some member → VotesOnce Signed member.publicKey

-- No aggregate verifies unless every key in it signed the vote.
def AggregateSound (signatures : SignatureVerifier) (Signed : KeyVotes) : Prop :=
  ∀ keys height round blockHash signature,
    (domainAggregateVerifier signatures Crypto.domainConsensusVote).verifyAggregate keys (Signbytes.vote height round blockHash) signature = true →
    ∀ key ∈ keys, Signed key height round blockHash

structure Attestation where
  cert : QuorumCert
  blockHash : Hash

def Attestation.signBytes (attestation : Attestation) : Bytes :=
  Signbytes.vote attestation.cert.height attestation.cert.round attestation.blockHash

def Attestation.keys (attestation : Attestation) (set : SetSnapshot) : List PublicKey := keysOf set (certSigners attestation.cert)

def proofAttestation (proof : Proof) : Attestation :=
  let blockHash := if proof.blockHash = zeroHash then proof.quorumCert.blockHash else proof.blockHash
  ⟨proof.quorumCert, if blockHash = zeroHash then proof.headerHash else blockHash⟩

def linkAttestation (link : CommitLink) : Attestation :=
  ⟨link.quorumCert, if link.quorumCert.blockHash = zeroHash then link.blockHash else link.quorumCert.blockHash⟩

-- The signatures of later links are not looked at.
def attestations (proof : Proof) : List Attestation := proofAttestation proof :: (proof.commitChain.take 2).map linkAttestation

def Attestation.Accepted (set : SetSnapshot) (signatures : SignatureVerifier) (attestation : Attestation) : Prop :=
  (domainAggregateVerifier signatures Crypto.domainConsensusVote).verifyAggregate (attestation.keys set) attestation.signBytes
    attestation.cert.signature = true

variable {proof : Proof}

section Attested

variable {set : SetSnapshot} {signatures : SignatureVerifier} {ctx : Context}

theorem cert_attested {cert : QuorumCert} {height : Height} {blockHash signed : Hash}
    (accepted : (newVerifier set (some signatures) false).verifyQuorumCert ctx cert height blockHash
      (Signbytes.vote cert.height cert.round signed) = .ok ()) : Attestation.Accepted set signatures ⟨cert, signed⟩ := by
  obtain ⟨-, -, signers, backed⟩ := verify_quorum_cert_ok accepted
  have verified := backed.signed
  rwa [← cert_signers_parsed backed.parsed] at verified

theorem links_attested {links : List CommitLink} {index : Nat} {previousHeader : Header} {previousHash : Hash}
    (accepted : (newVerifier set (some signatures) false).verifyCommitLinks ctx proof index previousHeader previousHash links = .ok ()) :
    ∀ link ∈ links.take (2 - index), (linkAttestation link).Accepted set signatures := by
  induction links generalizing index previousHeader previousHash with
  | nil => simp
  | cons link rest ih =>
    simp only [Verifier.verifyCommitLinks, ok_iff] at accepted
    obtain ⟨-, -, -, -, -, -, -, -, accepted⟩ := accepted
    by_cases early : index < 2
    · rw [if_pos early] at accepted
      obtain ⟨_, certified, later⟩ := bind_ok_iff.mp accepted
      rw [show 2 - index = 2 - (index + 1) + 1 by omega, take_succ_cons]
      intro other listed
      rcases mem_cons.mp listed with rfl | tail
      · exact cert_attested certified
      · exact ih later other tail
    · rw [show 2 - index = 0 by omega, take_zero]
      exact fun _ nowhere => absurd nowhere not_mem_nil

theorem proof_attested (accepted : (newVerifier set (some signatures) false).verifyFinalityProof proof = .ok ()) :
    ∀ attestation ∈ attestations proof, attestation.Accepted set signatures := by
  simp only [Verifier.verifyFinalityProof, Verifier.verifyFinalityProofWithContext, ok_iff] at accepted
  obtain ⟨-, -, -, _, certified, chained⟩ := accepted
  intro attestation listed
  rcases mem_cons.mp listed with rfl | linked
  · exact cert_attested certified
  · obtain ⟨link, inside, rfl⟩ := mem_map.mp linked
    unfold Verifier.verifyCommitChain at chained
    by_cases empty : proof.commitChain = []
    · simp [empty] at inside
    · rw [if_neg empty] at chained
      simp only [ok_iff] at chained
      exact links_attested chained.2 link inside

end Attested

variable {pair : ConflictProof}
variable {violation : AccountableSafetyViolation}

section Replay

variable {set : SetSnapshot} {signatures other : SignatureVerifier} {ctx : Context}

-- Whether a certificate is accepted depends on the signature scheme only through its own aggregate.
theorem cert_replayed {cert : QuorumCert} {height : Height} {blockHash signed : Hash}
    (accepted : (newVerifier set (some signatures) false).verifyQuorumCert ctx cert height blockHash
      (Signbytes.vote cert.height cert.round signed) = .ok ()) (attested : Attestation.Accepted set other ⟨cert, signed⟩) :
    (newVerifier set (some other) false).verifyQuorumCert ctx cert height blockHash (Signbytes.vote cert.height cert.round signed) = .ok () := by
  simp only [Verifier.verifyQuorumCert, ok_iff] at accepted ⊢
  obtain ⟨live, heights, hashes, present, signers, parsed, ⟨power, keys⟩, tallied, quorum, powers, -⟩ := accepted
  refine ⟨live, heights, hashes, present, signers, parsed, ⟨power, keys⟩, tallied, quorum, powers, ?_⟩
  obtain ⟨-, -, -, known⟩ := tally_signers_ok _ _ _ _ _ _ tallied
  rw [known, nil_append, ← cert_signers_parsed parsed]
  exact attested

theorem proof_replayed (accepted : (newVerifier set (some signatures) false).verifyFinalityProof proof = .ok ())
    (attested : ∀ attestation ∈ attestations proof, attestation.Accepted set other) :
    (newVerifier set (some other) false).verifyFinalityProof proof = .ok () := by
  refine proof_checked_again accepted rfl rfl rfl fun cert signBytes listed height blockHash certified => ?_
  rcases mem_cons.mp listed with same | linked
  · cases same
    exact cert_replayed certified (attested _ mem_cons_self)
  · obtain ⟨link, inside, same⟩ := mem_map.mp linked
    cases same
    exact cert_replayed certified (attested _ (mem_cons_of_mem _ (mem_map_of_mem inside)))

theorem report_replayed {evidence : Evidence} (decoded : decodeConflictProof evidence.proof = .ok pair)
    (accepted : verifyConflictEvidence set (some signatures) evidence = .ok violation)
    (attested : ∀ attestation ∈ attestations pair.first ++ attestations pair.second, attestation.Accepted set other) :
    verifyConflictEvidence set (some other) evidence = .ok violation := by
  simp only [verifyConflictEvidence, ok_iff] at accepted ⊢
  obtain ⟨type, read, decoded', places, ⟨⟩, first, ⟨⟩, second, found, detected, named, returned⟩ := accepted
  cases decoded.symm.trans decoded'
  exact ⟨type, pair, decoded, places, (), proof_replayed first (forall_mem_append.mp attested).1, (),
    proof_replayed second (forall_mem_append.mp attested).2, found, detected, named, returned⟩

end Replay

section Reports

inductive ReportAccepted (reasons : VerifierRegistry) (set : SetSnapshot) (signatures : SignatureVerifier) (evidence : Evidence) : Prop
  | checked (violation : AccountableSafetyViolation) (accepted : verifyConflictEvidence set (some signatures) evidence = .ok violation)
  | penalised (info : Validator) (verify : PublicKey → Bytes → Signature → Bool) (context : InvalidProposalVerificationContext)
      (conflict : evidence.type = .finalityConflict)
      (accepted : verifyConsensusEvidence reasons evidence set info (some ⟨verify, some signatures⟩) context = .ok ())

variable {reasons : VerifierRegistry} {set : SetSnapshot} {signatures : SignatureVerifier} {evidence : Evidence}

theorem report_checked (accepted : ReportAccepted reasons set signatures evidence) :
    ∃ violation, verifyConflictEvidence set (some signatures) evidence = .ok violation := by
  cases accepted with
  | checked violation accepted => exact ⟨violation, accepted⟩
  | penalised info verify context conflict accepted =>
    simp only [verifyConsensusEvidence, conflict, Option.bind_some, verifyFinalityConflictEvidence] at accepted
    cases checked : verifyConflictEvidence set (some signatures) evidence with
    | ok violation => exact ⟨violation, rfl⟩
    | error reason =>
      rw [checked] at accepted
      contradiction

def reportAttestations (pair : ConflictProof) : List Attestation := attestations pair.first ++ attestations pair.second

-- The validator's key is in two of the report's certificates, which are for different blocks of one height and round.
def SignedConflict (set : SetSnapshot) (pair : ConflictProof) (id : ValidatorID) : Prop :=
  ∃ member, set.get id = some member ∧ ∃ first ∈ reportAttestations pair, ∃ second ∈ reportAttestations pair,
    member.publicKey ∈ first.keys set ∧ member.publicKey ∈ second.keys set ∧ first.cert.height = second.cert.height ∧
    first.cert.round = second.cert.round ∧ first.blockHash ≠ second.blockHash

theorem report_attested (decoded : decodeConflictProof evidence.proof = .ok pair)
    (accepted : verifyConflictEvidence set (some signatures) evidence = .ok violation) :
    ∀ attestation ∈ reportAttestations pair, attestation.Accepted set signatures := by
  simp only [verifyConflictEvidence, ok_iff] at accepted
  obtain ⟨-, read, decoded', -, ⟨⟩, first, ⟨⟩, second, -⟩ := accepted
  cases decoded.symm.trans decoded'
  intro attestation listed
  rcases mem_append.mp listed with inFirst | inSecond
  · exact proof_attested first attestation inFirst
  · exact proof_attested second attestation inSecond

def certifiedVotes (set : SetSnapshot) (pair : ConflictProof) : KeyVotes := fun key height round blockHash =>
  ∃ attestation ∈ reportAttestations pair, key ∈ attestation.keys set ∧ attestation.cert.height = height ∧
    attestation.cert.round = round ∧ attestation.blockHash = blockHash

open Classical in
noncomputable def certifiedOnly (set : SetSnapshot) (pair : ConflictProof) : SignatureVerifier where
  verifyAggregate keys message _ := ∃ attestation ∈ reportAttestations pair, keys = attestation.keys set ∧
    Crypto.domainMessage Crypto.domainConsensusVote attestation.signBytes = .ok message

theorem certified_only_sound (set : SetSnapshot) (pair : ConflictProof) : AggregateSound (certifiedOnly set pair) (certifiedVotes set pair) := by
  intro keys height round blockHash signature accepted key listed
  simp only [domainAggregateVerifier] at accepted
  cases encoded : Crypto.domainMessage Crypto.domainConsensusVote (Signbytes.vote height round blockHash) with
  | error reason => simp [encoded] at accepted
  | ok message =>
    simp only [encoded, certifiedOnly, decide_eq_true_eq] at accepted
    obtain ⟨attestation, inside, same, message'⟩ := accepted
    obtain ⟨heights, rounds, hashes⟩ := vote_sign_bytes_injective (Crypto.domain_message_injective message' encoded)
    exact ⟨attestation, inside, same ▸ listed, heights, rounds, hashes⟩

theorem certified_only_accepts {attestation : Attestation} (inside : attestation ∈ reportAttestations pair) :
    attestation.Accepted set (certifiedOnly set pair) := by
  obtain ⟨message, encoded⟩ := Crypto.domain_message_ok attestation.signBytes (show Crypto.domainConsensusVote ≠ [] by with_unfolding_all decide)
  simp only [Attestation.Accepted, domainAggregateVerifier, encoded, certifiedOnly, decide_eq_true_eq]
  exact ⟨attestation, inside, rfl, encoded⟩

theorem honest_voter_never_reported_iff (reasons : VerifierRegistry) (set : SetSnapshot) (signatures : SignatureVerifier)
    (evidence : Evidence) (pair : ConflictProof) (decoded : decodeConflictProof evidence.proof = .ok pair)
    (acceptable : ReportAccepted reasons set signatures evidence) :
    (∀ signatures Signed, AggregateSound signatures Signed → HonestVoter set Signed evidence.validator →
        ¬ ReportAccepted reasons set signatures evidence) ↔ SignedConflict set pair evidence.validator := by
  constructor
  · intro never
    by_contra noConflict
    obtain ⟨violation, accepted⟩ := report_checked acceptable
    refine never (certifiedOnly set pair) (certifiedVotes set pair) (certified_only_sound set pair) ?_
      (.checked violation (report_replayed decoded accepted fun _ inside => certified_only_accepts inside))
    rintro member known height round _ _ ⟨one, inOne, oneKey, oneHeight, oneRound, rfl⟩ ⟨other, inOther, otherKey, otherHeight, otherRound, rfl⟩
    by_contra different
    exact noConflict ⟨member, known, one, inOne, other, inOther, oneKey, otherKey, oneHeight.trans otherHeight.symm,
      oneRound.trans otherRound.symm, different⟩
  · rintro ⟨member, known, first, inFirst, second, inSecond, firstKey, secondKey, heights, rounds, different⟩ signatures Signed sound honest
      accepted
    obtain ⟨violation, checked⟩ := report_checked accepted
    have attested := report_attested decoded checked
    have firstSigned := sound _ _ _ _ _ (attested first inFirst) _ firstKey
    have secondSigned := sound _ _ _ _ _ (attested second inSecond) _ secondKey
    rw [heights, rounds] at firstSigned
    exact different (honest member known _ _ _ _ firstSigned secondSigned)

theorem attested_hash {verifier : Verifier} (checked : ProofChecked verifier proof) :
    (proofAttestation proof).blockHash = proof.quorumCert.blockHash := by
  have certified := checked.certHash
  unfold Proof.rootHash at certified
  unfold proofAttestation
  split at certified
  · next unset =>
    by_cases unsigned : proof.quorumCert.blockHash = zeroHash
    · simp [unset, unsigned, ← certified]
    · simp [unset, unsigned]
  · next unset =>
    simp [unset, certified]

theorem same_round_conflict (decoded : decodeConflictProof evidence.proof = .ok pair)
    (accepted : ReportAccepted reasons set signatures evidence) (rounds : pair.first.quorumCert.round = pair.second.quorumCert.round) :
    SignedConflict set pair evidence.validator := by
  obtain ⟨violation, checked⟩ := report_checked accepted
  obtain ⟨other, shown⟩ := conflict_evidence_shown checked
  cases decoded.symm.trans shown.decoded
  obtain ⟨signers, backed⟩ := shown.firstChecked.backed
  obtain ⟨member, known⟩ := backed.known _ (cert_signers_parsed backed.parsed ▸ shown.firstSigner)
  have listed : ∀ cert : QuorumCert, evidence.validator ∈ certSigners cert → member.publicKey ∈ keysOf set (certSigners cert) := by
    intro cert signer
    exact mem_filterMap.mpr ⟨evidence.validator, signer, by rw [show set.get evidence.validator = some member from known]; rfl⟩
  refine ⟨member, known, proofAttestation pair.first, ?_, proofAttestation pair.second, ?_, listed _ shown.firstSigner,
    listed _ shown.secondSigner, ?_, rounds, ?_⟩
  · exact mem_append_left _ mem_cons_self
  · exact mem_append_right _ mem_cons_self
  · exact (shown.firstChecked.certHeight.trans shown.height).trans (shown.secondChecked.certHeight.trans shown.sameHeight).symm
  · rw [attested_hash shown.firstChecked, attested_hash shown.secondChecked]
    exact shown.conflict

end Reports

def votedProof (round : Round) (appHash : Hash) : Proof :=
  let header := headerAt 2 zeroHash appHash
  ⟨header, zeroHash, ⟨2, round, hashHeader header, utf8 "a", utf8 "aggregate", 1⟩, [], 1, soleValidator.hash⟩

def twoRounds : ConflictProof := ⟨votedProof 0 zeroHash, votedProof 1 otherAppHash⟩
def oneRound : ConflictProof := ⟨votedProof 0 zeroHash, votedProof 0 otherAppHash⟩

def reportOf (pair : ConflictProof) : Evidence := ⟨.finalityConflict, utf8 "a", 2, 0, render (conflictProofValue pair)⟩

def acceptingAll : SignatureVerifier := ⟨fun _ _ _ => true⟩

theorem rounds_evaluated : (verifyConflictEvidence soleValidator (some acceptingAll) (reportOf twoRounds)).isOk = true ∧
      (verifyConflictEvidence soleValidator (some acceptingAll) (reportOf oneRound)).isOk = true ∧
      newConflictEvidence soleValidator twoRounds.first twoRounds.second (utf8 "a") = .ok (reportOf twoRounds) := by
  decide +kernel

theorem decode_votes (first second : Round) (firstApp secondApp : Hash) :
    decodeConflictProof (reportOf ⟨votedProof first firstApp, votedProof second secondApp⟩).proof =
      .ok ⟨votedProof first firstApp, votedProof second secondApp⟩ := by
  have spelled : ∀ round appHash, Spelled (votedProof round appHash) := fun round appHash =>
    ⟨Utf8.valid_ascii (show ((utf8 "vexo").all fun byte => byte < 128) = true by with_unfolding_all decide), by simp [votedProof]⟩
  exact decode_conflict_proof (spelled _ _) (spelled _ _)

theorem two_rounds_reported : AggregateSound (certifiedOnly soleValidator twoRounds) (certifiedVotes soleValidator twoRounds) ∧
      HonestVoter soleValidator (certifiedVotes soleValidator twoRounds) (utf8 "a") ∧
      ReportAccepted .empty soleValidator (certifiedOnly soleValidator twoRounds) (reportOf twoRounds) := by
  obtain ⟨accepted, -, -⟩ := rounds_evaluated
  obtain ⟨violation, checked⟩ := exists_of_is_ok accepted
  refine ⟨certified_only_sound _ _, ?_, .checked violation (report_replayed (decode_votes 0 1 _ _) checked fun _ inside =>
    certified_only_accepts inside)⟩
  rintro member - height round _ _ ⟨one, inOne, -, -, rfl, rfl⟩ ⟨other, inOther, -, -, rounds, rfl⟩
  have listed : reportAttestations twoRounds = [proofAttestation (votedProof 0 zeroHash), proofAttestation (votedProof 1 otherAppHash)] := rfl
  rw [listed, mem_pair] at inOne inOther
  rcases inOne with rfl | rfl <;> rcases inOther with rfl | rfl
  · rfl
  · exact absurd rounds (by decide)
  · exact absurd rounds (by decide)
  · rfl

theorem one_round_exposed : SignedConflict soleValidator oneRound (utf8 "a") ∧
    ∀ signatures Signed, AggregateSound signatures Signed → HonestVoter soleValidator Signed (utf8 "a") →
      ¬ ReportAccepted .empty soleValidator signatures (reportOf oneRound) := by
  obtain ⟨-, accepted, -⟩ := rounds_evaluated
  obtain ⟨violation, checked⟩ := exists_of_is_ok accepted
  have conflict := same_round_conflict (decode_votes 0 0 _ _) (.checked violation checked : ReportAccepted .empty _ _ (reportOf oneRound)) rfl
  exact ⟨conflict, (honest_voter_never_reported_iff .empty soleValidator acceptingAll (reportOf oneRound) oneRound (decode_votes 0 0 _ _)
    (.checked violation checked)).mpr conflict⟩

end Vexo.Consensus
