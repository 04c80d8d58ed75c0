import VexoConsensus.Consensus.Certificates
import VexoConsensus.Consensus.Evidence

namespace Vexo.Consensus

open ByteCodec Checks DataAvailability Finality FairOrdering Json Slashing List

section

def blockMessages (block : Block) : List Bytes := headerPreimage (sealedHeader block) :: commitmentMessages block.txs

variable {config : StateMachineConfig} {machine : StateMachine}

theorem accepted_checked {order : List Hash} {ctx : Context} {proposal : Proposal}
    (accepted : (onProposal config machine order ctx proposal).2 = .ok ()) : checkProposal config machine ctx proposal = .ok () := by
  unfold onProposal at accepted
  cases checked : checkProposal config machine ctx proposal with
  | ok done => rfl
  | error reason =>
    rw [checked] at accepted
    contradiction

theorem checked_available {ctx : Context} {proposal : Proposal}
    (checked : checkProposal config machine ctx proposal = .ok ()) : verify proposal.block.header proposal.block.txs = .ok () := by
  simp only [checkProposal, ok_iff] at checked
  obtain ⟨-, -, _, -, _, -, -, -, -, -, _, available, -⟩ := checked
  cases verified : verify proposal.block.header proposal.block.txs with
  | ok done => rfl
  | error reason =>
    rw [verified] at available
    cases reason <;> contradiction

theorem verified_commitment {header : Header} {txs : List Tx} (verified : verify header txs = .ok ()) :
    (header.consensusHash = zeroHash ∧ txs = []) ∨ (header.consensusHash ≠ zeroHash ∧ commitment txs = header.consensusHash) := by
  unfold verify at verified
  split at verified
  · rename_i zero
    exact .inl ⟨zero, require_ok_iff.mp verified⟩
  · rename_i nonzero
    exact .inr ⟨nonzero, require_ok_iff.mp verified⟩

@[simp] theorem sealed_header_consensus (block : Block) : (sealedHeader block).consensusHash = block.header.consensusHash := by
  unfold sealedHeader
  split <;> rfl

theorem available_txs_bound {first second : Block} (firstVerified : verify first.header first.txs = .ok ())
    (secondVerified : verify second.header second.txs = .ok ()) (firstSized : Encodable first.txs) (secondSized : Encodable second.txs)
    (collisionFree : Sha256.CollisionFree {message | message ∈ commitmentMessages first.txs ∨ message ∈ commitmentMessages second.txs})
    (same : first.header.consensusHash = second.header.consensusHash) : first.txs = second.txs := by
  rcases verified_commitment firstVerified with ⟨zero, empty⟩ | ⟨nonzero, committed⟩
  · rcases verified_commitment secondVerified with ⟨-, empty'⟩ | ⟨nonzero', -⟩
    · rw [empty, empty']
    · exact absurd (same ▸ zero) nonzero'
  · rcases verified_commitment secondVerified with ⟨zero', -⟩ | ⟨-, committed'⟩
    · exact absurd (same.trans zero') nonzero
    · exact commitment_binding firstSized secondSized collisionFree (committed.trans (same.trans committed'.symm))

theorem accepted_blocks_bound (config : StateMachineConfig) (machine machine' : StateMachine) (order order' : List Hash) (ctx ctx' : Context)
    (proposal proposal' : Proposal) (accepted : (onProposal config machine order ctx proposal).2 = .ok ())
    (accepted' : (onProposal config machine' order' ctx' proposal').2 = .ok ()) (sized : Encodable proposal.block.txs)
    (sized' : Encodable proposal'.block.txs)
    (collisionFree : Sha256.CollisionFree {message | message ∈ blockMessages proposal.block ∨ message ∈ blockMessages proposal'.block})
    (same : hashBlock proposal.block = hashBlock proposal'.block) :
    proposal.block.txs = proposal'.block.txs ∧ sealedHeader proposal.block = sealedHeader proposal'.block := by
  have headers : sealedHeader proposal.block = sealedHeader proposal'.block :=
    header_preimage_injective (collisionFree _ (.inl List.mem_cons_self) _ (.inr List.mem_cons_self) same)
  have consensus := congrArg Header.consensusHash headers
  rw [sealed_header_consensus, sealed_header_consensus] at consensus
  have narrower := @Sha256.collision_free_mono
    {message | message ∈ commitmentMessages proposal.block.txs ∨ message ∈ commitmentMessages proposal'.block.txs} _
    (fun message => Or.imp (List.mem_cons_of_mem _) (List.mem_cons_of_mem _)) collisionFree
  refine ⟨?_, headers⟩
  exact available_txs_bound (checked_available (accepted_checked accepted)) (checked_available (accepted_checked accepted')) sized sized'
    narrower consensus

-- The transaction root the block hash fills in is the header's own, or there is nothing to fill in.
theorem block_hash_is_header_hash_iff (block : Block)
    (collisionFree : Sha256.CollisionFree {headerPreimage block.header, headerPreimage (sealedHeader block)})
    (rooted : block.txs ≠ [] → txRoot block.txs ≠ zeroHash) :
    hashBlock block = Finality.hashHeader block.header ↔ block.header.txRoot ≠ zeroHash ∨ block.txs = [] := by
  constructor
  · intro same
    have header : sealedHeader block = block.header :=
      header_preimage_injective (collisionFree _ (Set.mem_insert_of_mem _ rfl) _ (Set.mem_insert _ _) same)
    by_cases zero : block.header.txRoot = zeroHash
    · right
      by_contra present
      have root := congrArg Header.txRoot header
      rw [sealedHeader, if_pos zero, zero] at root
      exact rooted present root
    · exact .inl zero
  · intro unfilled
    have header : sealedHeader block = block.header := by
      by_cases zero : block.header.txRoot = zeroHash
      · have empty := unfilled.resolve_left fun nonzero => nonzero zero
        rw [sealedHeader, if_pos zero, txRoot, if_pos empty, ← zero]
      · rw [sealedHeader, if_neg zero]
    rw [hashBlock, header]
    rfl

def oneTx : List Tx := [utf8 "tx"]

variable (root : Hash)

def rootedBlock : Block :=
  ⟨⟨utf8 "vexo", 1, 0, zeroHash, zeroHash, (⟨[plainValidator]⟩ : SetSnapshot).hash, commitment oneTx, root⟩, oneTx⟩

def rootedProposal : Proposal := ⟨rootedBlock root, 0, plainValidator.id, zeroQC, plainValidator.publicKey⟩

def acceptsRoot : Except Err Unit :=
  (onProposal echoConfig (newStateMachine echoConfig ⟨[plainValidator]⟩) [] Context.background (rootedProposal root)).2

theorem roots_evaluated : acceptsRoot zeroHash = .ok () ∧ acceptsRoot (txRoot oneTx) = .ok () ∧ txRoot oneTx ≠ zeroHash ∧
    (∀ first ∈ blockMessages (rootedBlock zeroHash), ∀ second ∈ blockMessages (rootedBlock zeroHash),
      Sha256.sum256 first = Sha256.sum256 second → first = second) ∧
    hashBlock (rootedBlock zeroHash) ≠ Finality.hashHeader (rootedBlock zeroHash).header := by
  decide +kernel

theorem unrooted_block_hash_differs :
    acceptsRoot zeroHash = .ok () ∧ hashBlock (rootedBlock zeroHash) ≠ Finality.hashHeader (rootedBlock zeroHash).header := by
  obtain ⟨accepted, -, -, -, differ⟩ := roots_evaluated
  exact ⟨accepted, differ⟩

theorem filled_root_block_bound : hashBlock (rootedBlock zeroHash) = hashBlock (rootedBlock (txRoot oneTx)) ∧ zeroHash ≠ txRoot oneTx ∧
      (rootedBlock zeroHash).txs = (rootedBlock (txRoot oneTx)).txs ∧
      sealedHeader (rootedBlock zeroHash) = sealedHeader (rootedBlock (txRoot oneTx)) := by
  obtain ⟨accepted, accepted', rooted, distinct, -⟩ := roots_evaluated
  have headers : sealedHeader (rootedBlock zeroHash) = sealedHeader (rootedBlock (txRoot oneTx)) := by
    have missing : (rootedBlock zeroHash).header.txRoot = zeroHash := rfl
    have filled : (rootedBlock (txRoot oneTx)).header.txRoot ≠ zeroHash := rooted
    rw [sealedHeader, sealedHeader, if_pos missing, if_neg filled]
    simp only [rootedBlock]
  have messages : blockMessages (rootedBlock zeroHash) = blockMessages (rootedBlock (txRoot oneTx)) := by
    rw [blockMessages, headers]
    rfl
  have same : hashBlock (rootedBlock zeroHash) = hashBlock (rootedBlock (txRoot oneTx)) := congrArg hashHeader headers
  have sized : DataAvailability.Encodable oneTx := by
    unfold DataAvailability.Encodable
    with_unfolding_all decide
  refine ⟨same, rooted.symm, accepted_blocks_bound echoConfig _ _ [] [] .background .background (rootedProposal zeroHash)
    (rootedProposal (txRoot oneTx)) accepted accepted' sized sized ?_ same⟩
  intro first inside second inside'
  refine distinct first (inside.elim id fun later => ?_) second (inside'.elim id fun later => ?_) <;> exact messages ▸ later

theorem rooted_block_hash_agrees : acceptsRoot (txRoot oneTx) = .ok () ∧
    hashBlock (rootedBlock (txRoot oneTx)) = Finality.hashHeader (rootedBlock (txRoot oneTx)).header := by
  obtain ⟨-, accepted, rooted, -, -⟩ := roots_evaluated
  have filled : (rootedBlock (txRoot oneTx)).header.txRoot ≠ zeroHash := rooted
  refine ⟨accepted, (block_hash_is_header_hash_iff (rootedBlock (txRoot oneTx)) ?_ fun _ => rooted).mpr (.inl rooted)⟩
  rw [sealedHeader, if_neg filled, Set.pair_eq_singleton]
  intro first inside second inside' _
  rw [Set.mem_singleton_iff.mp inside, Set.mem_singleton_iff.mp inside']

section Builder

variable (config : StateMachineConfig) (machine : StateMachine)

-- The source compares the two certificates once more at the end and returns the locked one either way.
def proposalQC : QuorumCert :=
  let highQC := machine.blockTree.highQC
  if highQC.height = 0 then machine.lockedQC
  else if machine.lockedQC.height = 0 then highQC
  else if machine.blockTree.extends highQC.blockHash machine.lockedQC.blockHash then highQC
  else machine.lockedQC

def filledHeader (header : Header) (justifyQC : QuorumCert) (txs : List Tx) : Header :=
  { header with
    chainID := config.chainID
    validatorSetHash := machine.validatorSet.hash
    previousBlockHash := if header.previousBlockHash = zeroHash ∧ justifyQC.height > 0 then justifyQC.blockHash
      else header.previousBlockHash
    txRoot := txRoot txs }

def filledBlock (block : Block) (justifyQC : QuorumCert) : Block :=
  let txs := sortTxsWithSalt config.txPayload block.txs (orderingSalt config block.header.height)
  let filled : Block := ⟨filledHeader config machine block.header justifyQC txs, txs⟩
  if block.header.consensusHash = zeroHash ∧ txs ≠ [] then attachCommitment filled else filled

def createProposal (block : Block) (round : Round) (proposer : ValidatorID) (justifyQC : QuorumCert) : Except Err Proposal := do
  require ((machine.validatorSet.get proposer).isSome) .unknownValidator
  validateProposer config machine block.header.height round proposer
  let justifyQC := if justifyQC.height = 0 then proposalQC machine else justifyQC
  return ⟨filledBlock config machine block justifyQC, round, proposer, justifyQC, []⟩

-- signConsensusProposal of the node, for a signer that holds one key.
def signConsensusProposal (sign : Bytes → Signature) (proposal : Proposal) : Except Err Proposal := do
  let message ← Crypto.domainMessage Crypto.domainConsensusProposal (proposalSignBytes proposal)
  return { proposal with signature := sign message }

end Builder

section Filled

variable (config : StateMachineConfig) (machine : StateMachine) (block : Block) (justifyQC : QuorumCert)

@[simp] theorem filled_txs : (filledBlock config machine block justifyQC).txs =
    sortTxsWithSalt config.txPayload block.txs (orderingSalt config block.header.height) := by
  simp only [filledBlock]
  split <;> rfl

@[simp] theorem filled_height : (filledBlock config machine block justifyQC).header.height = block.header.height := by
  simp only [filledBlock]
  split <;> rfl

@[simp] theorem filled_chain_id : (filledBlock config machine block justifyQC).header.chainID = config.chainID := by
  simp only [filledBlock]
  split <;> rfl

@[simp] theorem filled_validator_set_hash : (filledBlock config machine block justifyQC).header.validatorSetHash = machine.validatorSet.hash := by
  simp only [filledBlock]
  split <;> rfl

theorem filled_parent (unset : block.header.previousBlockHash = zeroHash) (certified : justifyQC.height > 0) :
    (filledBlock config machine block justifyQC).header.previousBlockHash = justifyQC.blockHash := by
  simp only [filledBlock]
  split <;> simp [filledHeader, attachCommitment, unset, certified]

theorem filled_available (unset : block.header.consensusHash = zeroHash)
    (committed : block.txs ≠ [] → commitment (filledBlock config machine block justifyQC).txs ≠ zeroHash) :
    verify (filledBlock config machine block justifyQC).header (filledBlock config machine block justifyQC).txs = .ok () := by
  have sorted := sort_perm config.txPayload block.txs (orderingSalt config block.header.height)
  rw [filled_txs] at committed ⊢
  by_cases empty : sortTxsWithSalt config.txPayload block.txs (orderingSalt config block.header.height) = []
  · simp [filledBlock, filledHeader, verify, unset, empty, require]
  · have present : block.txs ≠ [] := fun none => empty (List.perm_nil.mp (none ▸ sorted))
    simp [filledBlock, attachCommitment, verify, unset, empty, committed present, require]

end Filled

theorem proposal_qc_cases (machine : StateMachine) : proposalQC machine = machine.lockedQC ∨
      ((proposalQC machine).height ≠ 0 ∧ (machine.lockedQC.height = 0 ∨
        machine.blockTree.extends (proposalQC machine).blockHash machine.lockedQC.blockHash = true)) := by
  simp only [proposalQC]
  by_cases unseen : machine.blockTree.highQC.height = 0
  · exact .inl (if_pos unseen)
  · rw [if_neg unseen]
    split
    · next unlocked =>
      exact .inr ⟨unseen, .inl unlocked⟩
    · by_cases extending : machine.blockTree.extends machine.blockTree.highQC.blockHash machine.lockedQC.blockHash = true
      · rw [if_pos extending]
        exact .inr ⟨unseen, .inr extending⟩
      · exact .inl (if_neg extending)

theorem proposal_qc_safe {machine : StateMachine} {proposal : Proposal} (justified : proposal.justifyQC = proposalQC machine)
    (parent : (proposalQC machine).height > 0 → proposal.block.header.previousBlockHash = (proposalQC machine).blockHash) :
    isSafeProposal machine proposal = true := by
  simp only [isSafeProposal, Bool.or_eq_true, decide_eq_true_eq]
  rcases proposal_qc_cases machine with locked | ⟨certified, unlocked | extending⟩
  · rw [justified, locked]
    exact .inl (.inl (.inr (UInt64.le_refl _)))
  · exact .inl (.inl (.inl unlocked))
  · rw [parent (UInt64.pos_iff_ne_zero.mpr certified)]
    exact .inr extending

theorem commit_rules_error (hashes : List Hash) (machine : StateMachine) :
    (applyCommitRules machine hashes).2 = .ok () ∨ (applyCommitRules machine hashes).2 = .error .conflictingCommit := by
  induction hashes generalizing machine with
  | nil => exact .inl rfl
  | cons blockHash rest ih =>
    cases found : machine.blockTree.commitCandidate blockHash with
    | none =>
      simp only [applyCommitRules, found]
      exact ih machine
    | some candidate =>
      have outcome := apply_commit_rule_outcome machine candidate
      simp only [applyCommitRules, found]
      generalize applyCommitRule machine candidate = result at outcome ⊢
      cases outcome with
      | unsatisfied never | known decision decides member => exact ih machine
      | conflict decision decides existing looked different => exact .inr rfl
      | recorded decision decides next effect => exact ih next

variable {config : StateMachineConfig}

theorem on_proposal_taken {machine : StateMachine} {order : List Hash} {ctx : Context} {proposal : Proposal}
    (checked : checkProposal config machine ctx proposal = .ok ())
    (fresh : ¬ (proposal.block.header.height < machine.status.height ∨
      (proposal.block.header.height = machine.status.height ∧ proposal.round < machine.status.round)))
    (safe : isSafeProposal machine proposal = true) :
    (onProposal config machine order ctx proposal).2 = .ok () ∨ (onProposal config machine order ctx proposal).2 = .error .staleProposal ∨
      (onProposal config machine order ctx proposal).2 = .error .conflictingCommit := by
  have settled : ∀ next : StateMachine, (applyKnownCommitRules next order).2 = .ok () ∨
      (applyKnownCommitRules next order).2 = .error .conflictingCommit := fun next => commit_rules_error _ next
  simp only [onProposal, checked, if_neg fresh, safe, if_true]
  split
  · rcases settled machine with done | conflict <;> split <;> simp_all
  · rcases settled (insertBlock config machine proposal) with done | conflict <;> split <;> simp_all

def SignsFor (config : StateMachineConfig) (publicKey : PublicKey) (sign : Bytes → Signature) : Prop :=
  ∀ verify, config.signatures = some verify → ∀ message, sign message ≠ [] ∧ verify publicKey message (sign message) = true

theorem signed_proposal_verified {machine : StateMachine} {proposal signed : Proposal} {member : Validator}
    {sign : Bytes → Signature} (known : machine.validatorSet.get proposal.proposer = some member)
    (signs : SignsFor config member.publicKey sign) (done : signConsensusProposal sign proposal = .ok signed) :
    verifyProposalSignature config machine signed = .ok () := by
  simp only [signConsensusProposal, bind_ok_iff] at done
  obtain ⟨message, encoded, returned⟩ := done
  cases returned
  simp only [verifyProposalSignature, verifySignature]
  cases configured : config.signatures with
  | none => rfl
  | some verify =>
    obtain ⟨present, verified⟩ := signs verify configured message
    have encoded' : Crypto.domainMessage Crypto.domainConsensusProposal
        (proposalSignBytes { proposal with signature := sign message }) = .ok message := encoded
    simp only [known, encoded', bind_ok_iff, require_ok_iff]
    exact ⟨(), present, message, rfl, verified⟩

theorem scheduled_proposer_valid {machine : StateMachine} {height : Height} {round : Round} {proposer : ValidatorID}
    (scheduled : config.enforceProposerSelection = true → selectProposer machine.validatorSet.list height round = some proposer) :
    validateProposer config machine height round proposer = .ok () := by
  unfold validateProposer
  by_cases enforced : config.enforceProposerSelection = true
  · simp [enforced, scheduled enforced, require]
  · simp [enforced]

theorem sign_proposal_ok (sign : Bytes → Signature) (proposal : Proposal) :
    ∃ signature, signConsensusProposal sign proposal = .ok { proposal with signature := signature } := by
  have named : Crypto.domainConsensusProposal ≠ [] := by with_unfolding_all decide
  simp only [signConsensusProposal, Crypto.domainMessage, if_neg named]
  exact ⟨_, rfl⟩

theorem own_proposal_accepted (config : StateMachineConfig) (machine : StateMachine) (order : List Hash) (ctx : Context) (block : Block)
    (round : Round) (proposer : ValidatorID) (member : Validator) (justifyQC : QuorumCert) (sign : Bytes → Signature)
    (running : ctx.done = false) (known : machine.validatorSet.get proposer = some member)
    (scheduled : config.enforceProposerSelection = true → selectProposer machine.validatorSet.list block.header.height round = some proposer)
    (signs : SignsFor config member.publicKey sign) (positive : 1 ≤ block.header.height)
    (above : (proposalQC machine).height ≤ block.header.height)
    (fresh : ¬ (block.header.height < machine.status.height ∨ (block.header.height = machine.status.height ∧ round < machine.status.round)))
    (noParent : block.header.previousBlockHash = zeroHash) (noCommitment : block.header.consensusHash = zeroHash)
    (noJustify : justifyQC.height = 0)
    (committed : block.txs ≠ [] → commitment (sortTxsWithSalt config.txPayload block.txs (orderingSalt config block.header.height)) ≠ zeroHash) :
    ∃ proposal signed, createProposal config machine block round proposer justifyQC = .ok proposal ∧
      signConsensusProposal sign proposal = .ok signed ∧
      ((onProposal config machine order ctx signed).2 = .ok () ∨ (onProposal config machine order ctx signed).2 = .error .staleProposal ∨
        (onProposal config machine order ctx signed).2 = .error .conflictingCommit) := by
  have validated := scheduled_proposer_valid scheduled
  let proposal : Proposal := ⟨filledBlock config machine block (proposalQC machine), round, proposer, proposalQC machine, []⟩
  have created : createProposal config machine block round proposer justifyQC = .ok proposal := by
    simp only [createProposal, bind_ok_iff, require_ok_iff]
    exact ⟨(), by simp [known], (), validated, by rw [if_pos noJustify]; rfl⟩
  obtain ⟨signature, signed⟩ := sign_proposal_ok sign proposal
  have verified := @signed_proposal_verified config machine _ _ _ _ known signs signed
  have available := filled_available config machine block (proposalQC machine) noCommitment (by simpa using committed)
  have parent := filled_parent config machine block (proposalQC machine) noParent
  have checked : checkProposal config machine ctx { proposal with signature := signature } = .ok () := by
    simp only [checkProposal, ok_iff]
    refine ⟨running, by simp [proposal, known], (), by simpa [proposal] using validated, (), verified, ?_⟩
    refine ⟨filled_chain_id .., ?_, filled_validator_set_hash .., ?_, (), ?_, ?_, fun certified => (parent certified).symm⟩
    · simp only [proposal, filled_height]
      exact UInt64.pos_iff_ne_zero.mp positive
    · simp only [proposal, filled_txs, filled_height]
      exact sort_ordered _ _ _
    · simp only [proposal, available, invalidProposalOf]
    · intro _
      simpa [proposal] using above
  refine ⟨proposal, _, created, signed, on_proposal_taken checked ?_ (proposal_qc_safe rfl parent)⟩
  simpa [proposal] using fresh

def secondBlock : Block := ⟨⟨[], 2, 0, zeroHash, zeroHash, zeroHash, zeroHash, zeroHash⟩, oneTx⟩

theorem second_height_evaluated :
    joined.validatorSet.get plainValidator.id = some plainValidator ∧ (proposalQC joined).height = 1 ∧ joined.lockedQC.height = 1 ∧
      joined.status.height = 1 ∧ commitment (sortTxsWithSalt echoConfig.txPayload oneTx (orderingSalt echoConfig 2)) ≠ zeroHash := by
  decide +kernel

-- After the block of height one is certified and locked, its proposer's next proposal is taken.
theorem second_proposal_accepted : joined.lockedQC.height = 1 ∧
    ∃ proposal signed, createProposal echoConfig joined secondBlock 0 plainValidator.id zeroQC = .ok proposal ∧
      signConsensusProposal (fun _ => plainValidator.publicKey) proposal = .ok signed ∧
      ((onProposal echoConfig joined [] Context.background signed).2 = .ok () ∨
        (onProposal echoConfig joined [] Context.background signed).2 = .error .staleProposal ∨
        (onProposal echoConfig joined [] Context.background signed).2 = .error .conflictingCommit) := by
  obtain ⟨known, picked, locked, height, committed⟩ := second_height_evaluated
  refine ⟨locked, own_proposal_accepted echoConfig joined [] .background secondBlock 0 plainValidator.id plainValidator zeroQC
    (fun _ => plainValidator.publicKey) rfl known (fun enforced => Bool.noConfusion enforced) ?_ (by decide) ?_ ?_ rfl rfl rfl
    fun _ => committed⟩
  · rintro verify ⟨⟩ message
    have present : plainValidator.publicKey ≠ [] := by with_unfolding_all decide
    exact ⟨present, by simp [echoVerify, present]⟩
  · rw [picked]
    decide
  · rw [height]
    decide

end

-- What a node knows of a height when it builds the context for a report: its hashes and its time, no bound proofs.
def localContext (appHash txResultsHash : Hash) (time : Int64) : InvalidProposalVerificationContext :=
  { InvalidProposalVerificationContext.zero with
    expectedAppHash := appHash, expectedTxResultsHash := txResultsHash, expectedTimeUnixNano := time }

-- Everything that is hashed for the block hash, the transaction root and the data commitment of a block.
def hashedFor (block : Block) : List Bytes := encodeBody block.txs :: blockMessages block

section Binding

theorem proposal_sign_bytes_bind {first second : Proposal} (same : proposalSignBytes first = proposalSignBytes second) :
    first.proposer = second.proposer ∧ hashBlock first.block = hashBlock second.block := by
  have width : ∀ cert : QuorumCert, (appendQuorumCert cert).length = 88 := by
    intro cert
    simp [appendQuorumCert, cert.blockHash.size, (Sha256.sum256 cert.signers).size]
  unfold proposalSignBytes at same
  obtain ⟨same, -⟩ := append_inj' same (by rw [width, width])
  obtain ⟨same, hashes⟩ := append_inj' same (by rw [Sha256.Digest.size, Sha256.Digest.size])
  obtain ⟨-, proposers⟩ := append_inj same (by simp)
  exact ⟨proposers, digest_bytes_inj hashes⟩

variable {hashed : Set Bytes} (safe : SafeHashes hashed)
include safe

theorem ranked_ne_zero {rank : Nat} {node : Hash} (ranked : Ranked hashed rank node) : node ≠ zeroHash := by
  cases ranked with
  | leaf chunk inside | parent both inside => exact safe.neverZero _ inside

theorem commitment_ne_zero {txs : List Tx} (inside : ∀ message ∈ commitmentMessages txs, message ∈ hashed) : commitment txs ≠ zeroHash := by
  have present : leavesOf txs ≠ [] := by simp [leavesOf, chunksOf, splitChunks]
  have leaves : ∀ node ∈ leavesOf txs, Ranked hashed 0 node := by
    intro node member
    obtain ⟨chunk, listed, rfl⟩ := mem_map.mp member
    exact .leaf chunk (inside _ (leaf_inside listed))
  obtain ⟨rank, ranked, -⟩ := MerkleLevels.climb_ranked (parent_separated safe.collisionFree) present (Nat.le_refl _) leaves
    fun both listed => inside _ (mem_append_right _ (mem_map_of_mem listed))
  rw [← climb_eq] at ranked
  exact ranked_ne_zero safe ranked

theorem tx_root_zero_iff {txs : List Tx} (inside : encodeBody txs ∈ hashed) : txRoot txs = zeroHash ↔ txs = [] := by
  unfold txRoot
  by_cases empty : txs = []
  · simp [empty]
  · rw [if_neg empty]
    exact ⟨fun zero => absurd zero (safe.neverZero _ inside), fun none => absurd none empty⟩

theorem same_sealed_header {first second : Block} (firstInside : ∀ message ∈ hashedFor first, message ∈ hashed)
    (secondInside : ∀ message ∈ hashedFor second, message ∈ hashed) (same : hashBlock first = hashBlock second) :
    sealedHeader first = sealedHeader second :=
  header_preimage_injective (safe.collisionFree _ (firstInside _ (by simp [hashedFor, blockMessages])) _
    (secondInside _ (by simp [hashedFor, blockMessages])) same)

end Binding

section Reports

def reportedBlock (evidence : Evidence) : Option Block :=
  match evidence.type with
  | .invalidProposal => (decodeInvalidProposalProof evidence.proof).toOption.map fun decoded => decoded.proposal.block
  | .unavailableData => (decodeUnavailableDataProof evidence.proof).toOption.map fun decoded => decoded.proposal.block
  | _ => none

-- A report of any invalid-proposal or unavailable-data kind against this proposal's proposer, for its height and round.
structure Reports (proposal : Proposal) (evidence : Evidence) : Prop where
  kind : evidence.type = .invalidProposal ∨ evidence.type = .unavailableData
  validator : evidence.validator = proposal.proposer
  height : evidence.height = proposal.block.header.height
  round : evidence.round = proposal.round

variable (verifier : EvidenceVerifier)

def signatureValid (key : PublicKey) (proposal : Proposal) : Bool :=
  verifyDomainSignature verifier key Crypto.domainConsensusProposal (proposalSignBytes proposal) proposal.signature

structure Shown (key : PublicKey) (evidence : Evidence) (proposal : Proposal) : Prop where
  reported : reportedBlock evidence = some proposal.block
  height : proposal.block.header.height = evidence.height
  round : proposal.round = evidence.round
  signed : signatureValid verifier key proposal = true
  fails : (verify proposal.block.header proposal.block.txs = .error .commitmentMismatch ∧ SpelledProposal proposal) ∨
    verify proposal.block.header proposal.block.txs = .error .missingData

variable {evidence : Evidence} {set : SetSnapshot} {member : Validator} {verifier : EvidenceVerifier} {context : InvalidProposalVerificationContext}

theorem signature_shown {proposal : Proposal} (accepted : verifyProposalEvidenceSignature proposal member (some verifier) = .ok ()) :
    signatureValid verifier member.publicKey proposal = true :=
  require_ok_iff.mp accepted

theorem failure_shown {expected : Err} {outcome : Except Err Unit} (accepted : requireFailure expected outcome = .ok ()) :
    outcome = .error expected := by
  cases outcome with
  | ok done => contradiction
  | error reason =>
    by_cases same : reason = expected
    · rw [same]
    · simp [requireFailure, same] at accepted

theorem unbound_refused {decoded : InvalidProposalProof} (unbound : context.contextProofHash = zeroHash)
    (needed : invalidProposalReasonRequiresContext .empty decoded.reason = true)
    (accepted : verifyInvalidProposalBoundContext .empty decoded context = .ok ()) : False := by
  rw [verifyInvalidProposalBoundContext, if_pos needed, bind_ok_iff] at accepted
  obtain ⟨_, bound, -⟩ := accepted
  exact (require_ok_iff.mp bound).2 unbound

theorem proposal_report_shown (unbound : context.contextProofHash = zeroHash) (kind : evidence.type = .invalidProposal)
    (accepted : verifyProposalEvidence .empty evidence set member (some verifier) context = .ok ()) :
    ∃ proposal, Shown verifier member.publicKey evidence proposal := by
  simp only [verifyProposalEvidence, bind_ok_iff] at accepted
  obtain ⟨decoded, read, accepted⟩ := accepted
  have reported : reportedBlock evidence = some decoded.proposal.block := by
    simp only [reportedBlock, kind, read]
    rfl
  have still : (expectingSet set context).contextProofHash = zeroHash := by
    unfold expectingSet
    split <;> exact unbound
  have parts : ∀ {inside : InvalidProposalVerificationContext}, verifyInvalidProposalEvidenceWithContext .empty evidence inside = .ok () →
      verifyInvalidProposalBoundContext .empty decoded inside = .ok () ∧ decoded.proposal.block.header.height = evidence.height ∧
        decoded.proposal.round = evidence.round ∧ verifyInvalidProposalByReasonWithContext .empty decoded inside = .ok () := by
    intro inside verified
    simp only [verifyInvalidProposalEvidenceWithContext, verifyInvalidProposalEnvelope, ok_iff] at verified
    obtain ⟨-, again, read', ⟨-, -, height, round⟩, ⟨⟩, bound, ⟨⟩, -, ⟨⟩, -, ⟨⟩, -, reason⟩ := verified
    cases read.symm.trans read'
    exact ⟨bound, height, round, reason⟩
  have refused : ∀ {inside : InvalidProposalVerificationContext}, inside.contextProofHash = zeroHash →
      invalidProposalReasonRequiresContext .empty decoded.reason = true →
      ¬ verifyInvalidProposalEvidenceWithContext .empty evidence inside = .ok () :=
    fun unbound needed verified => unbound_refused unbound needed (parts verified).1
  cases reason : decoded.reason with
  | daMismatch =>
    simp only [reason, bind_ok_iff] at accepted
    obtain ⟨⟨⟩, checked, signed⟩ := accepted
    obtain ⟨-, height, round, failing⟩ := parts checked
    simp only [verifyInvalidProposalByReasonWithContext, reason, bind_ok_iff] at failing
    obtain ⟨⟨⟩, -, failing⟩ := failing
    exact ⟨decoded.proposal, reported, height, round, signature_shown signed, .inl ⟨failure_shown failing, decoded_invalid_spelled read⟩⟩
  | missingData =>
    simp only [reason, bind_ok_iff] at accepted
    obtain ⟨⟨⟩, checked, signed⟩ := accepted
    obtain ⟨-, height, round, failing⟩ := parts checked
    simp only [verifyInvalidProposalByReasonWithContext, reason, bind_ok_iff] at failing
    obtain ⟨⟨⟩, -, failing⟩ := failing
    exact ⟨decoded.proposal, reported, height, round, signature_shown signed, .inr (failure_shown failing)⟩
  | validatorSetHash =>
    simp only [reason, bind_ok_iff] at accepted
    obtain ⟨⟨⟩, checked, signed⟩ := accepted
    exact absurd checked (refused still (by rw [reason]; rfl))
  | appHash | txValidity | timestamp =>
    simp only [reason, bind_ok_iff] at accepted
    obtain ⟨⟨⟩, checked, signed⟩ := accepted
    exact absurd checked (refused unbound (by rw [reason]; rfl))
  | other name unlisted =>
    simp only [reason, bind_ok_iff, require_ok_iff] at accepted
    obtain ⟨_, absent, -⟩ := accepted
    contradiction

theorem unavailable_report_shown (kind : evidence.type = .unavailableData) {decoded : UnavailableDataProof}
    (read : decodeUnavailableDataProof evidence.proof = .ok decoded) (checked : verifyUnavailableDataEvidence evidence = .ok ())
    (signed : verifyProposalEvidenceSignature decoded.proposal member (some verifier) = .ok ()) :
    Shown verifier member.publicKey evidence decoded.proposal := by
  simp only [verifyUnavailableDataEvidence, ok_iff] at checked
  obtain ⟨-, again, read', ⟨-, -, height, round⟩, -, failing⟩ := checked
  cases read.symm.trans read'
  refine ⟨?_, height, round, signature_shown signed, .inr failing⟩
  simp only [reportedBlock, kind, read]
  rfl

theorem report_shown {proposal : Proposal} (reports : Reports proposal evidence) (unbound : context.contextProofHash = zeroHash)
    (accepted : verifyConsensusEvidence .empty evidence set member (some verifier) context = .ok ()) :
    ∃ reported, Shown verifier member.publicKey evidence reported := by
  rcases reports.kind with kind | kind
  · rw [verifyConsensusEvidence, kind] at accepted
    exact proposal_report_shown unbound kind accepted
  · simp only [verifyConsensusEvidence, kind, bind_ok_iff] at accepted
    obtain ⟨⟨⟩, checked, decoded, read, signed⟩ := accepted
    exact ⟨decoded.proposal, unavailable_report_shown kind read checked signed⟩

end Reports

section Honest

structure Built (proposal : Proposal) : Prop where
  root : proposal.block.header.txRoot = txRoot proposal.block.txs
  committed : proposal.block.header.consensusHash = if proposal.block.txs = [] then zeroHash else commitment proposal.block.txs

variable {proposal : Proposal}

theorem created_built {config : StateMachineConfig} {machine : StateMachine} {block : Block} {round : Round} {proposer : ValidatorID}
    {justifyQC : QuorumCert} {unsigned : Proposal} {sign : Bytes → Signature}
    (created : createProposal config machine block round proposer justifyQC = .ok unsigned)
    (signed : signConsensusProposal sign unsigned = .ok proposal) (noCommitment : block.header.consensusHash = zeroHash) :
    Built proposal ∧ proposal.block.header.chainID = config.chainID ∧ proposal.proposer = proposer ∧
      proposal.block.txs = sortTxsWithSalt config.txPayload block.txs (orderingSalt config block.header.height) := by
  simp only [createProposal, ok_iff] at created
  obtain ⟨-, ⟨⟩, -, made⟩ := created
  cases made
  simp only [signConsensusProposal, bind_ok_iff] at signed
  obtain ⟨message, -, made⟩ := signed
  cases made
  refine ⟨⟨?_, ?_⟩, filled_chain_id .., rfl, filled_txs ..⟩
  · simp only [filledBlock]
    split <;> rfl
  · simp only [filledBlock, noCommitment, true_and]
    by_cases empty : sortTxsWithSalt config.txPayload block.txs (orderingSalt config block.header.height) = []
    · simp [empty, filledHeader, noCommitment]
    · simp [empty, attachCommitment]

theorem built_sealed (built : Built proposal) : sealedHeader proposal.block = proposal.block.header := by
  unfold sealedHeader
  rw [← built.root]
  exact ite_self _

@[simp] theorem sealed_header_chain (block : Block) : (sealedHeader block).chainID = block.header.chainID := by
  unfold sealedHeader
  split <;> rfl

def SignedOnce (verifier : EvidenceVerifier) (key : PublicKey) (proposal : Proposal) : Prop :=
  ∀ other : Proposal, other.block.header.height = proposal.block.header.height → other.round = proposal.round →
    signatureValid verifier key other = true → proposalSignBytes other = proposalSignBytes proposal

-- The signature covers the transaction root, not the transactions: without them the commitment no longer fits.
def emptied (proposal : Proposal) : Proposal := { proposal with block := ⟨proposal.block.header, []⟩ }

def framingReport (proposal : Proposal) : Evidence :=
  ⟨.invalidProposal, proposal.proposer, proposal.block.header.height, proposal.round,
    render (dataAvailabilityValue (emptied proposal) (utf8 "da_mismatch") (commitment []) proposal.block.header.consensusHash)⟩

theorem framing_decoded (spelled : SpelledProposal proposal) : decodeInvalidProposalProof (framingReport proposal).proof =
      .ok ⟨emptied proposal, .daMismatch, commitment [], proposal.block.header.consensusHash, zeroHash, none, none, 0, 0, []⟩ := by
  have ascii : Utf8.Valid (utf8 "da_mismatch") := Utf8.valid_ascii (by with_unfolding_all decide)
  have named : InvalidProposalReason.ofName (utf8 "da_mismatch") = .daMismatch := by with_unfolding_all decide
  rw [← named]
  exact decode_data_availability (show Utf8.Valid (emptied proposal).block.header.chainID from spelled.1)
    (show Utf8.Valid (emptied proposal).proposer from spelled.2) ascii (commitment []) proposal.block.header.consensusHash

theorem framing_reported (spelled : SpelledProposal proposal) : reportedBlock (framingReport proposal) = some (emptied proposal).block := by
  have read := framing_decoded spelled
  simp only [reportedBlock, framingReport] at read ⊢
  rw [read]
  rfl

variable {hashed : Set Bytes} (safe : SafeHashes hashed) {proposal : Proposal} (built : Built proposal)
  (own : ∀ message ∈ hashedFor proposal.block, message ∈ hashed)

include safe built own

theorem built_committed (filled : proposal.block.txs ≠ []) : proposal.block.header.consensusHash ≠ zeroHash := by
  rw [built.committed, if_neg filled]
  exact commitment_ne_zero safe fun message listed => own message (by simp [hashedFor, blockMessages, listed])

section

variable {reported : Proposal} (inside : ∀ message ∈ hashedFor reported.block, message ∈ hashed)
include inside
variable (same : proposalSignBytes reported = proposalSignBytes proposal)
include same

theorem reported_header : sealedHeader reported.block = proposal.block.header := by
  rw [same_sealed_header safe inside own (proposal_sign_bytes_bind same).2, built_sealed built]

theorem mismatch_needs_txs (fails : verify reported.block.header reported.block.txs = .error .commitmentMismatch) : proposal.block.txs ≠ [] := by
  intro empty
  have consensus := congrArg Header.consensusHash (reported_header safe built own inside same)
  rw [sealed_header_consensus, built.committed, if_pos empty] at consensus
  rw [verify, if_pos consensus, require_error_iff] at fails
  exact Err.noConfusion fails.2

theorem missing_data_impossible (fails : verify reported.block.header reported.block.txs = .error .missingData) : False := by
  have header := reported_header safe built own inside same
  have consensus := congrArg Header.consensusHash header
  rw [sealed_header_consensus] at consensus
  have unset : reported.block.header.consensusHash = zeroHash := by
    by_contra set
    rw [verify, if_neg set, require_error_iff] at fails
    exact Err.noConfusion fails.2
  have present : reported.block.txs ≠ [] := by
    rw [verify, if_pos unset, require_error_iff] at fails
    exact fails.1
  have empty : proposal.block.txs = [] := by
    by_contra filled
    exact built_committed safe built own filled (consensus.symm.trans unset)
  have root := congrArg Header.txRoot header
  rw [built.root, empty, txRoot, if_pos rfl] at root
  by_cases unfilled : reported.block.header.txRoot = zeroHash
  · rw [sealedHeader, if_pos unfilled] at root
    exact present ((tx_root_zero_iff safe (inside _ mem_cons_self)).mp root)
  · rw [sealedHeader, if_neg unfilled] at root
    exact unfilled root

end

theorem emptied_sign_bytes (filled : proposal.block.txs ≠ []) : proposalSignBytes (emptied proposal) = proposalSignBytes proposal := by
  have rooted : proposal.block.header.txRoot ≠ zeroHash := by
    rw [built.root, Ne, tx_root_zero_iff safe (own _ mem_cons_self)]
    exact filled
  have header : hashBlock (emptied proposal).block = hashBlock proposal.block := by
    rw [hashBlock, hashBlock, built_sealed built, sealedHeader, if_neg (show (emptied proposal).block.header.txRoot ≠ zeroHash from rooted)]
    rfl
  rw [proposalSignBytes, proposalSignBytes, header]
  rfl

theorem framing_accepted (emptyInside : ∀ message ∈ commitmentMessages [], message ∈ hashed)
    (sized : DataAvailability.Encodable proposal.block.txs) (spelled : SpelledProposal proposal) (filled : proposal.block.txs ≠ [])
    {member : Validator} {verifier : EvidenceVerifier} (signed : signatureValid verifier member.publicKey proposal = true)
    (set : SetSnapshot) (appHash txResultsHash : Hash) (time : Int64) :
    verifyConsensusEvidence .empty (framingReport proposal) set member (some verifier) (localContext appHash txResultsHash time) = .ok () := by
  have committed := built_committed safe built own filled
  have different : commitment [] ≠ proposal.block.header.consensusHash := by
    rw [built.committed, if_neg filled]
    intro same
    have emptySized : DataAvailability.Encodable [] := by
      rw [DataAvailability.Encodable]
      decide
    refine filled (commitment_binding emptySized sized (Sha256.collision_free_mono ?_ safe.collisionFree) same).symm
    rintro message (listed | listed)
    · exact emptyInside message listed
    · exact own message (by simp [hashedFor, blockMessages, listed])
  have nonzero : commitment [] ≠ zeroHash := commitment_ne_zero safe emptyInside
  have read := framing_decoded spelled
  have fails : verify (emptied proposal).block.header (emptied proposal).block.txs = .error .commitmentMismatch := by
    rw [verify, if_neg (show (emptied proposal).block.header.consensusHash ≠ zeroHash from committed), require_error_iff]
    exact ⟨different, rfl⟩
  have covered : signatureValid verifier member.publicKey (emptied proposal) = true := by
    rw [signatureValid, emptied_sign_bytes safe built own filled]
    exact signed
  have reason : verifyInvalidProposalEvidenceWithContext .empty (framingReport proposal) (localContext appHash txResultsHash time) = .ok () := by
    refine require_bind rfl (bind_ok read (require_bind ⟨rfl, rfl, rfl, rfl⟩ (bind_ok rfl (bind_ok rfl (bind_ok_iff.mpr ⟨(), ?_,
      bind_ok rfl (bind_ok_iff.mpr ⟨(), ?_, ?_⟩)⟩)))))
    · rw [verifyContextProofHash, if_neg fun set => set rfl]
      exact require_ok_iff.mpr fun bound => bound.1 rfl
    · simp only [verifyDACommitmentProof, ok_iff]
      exact ⟨⟨nonzero, rfl, rfl⟩, fun both => different both.2, fun other => by cases other.1⟩
    · rw [fails]
      rfl
  exact bind_ok read (bind_ok reason (require_ok_iff.mpr covered))

end Honest

-- A proposal of its proposer alone can be reported by anyone who leaves its transactions out, if it has any and its texts survive JSON.
theorem proposer_never_framed_iff (config : StateMachineConfig) (machine : StateMachine) (block : Block) (round : Round) (proposer : ValidatorID)
    (justifyQC : QuorumCert) (sign : Bytes → Signature) (unsigned proposal : Proposal)
    (created : createProposal config machine block round proposer justifyQC = .ok unsigned)
    (signed : signConsensusProposal sign unsigned = .ok proposal) (noCommitment : block.header.consensusHash = zeroHash)
    (hashed : Set Bytes) (safe : SafeHashes hashed) (own : ∀ message ∈ hashedFor proposal.block, message ∈ hashed)
    (emptyInside : ∀ message ∈ hashedFor (emptied proposal).block, message ∈ hashed) (sized : DataAvailability.Encodable proposal.block.txs)
    (set : SetSnapshot) (member : Validator) (verifier : EvidenceVerifier) (valid : signatureValid verifier member.publicKey proposal = true)
    (once : SignedOnce verifier member.publicKey proposal) :
    (∀ (evidence : Evidence) (appHash txResultsHash : Hash) (time : Int64), Reports proposal evidence →
        (∀ reported ∈ reportedBlock evidence, ∀ message ∈ hashedFor reported, message ∈ hashed) →
        verifyConsensusEvidence .empty evidence set member (some verifier) (localContext appHash txResultsHash time) ≠ .ok ()) ↔
      block.txs = [] ∨ ¬ Utf8.Valid config.chainID ∨ ¬ Utf8.Valid proposer := by
  obtain ⟨built, chain, named, txs⟩ := created_built created signed noCommitment
  have empty_iff : proposal.block.txs = [] ↔ block.txs = [] := by
    rw [txs]
    exact ⟨fun none => (none ▸ sort_perm _ _ _).nil_eq.symm, fun none => (none ▸ sort_perm _ _ _ : Perm _ []).eq_nil⟩
  constructor
  · intro rejected
    by_contra exposed
    simp only [not_or, not_not] at exposed
    obtain ⟨filled, chainValid, proposerValid⟩ := exposed
    have spelled : SpelledProposal proposal := ⟨chain ▸ chainValid, named ▸ proposerValid⟩
    have noData : ∀ message ∈ commitmentMessages [], message ∈ hashed :=
      fun message listed => emptyInside message (by simp [hashedFor, blockMessages, emptied, listed])
    refine rejected (framingReport proposal) zeroHash zeroHash 0 ⟨.inl rfl, rfl, rfl, rfl⟩ ?_
      (framing_accepted safe built own noData sized spelled (mt empty_iff.mp filled) valid set _ _ _)
    intro reported inside
    rw [framing_reported spelled, Option.mem_some_iff] at inside
    exact inside ▸ emptyInside
  · intro closed evidence appHash txResultsHash time reports inside accepted
    obtain ⟨reported, shown⟩ := report_shown reports rfl accepted
    have same := once reported (shown.height.trans reports.height) (shown.round.trans reports.round) shown.signed
    have within := inside reported.block shown.reported
    rcases shown.fails with ⟨fails, chainValid, proposerValid⟩ | fails
    · have header := congrArg Header.chainID (reported_header safe built own within same)
      rw [sealed_header_chain, chain] at header
      rw [header] at chainValid
      rw [(proposal_sign_bytes_bind same).1, named] at proposerValid
      rcases closed with none | unspelled | unspelled
      · exact mismatch_needs_txs safe built own within same fails (empty_iff.mpr none)
      · exact unspelled chainValid
      · exact unspelled proposerValid
    · exact missing_data_impossible safe built own within same fails

-- The sole validator's second proposal, and a verifier that knows no other signature than the one on it.
def echoedProposal (txs : List Tx) : Proposal :=
  ⟨filledBlock echoConfig joined ⟨secondBlock.header, txs⟩ (proposalQC joined), 0, plainValidator.id, proposalQC joined, plainValidator.publicKey⟩

def proposalOnly (proposal : Proposal) : EvidenceVerifier :=
  ⟨fun _ message _ => Crypto.domainMessage Crypto.domainConsensusProposal (proposalSignBytes proposal) = .ok message, none⟩

def echoedMessages (txs : List Tx) : List Bytes := hashedFor (echoedProposal txs).block ++ hashedFor (emptied (echoedProposal txs)).block

theorem proposal_only_once (key : PublicKey) (proposal : Proposal) : SignedOnce (proposalOnly proposal) key proposal := by
  intro other _ _ valid
  rw [signatureValid, verifyDomainSignature] at valid
  split at valid
  · contradiction
  · split at valid
    · contradiction
    · rename_i encoded
      exact Crypto.domain_message_injective encoded (of_decide_eq_true valid)

theorem echoed_evaluated : ∀ txs ∈ [oneTx, []],
    createProposal echoConfig joined ⟨secondBlock.header, txs⟩ 0 plainValidator.id zeroQC = .ok { echoedProposal txs with signature := [] } ∧
      signConsensusProposal (fun _ => plainValidator.publicKey) { echoedProposal txs with signature := [] } = .ok (echoedProposal txs) ∧
      signatureValid (proposalOnly (echoedProposal txs)) plainValidator.publicKey (echoedProposal txs) = true ∧
      (∀ first ∈ echoedMessages txs, Sha256.sum256 first ≠ zeroHash ∧
        ∀ second ∈ echoedMessages txs, Sha256.sum256 first = Sha256.sum256 second → first = second) ∧
      (echoedProposal txs).block.txs = txs := by
  decide +kernel

theorem echoed_safe {txs : List Tx} (listed : txs ∈ [oneTx, []]) : SafeHashes (fun message => message ∈ echoedMessages txs) := by
  obtain ⟨-, -, -, distinct, -⟩ := echoed_evaluated txs listed
  exact ⟨fun first inFirst second inSecond => (distinct first inFirst).2 second inSecond, fun message inside => (distinct message inside).1⟩

-- Anyone who strips the transactions off the second proposal gets its proposer's evidence accepted.
theorem echoed_proposal_framed :
    createProposal echoConfig joined secondBlock 0 plainValidator.id zeroQC = .ok { echoedProposal oneTx with signature := [] } ∧
      signConsensusProposal (fun _ => plainValidator.publicKey) { echoedProposal oneTx with signature := [] } = .ok (echoedProposal oneTx) ∧
      SafeHashes (fun message => message ∈ echoedMessages oneTx) ∧
      SignedOnce (proposalOnly (echoedProposal oneTx)) plainValidator.publicKey (echoedProposal oneTx) ∧
      Reports (echoedProposal oneTx) (framingReport (echoedProposal oneTx)) ∧
      verifyConsensusEvidence .empty (framingReport (echoedProposal oneTx)) ⟨[plainValidator]⟩ plainValidator
        (some (proposalOnly (echoedProposal oneTx))) (localContext zeroHash zeroHash 0) = .ok () := by
  have listed : oneTx ∈ [oneTx, []] := mem_cons_self ..
  obtain ⟨created, signed, valid, -, txs⟩ := echoed_evaluated oneTx listed
  obtain ⟨built, chain, -⟩ := created_built created signed rfl
  have spelled : SpelledProposal (echoedProposal oneTx) := ⟨chain ▸ Utf8.valid_ascii (by with_unfolding_all decide), Utf8.valid_ascii (by with_unfolding_all decide)⟩
  refine ⟨created, signed, echoed_safe listed, proposal_only_once _ _, ⟨.inl rfl, rfl, rfl, rfl⟩,
    framing_accepted (echoed_safe listed) built (fun message inside => mem_append_left _ inside)
      (fun message inside => mem_append_right _ (by simp [hashedFor, blockMessages, emptied, inside])) ?_ spelled ?_ valid _ _ _ _⟩
  · rw [txs, DataAvailability.Encodable]
    decide +kernel
  · rw [txs]
    decide

theorem empty_proposal_never_framed : signatureValid (proposalOnly (echoedProposal [])) plainValidator.publicKey (echoedProposal []) = true ∧
    ∀ (evidence : Evidence) (appHash txResultsHash : Hash) (time : Int64), Reports (echoedProposal []) evidence →
      (∀ reported ∈ reportedBlock evidence, ∀ message ∈ hashedFor reported, message ∈ echoedMessages []) →
      verifyConsensusEvidence .empty evidence ⟨[plainValidator]⟩ plainValidator (some (proposalOnly (echoedProposal [])))
        (localContext appHash txResultsHash time) ≠ .ok () := by
  have listed : [] ∈ [oneTx, []] := by simp
  obtain ⟨created, signed, valid, -, txs⟩ := echoed_evaluated [] listed
  refine ⟨valid, (proposer_never_framed_iff echoConfig joined ⟨secondBlock.header, []⟩ 0 plainValidator.id zeroQC _ _ _ created signed rfl _
    (echoed_safe listed) (fun message inside => mem_append_left _ inside) (fun message inside => mem_append_right _ inside) ?_
    ⟨[plainValidator]⟩ plainValidator _ valid (proposal_only_once _ _)).mpr (.inl rfl)⟩
  rw [txs, DataAvailability.Encodable]
  decide

end Vexo.Consensus
