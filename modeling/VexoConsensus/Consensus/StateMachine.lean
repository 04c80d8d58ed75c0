import VexoConsensus.Consensus.BlockTree
import VexoConsensus.DataAvailability
import VexoConsensus.FairOrdering

namespace Vexo.Consensus

open Finality Checks OrderedMap ByteCodec

abbrev AggregateSigner := List Signature → Except Err AggregateSignature

structure TimeoutCollector where
  validatorSet : SetSnapshot
  aggregator : Option AggregateSigner
  votes : Table (Height × Round) (Table ValidatorID TimeoutVote)

def newTimeoutCollectorWithAggregator (validatorSet : SetSnapshot) (aggregator : Option AggregateSigner) : TimeoutCollector :=
  ⟨validatorSet, aggregator, ∅⟩

variable (collector : TimeoutCollector)

-- A missing inner map reads as an empty one, so creating the maps first is not visible.
def TimeoutCollector.votesForRound (height : Height) (round : Round) : Table ValidatorID TimeoutVote :=
  (collector.votes.lookup (height, round)).getD ∅

def TimeoutCollector.addVote (vote : TimeoutVote) : Except Err TimeoutCollector := do
  require ((collector.validatorSet.get vote.validatorID).isSome) .unknownValidator
  let roundVotes := collector.votesForRound vote.height vote.round
  match roundVotes.lookup vote.validatorID with
  | some previous => do
      require (sameQC previous.highQC vote.highQC) .conflictingTimeoutVote
      return collector
  | none =>
    return { collector with
      votes := collector.votes.insert (vote.height, vote.round) (roundVotes.insert vote.validatorID vote) }

def TimeoutCollector.conflictingVote (vote : TimeoutVote) : Option TimeoutVote :=
  match (collector.votesForRound vote.height vote.round).lookup vote.validatorID with
  | none => none
  | some previous => if sameQC previous.highQC vote.highQC then none else some previous

-- The vote loops of buildQuorumCert and BuildTimeoutCert: members of the set in visiting order, with their power.
def tallyMembers (set : SetSnapshot) : List ValidatorID → VotingPower → Except Err (VotingPower × List ValidatorID)
  | [], votingPower => .ok (votingPower, [])
  | validatorID :: rest, votingPower =>
    match set.get validatorID with
    | none => tallyMembers set rest votingPower
    | some validator => do
        let votingPower ← addVotingPower votingPower validator.votingPower
        let (total, members) ← tallyMembers set rest votingPower
        return (total, validatorID :: members)

def bestHighQC : List TimeoutVote → QuorumCert → QuorumCert
  | [], highQC => highQC
  | vote :: rest, highQC => bestHighQC rest (if isBetterQC vote.highQC highQC then vote.highQC else highQC)

def aggregateSignatures (aggregator : Option AggregateSigner) (signatures : List Signature) : Except Err AggregateSignature :=
  match aggregator with
  | none => .error .aggregateRequired
  | some aggregate => do
      require (allSignaturesPresent signatures) .missingSignature
      aggregate signatures

def sortedIDs (ids : List ValidatorID) : List ValidatorID := ids.insertionSort (· ≤ ·)

def TimeoutCollector.buildTimeoutCert (order : List ValidatorID) (height : Height) (round : Round) : Except Err TimeoutCert := do
  let roundVotes := collector.votesForRound height round
  require (roundVotes.keys ≠ []) .noQuorum
  let (votingPower, members) ← tallyMembers collector.validatorSet (visit roundVotes order) 0
  let highQC := bestHighQC (members.filterMap fun id => roundVotes.lookup id) zeroQC
  require (hasTwoThirdsQuorum votingPower collector.validatorSet.totalVotingPower) .noQuorum
  let signers := sortedIDs members
  let signature ← aggregateSignatures collector.aggregator
    (signers.filterMap fun id => (roundVotes.lookup id).map TimeoutVote.signature)
  return ⟨height, round, highQC, encodeSigners signers, signature⟩

structure Pacemaker where
  height : Height
  round : Round
deriving DecidableEq

def Pacemaker.advanceRound (pacemaker : Pacemaker) (timeoutCert : TimeoutCert) : Except Err Pacemaker :=
  if timeoutCert.height < pacemaker.height then .error .staleTimeoutCert
  else if timeoutCert.height > pacemaker.height then .ok ⟨timeoutCert.height, timeoutCert.round + 1⟩
  else if timeoutCert.round < pacemaker.round then .error .staleTimeoutCert
  else .ok { pacemaker with round := timeoutCert.round + 1 }

theorem best_high_qc_from (votes : List TimeoutVote) (start : QuorumCert) :
    bestHighQC votes start = start ∨ ∃ vote ∈ votes, bestHighQC votes start = vote.highQC := by
  induction votes generalizing start with
  | nil => exact .inl rfl
  | cons vote rest ih =>
    rw [bestHighQC]
    rcases ih (if isBetterQC vote.highQC start then vote.highQC else start) with kept | ⟨later, member, chosen⟩
    · split at kept
      · rename_i better
        rw [if_pos better]
        exact .inr ⟨vote, List.mem_cons_self .., kept⟩
      · rename_i worse
        rw [if_neg worse]
        exact .inl kept
    · exact .inr ⟨later, List.mem_cons_of_mem _ member, chosen⟩

theorem tally_members_ok {set : SetSnapshot} {ids members : List ValidatorID} {start total : VotingPower}
    (tallied : tallyMembers set ids start = .ok (total, members)) :
    members = ids.filter (fun id => (set.get id).isSome) ∧ total.toNat = start.toNat + (members.map set.powerOf).sum := by
  induction ids generalizing start total members with
  | nil =>
    cases tallied
    simp
  | cons id rest ih =>
    cases found : set.get id with
    | none =>
      simp only [tallyMembers, found] at tallied
      obtain ⟨membersEq, totalEq⟩ := ih tallied
      exact ⟨by simpa [found] using membersEq, totalEq⟩
    | some validator =>
      simp only [tallyMembers, found, bind_ok_iff] at tallied
      obtain ⟨sum, added, ⟨total', members'⟩, tallied, returned⟩ := tallied
      cases returned
      obtain ⟨membersEq, totalEq⟩ := ih tallied
      refine ⟨by simp [found, membersEq], ?_⟩
      have added' := add_voting_power_ok added
      simp only [List.map_cons, List.sum_cons, power_of_get found]
      omega

abbrev VerifySignature := PublicKey → Bytes → Signature → Bool

structure StateMachineConfig where
  chainID : GoString
  hashBlock : Block → Hash
  signatures : Option VerifySignature
  aggregator : Option AggregateSigner
  enforceProposerSelection : Bool
  txPayload : FairOrdering.TxPayload

inductive Phase where
  | propose | vote | commit
deriving DecidableEq, Repr

structure Status where
  height : Height
  round : Round
  phase : Phase
  (lastFinalized validatorSetHash : Hash)
  lastTimeoutCert : TimeoutCert
deriving DecidableEq

-- The evidence the machine records is the encoding of one of these pairs.
inductive RecordedConflict where
  | votes (first second : Vote)
  | timeouts (first second : TimeoutVote)
deriving DecidableEq

structure StateMachine where
  validatorSet : SetSnapshot
  status : Status
  votes : Table (Height × Round × Hash) (Table ValidatorID Vote)
  votedVotes : Table (Height × Round × ValidatorID) Vote
  evidence : List RecordedConflict
  timeouts : TimeoutCollector
  pacemaker : Pacemaker
  blockTree : BlockTree
  lockedQC : QuorumCert
  committed : List CommitDecision
  committedSet : List Hash
  commitIndex : CommitIndex

def zeroTimeoutCert : TimeoutCert := ⟨0, 0, zeroQC, [], []⟩

def newStateMachine (config : StateMachineConfig) (validatorSet : SetSnapshot) : StateMachine where
  validatorSet := validatorSet
  status := ⟨0, 0, .propose, zeroHash, validatorSet.hash, zeroTimeoutCert⟩
  votes := ∅
  votedVotes := ∅
  evidence := []
  timeouts := newTimeoutCollectorWithAggregator validatorSet config.aggregator
  pacemaker := ⟨0, 0⟩
  blockTree := newBlockTree
  lockedQC := zeroQC
  committed := []
  committedSet := []
  commitIndex := ∅

-- The parts of a step's outcome the caller sees: the machine it leaves behind and the returned value or error.
abbrev Outcome (Result : Type) := StateMachine × Except Err Result

section Checks

variable (config : StateMachineConfig) (machine : StateMachine)

def validateProposer (height : Height) (round : Round) (proposer : ValidatorID) : Except Err Unit :=
  if config.enforceProposerSelection then
    match selectProposer machine.validatorSet.list height round with
    | none => .error .noActiveValidators
    | some expected => require (expected = proposer) (.unexpectedProposer height round expected proposer)
  else .ok ()

-- verifyProposalSignature, verifyVoteSignature and verifyTimeoutVoteSignature differ in domain, text and message.
def verifySignature (domain : GoString) (missing invalid : Err) (validatorID : ValidatorID) (signBytes : Bytes)
    (signature : Signature) : Except Err Unit :=
  match config.signatures with
  | none => .ok ()
  | some verify => do
      require (signature ≠ []) missing
      match machine.validatorSet.get validatorID with
      | none => .error .unknownValidator
      | some validator => do
          let message ← Crypto.domainMessage domain signBytes
          require (verify validator.publicKey message signature) invalid

def verifyProposalSignature (proposal : Proposal) : Except Err Unit :=
  verifySignature config machine Crypto.domainConsensusProposal (.invalidProposal "missing proposal signature")
    (.invalidProposal "invalid proposal signature") proposal.proposer (proposalSignBytes proposal) proposal.signature

variable (vote : Vote)

def verifyVoteSignature : Except Err Unit :=
  verifySignature config machine Crypto.domainConsensusVote (.invalidVote "missing vote signature")
    (.invalidVote "invalid vote signature") vote.validatorID (voteSignBytes vote) vote.signature

def verifyTimeoutVoteSignature (vote : TimeoutVote) : Except Err Unit :=
  verifySignature config machine Crypto.domainConsensusTimeoutVote (.invalidVote "missing timeout vote signature")
    (.invalidVote "invalid timeout vote signature") vote.validatorID (timeoutVoteSignBytes vote) vote.signature

def ensureVoteSignature : Vote :=
  if config.signatures.isSome ∨ vote.signature ≠ [] then vote
  else { vote with signature := unsignedConsensusSignature (utf8 "unsigned-vote") vote.validatorID (voteSignBytes vote) }

def ensureTimeoutVoteSignature (vote : TimeoutVote) : TimeoutVote :=
  if config.signatures.isSome ∨ vote.signature ≠ [] then vote
  else { vote with
    signature := unsignedConsensusSignature (utf8 "unsigned-timeout-vote") vote.validatorID (timeoutVoteSignBytes vote) }

def orderingSalt (height : Height) : Bytes := FairOrdering.heightSalt config.chainID height

def isSafeProposal (proposal : Proposal) : Bool :=
  let parentHash := proposal.block.header.previousBlockHash
  machine.lockedQC.height = 0 || decide (proposal.justifyQC.height ≥ machine.lockedQC.height) ||
    parentHash = machine.lockedQC.blockHash || machine.blockTree.extends parentHash machine.lockedQC.blockHash

def isSafeVoteTarget (node : BlockNode) : Bool :=
  machine.lockedQC.height = 0 || decide (node.justifyQC.height ≥ machine.lockedQC.height) ||
    node.hash = machine.lockedQC.blockHash || machine.blockTree.extends node.hash machine.lockedQC.blockHash

def invalidProposalOf : Except Err Unit → Except Err Unit
  | .ok done => .ok done
  | .error .missingData => .error (.invalidProposal "data availability data is missing")
  | .error .commitmentMismatch => .error (.invalidProposal "data availability commitment mismatch")
  | .error reason => .error reason

-- Everything OnProposal checks before it looks at the tree and the lock.
def checkProposal (ctx : Context) (proposal : Proposal) : Except Err Unit := do
  require (ctx.done = false) .contextDone
  require ((machine.validatorSet.get proposal.proposer).isSome) .unknownValidator
  validateProposer config machine proposal.block.header.height proposal.round proposal.proposer
  verifyProposalSignature config machine proposal
  require (proposal.block.header.chainID = config.chainID) (.proposalChainMismatch proposal.block.header.chainID)
  require (proposal.block.header.height ≠ 0) (.invalidProposal "missing height")
  require (proposal.block.header.validatorSetHash = machine.validatorSet.hash) (.invalidProposal "validator set hash mismatch")
  require (FairOrdering.isOrderedWithSalt config.txPayload proposal.block.txs (orderingSalt config proposal.block.header.height))
    (.invalidProposal "transaction ordering mismatch")
  invalidProposalOf (DataAvailability.verify proposal.block.header proposal.block.txs)
  require (proposal.justifyQC.height > 0 → proposal.justifyQC.height ≤ proposal.block.header.height)
    (.invalidProposal "justify qc height exceeds proposal height")
  require (proposal.justifyQC.height > 0 → proposal.justifyQC.blockHash = proposal.block.header.previousBlockHash)
    (.invalidProposal "justify qc must match parent block")

def validateVote : Except Err Unit := do
  require (vote.height ≠ 0) (.invalidVote "missing height")
  require (vote.blockHash ≠ zeroHash) (.invalidVote "missing block hash")
  verifyVoteSignature config machine vote
  require (¬ (machine.status.height > 0 ∧ vote.height < machine.status.height)) .staleVote
  require (¬ (vote.height = machine.status.height ∧ vote.round < machine.status.round)) .staleVote
  match machine.blockTree.get vote.blockHash with
  | none => .error .unknownVoteBlock
  | some node => do
      require (node.block.header.height = vote.height) (.invalidVote "target height mismatch")
      require (isSafeVoteTarget machine node) .unsafeVote

end Checks

section Steps

variable (config : StateMachineConfig) (machine : StateMachine)

def updateLockedQC (qc : QuorumCert) : StateMachine :=
  if qc.height = 0 ∨ qc.blockHash = zeroHash then machine
  else if isBetterQC qc machine.lockedQC then { machine with lockedQC := qc } else machine

def applyCommitRule (candidate : CommitCandidate) : Outcome CommitDecision :=
  match ThreeChainCommitRule.decide candidate with
  | .error reason => (machine, .error reason)
  | .ok decision =>
    if decision.committedBlockHash ∈ machine.committedSet then (machine, .ok decision)
    else
      match CommitIndex.record machine.commitIndex decision.committedHeight decision.committedBlockHash with
      | .error reason => (machine, .error reason)
      | .ok commitIndex =>
        let committed := (machine.committed ++ [decision]).insertionSort fun left right =>
          left.committedHeight ≤ right.committedHeight
        let lastFinalized := (committed.getLast?.map CommitDecision.committedBlockHash).getD zeroHash
        ({ machine with
            committed := committed
            committedSet := decision.committedBlockHash :: machine.committedSet
            commitIndex := commitIndex
            status := { machine.status with lastFinalized := lastFinalized } }, .ok decision)

-- The loop of applyKnownCommitRules over the visited hashes; the blocks do not change while it runs.
def applyCommitRules : StateMachine → List Hash → Outcome Unit
  | machine, [] => (machine, .ok ())
  | machine, blockHash :: rest =>
    match machine.blockTree.commitCandidate blockHash with
    | none => applyCommitRules machine rest
    | some candidate =>
      match applyCommitRule machine candidate with
      | (machine, .ok _) => applyCommitRules machine rest
      | (machine, .error .commitRuleNotSatisfied) => applyCommitRules machine rest
      | (machine, .error reason) => (machine, .error reason)

def applyKnownCommitRules (order : List Hash) : Outcome Unit :=
  applyCommitRules machine (visit machine.blockTree.blocks order)

def insertBlock (proposal : Proposal) : StateMachine :=
  { machine with
    blockTree := machine.blockTree.insert proposal.block (config.hashBlock proposal.block) proposal.justifyQC }

def onProposal (order : List Hash) (ctx : Context) (proposal : Proposal) : Outcome Unit :=
  match checkProposal config machine ctx proposal with
  | .error reason => (machine, .error reason)
  | .ok _ =>
    let header := proposal.block.header
    let certified := ((machine.blockTree.get (config.hashBlock proposal.block)).any fun known => known.quorumCert.height > 0)
    let stale := header.height < machine.status.height ∨ (header.height = machine.status.height ∧ proposal.round < machine.status.round)
    if certified then
      match applyKnownCommitRules machine order with
      | (next, .error reason) => (next, .error reason)
      | (next, .ok _) => (next, .error .staleProposal)
    else if stale then
      match applyKnownCommitRules (insertBlock config machine proposal) order with
      | (next, .error reason) => (next, .error reason)
      | (next, .ok _) => (next, .error .staleProposal)
    else if isSafeProposal machine proposal then
      match applyKnownCommitRules (insertBlock config machine proposal) order with
      | (next, .error reason) => (next, .error reason)
      | (next, .ok _) =>
        ({ next with status := { next.status with height := header.height, round := proposal.round, phase := .vote } }, .ok ())
    else (machine, .error .unsafeProposal)

variable (height : Height) (round : Round)

def votesForBlock (blockHash : Hash) : Table ValidatorID Vote :=
  (machine.votes.lookup (height, round, blockHash)).getD ∅

def recordVote (vote : Vote) : Outcome Unit :=
  let previous := machine.votedVotes.lookup (vote.height, vote.round, vote.validatorID)
  match previous.filter fun earlier => earlier.blockHash ≠ vote.blockHash with
  | some earlier => ({ machine with evidence := machine.evidence ++ [.votes earlier vote] }, .error .conflictingVote)
  | none =>
    let blockVotes := (votesForBlock machine vote.height vote.round vote.blockHash).insert vote.validatorID vote
    ({ machine with
        votedVotes := machine.votedVotes.insert (vote.height, vote.round, vote.validatorID) vote
        votes := machine.votes.insert (vote.height, vote.round, vote.blockHash) blockVotes }, .ok ())

-- The sum and the sorted signers do not depend on the order in which the votes are visited.
def buildQuorumCert (blockHash : Hash) : Except Err QuorumCert := do
  let blockVotes := votesForBlock machine height round blockHash
  require (blockVotes.keys ≠ []) .noQuorum
  let (votingPower, members) ← tallyMembers machine.validatorSet blockVotes.keys 0
  require (hasTwoThirdsQuorum votingPower machine.validatorSet.totalVotingPower) .noQuorum
  let signers := sortedIDs members
  let signature ← aggregateSignatures config.aggregator
    (signers.filterMap fun id => (blockVotes.lookup id).map Vote.signature)
  return ⟨height, round, blockHash, encodeSigners signers, signature, votingPower⟩

def certifyVotes (vote : Vote) : Outcome Unit :=
  match buildQuorumCert config machine vote.height vote.round vote.blockHash with
  | .error _ => (machine, .ok ())
  | .ok qc =>
    match machine.blockTree.setQuorumCert qc with
    | .ok blockTree =>
      let next := updateLockedQC { machine with blockTree := blockTree } qc
      ({ next with status := { next.status with phase := .commit } }, .ok ())
    | .error .blockNotFound => ({ machine with status := { machine.status with phase := .commit } }, .ok ())
    | .error reason => (machine, .error reason)

def onVote (ctx : Context) (vote : Vote) : Outcome Unit :=
  if ctx.done then (machine, .error .contextDone)
  else if (machine.validatorSet.get vote.validatorID).isNone then (machine, .error .unknownValidator)
  else
    let vote := ensureVoteSignature config vote
    match validateVote config machine vote with
    | .error reason => (machine, .error reason)
    | .ok _ =>
      match recordVote machine vote with
      | (next, .error reason) => (next, .error reason)
      | (next, .ok _) => certifyVotes config next vote

def onTimeoutVote (order : List ValidatorID) (ctx : Context) (vote : TimeoutVote) : Outcome TimeoutCert :=
  if ctx.done then (machine, .error .contextDone)
  else
    let vote := ensureTimeoutVoteSignature config vote
    match verifyTimeoutVoteSignature config machine vote with
    | .error reason => (machine, .error reason)
    | .ok _ =>
      match machine.timeouts.addVote vote with
      | .error reason =>
        let conflict := if reason = .conflictingTimeoutVote then machine.timeouts.conflictingVote vote else none
        ({ machine with evidence := machine.evidence ++ (conflict.map fun previous => .timeouts previous vote).toList }, .error reason)
      | .ok timeouts =>
        let next := { machine with timeouts := timeouts }
        match timeouts.buildTimeoutCert order vote.height vote.round with
        | .error reason => (next, .error reason)
        | .ok timeoutCert =>
          match next.pacemaker.advanceRound timeoutCert with
          | .error reason => (next, .error reason)
          | .ok pacemaker =>
            ({ next with
                pacemaker := pacemaker
                blockTree := next.blockTree.observeQuorumCert timeoutCert.highQC
                status := { next.status with
                  height := pacemaker.height
                  round := pacemaker.round
                  phase := .propose
                  lastTimeoutCert := timeoutCert } }, .ok timeoutCert)

def observeCommittedBlock (block : Block) (quorumCert : QuorumCert) : Outcome Unit :=
  let blockHash := config.hashBlock block
  if quorumCert.height ≠ block.header.height ∨ quorumCert.blockHash ≠ blockHash then (machine, .error .invalidBlockCert)
  else
    let tree := if (machine.blockTree.get blockHash).isSome then machine.blockTree
      else machine.blockTree.insert block blockHash zeroQC
    let next := { machine with blockTree := tree }
    match tree.setQuorumCert quorumCert with
    | .error reason => (next, .error reason)
    | .ok blockTree => (updateLockedQC { next with blockTree := blockTree } quorumCert, .ok ())

def updateValidatorSet (validatorSet : SetSnapshot) : StateMachine :=
  { machine with
    validatorSet := validatorSet
    status := { machine.status with validatorSetHash := validatorSet.hash }
    timeouts := newTimeoutCollectorWithAggregator validatorSet config.aggregator }

def startRound : StateMachine :=
  { machine with
    status := { machine.status with height := height, round := round, phase := .propose }
    pacemaker := ⟨height, round⟩ }

end Steps

end Vexo.Consensus
