import VexoConsensus.Consensus.Steps
import VexoConsensus.StoreRegistry

namespace Vexo.Consensus

open Finality Checks OrderedMap ByteCodec List

section

section

section Chain

variable (config : StateMachineConfig) (Known : Block → Prop) (Good : QuorumCert → Prop)

structure NodeSound (key : Hash) (node : BlockNode) : Prop where
  hash : node.hash = key
  hashed : config.hashBlock node.block = key
  parent : node.parentHash = node.block.header.previousBlockHash
  known : Known node.block
  justified : node.justifyQC.height ≠ 0 → node.justifyQC.blockHash = node.block.header.previousBlockHash ∧ Good node.justifyQC

-- The child whose certificate decided a commit; the tree may forget it later, the decision does not.
structure DecisionBacked (decision : CommitDecision) : Prop where
  certHeight : decision.commitQC.height = decision.committedHeight
  certHash : decision.commitQC.blockHash = decision.committedBlockHash
  cert : Good decision.commitQC
  child : ∃ block childQC, Known block ∧ Good childQC ∧ config.hashBlock block = childQC.blockHash ∧
    childQC.height = decision.committedHeight + 1 ∧ block.header.height = decision.committedHeight + 1 ∧
    block.header.previousBlockHash = decision.committedBlockHash

structure ChainSound (machine : StateMachine) : Prop where
  nodes : ∀ key node, machine.blockTree.get key = some node → NodeSound config Known Good key node
  decisions : ∀ decision ∈ machine.committed, DecisionBacked config Known Good decision

end Chain

variable {config : StateMachineConfig} {Known : Block → Prop} {Good : QuorumCert → Prop}

theorem chain_sound_new (validatorSet : SetSnapshot) : ChainSound config Known Good (newStateMachine config validatorSet) := by
  refine ⟨?_, by simp [newStateMachine]⟩
  intro key node found
  simp [newStateMachine, newBlockTree, BlockTree.get] at found

variable {candidate : CommitCandidate} {decision : CommitDecision}

theorem decide_ok (decides : ThreeChainCommitRule.decide candidate = .ok decision) :
    candidate.blockQC.blockHash = candidate.parentHash ∧ candidate.parentHeight = candidate.grandparentHeight + 1 ∧
      candidate.blockQC.height = candidate.parentHeight ∧ candidate.parentQC.height = candidate.grandparentHeight ∧
      candidate.parentQC.blockHash = candidate.grandparentHash ∧
      decision = ⟨candidate.grandparentHeight, candidate.grandparentHash, candidate.parentQC⟩ := by
  simp only [ThreeChainCommitRule.decide, ok_iff] at decides
  obtain ⟨-, blockLink, parentLink, -, ⟨-, parentHeight, blockCert, parentCert⟩, returned⟩ := decides
  exact ⟨blockLink, parentHeight, blockCert, parentCert, parentLink, (Except.ok.inj returned).symm⟩

variable {tree : BlockTree}
variable (nodes : ∀ key node, tree.get key = some node → NodeSound config Known Good key node)
include nodes

theorem decision_backed {blockHash : Hash}
    (found : tree.commitCandidate blockHash = some candidate) (decides : ThreeChainCommitRule.decide candidate = .ok decision) :
    DecisionBacked config Known Good decision := by
  obtain ⟨node, parent, nodeFound, justified, parentFound, parentJustified, rfl⟩ := commit_candidate_some found
  obtain ⟨blockLink, parentHeight, blockCert, parentCert, parentLink, rfl⟩ := decide_ok decides
  have nodeSound := nodes _ _ nodeFound
  have parentSound := nodes _ _ parentFound
  obtain ⟨-, nodeGood⟩ := nodeSound.justified justified
  obtain ⟨parentMatches, parentGood⟩ := parentSound.justified parentJustified
  exact ⟨rfl, rfl, parentGood, parent.block, node.justifyQC, parentSound.known, nodeGood, parentSound.hashed, blockCert.trans parentHeight,
    parentHeight, parentMatches.symm⟩

omit nodes in
theorem commits_from_sound {base next : StateMachine} (commits : CommitsFrom base next) (sound : ChainSound config Known Good base) :
    ChainSound config Known Good next := by
  refine ⟨fun key node found => sound.nodes key node (commits.blockTree ▸ found), ?_⟩
  intro decision member
  rcases commits.decided decision member with known | ⟨blockHash, candidate, found, decides⟩
  · exact sound.decisions decision known
  · exact decision_backed sound.nodes found decides

theorem insert_nodes_sound (block : Block) (known : Known block) (justifyQC : QuorumCert)
    (justified : justifyQC.height ≠ 0 → justifyQC.blockHash = block.header.previousBlockHash ∧ Good justifyQC) (key : Hash)
    (node : BlockNode) (found : (tree.insert block (config.hashBlock block) justifyQC).get key = some node) :
    NodeSound config Known Good key node := by
  rcases insert_get_cases found with ⟨rfl, rfl⟩ | ⟨-, earlier⟩
  · exact ⟨rfl, rfl, rfl, known, justified⟩
  · exact nodes key node earlier

theorem set_cert_nodes_sound {next : BlockTree}
    {qc : QuorumCert} (set : tree.setQuorumCert qc = .ok next) (key : Hash) (node : BlockNode) (found : next.get key = some node) :
    NodeSound config Known Good key node := by
  obtain ⟨-, -, old, oldFound, -, rfl⟩ := set_quorum_cert_ok set
  simp only [BlockTree.get, observe_blocks] at found
  rcases lookup_insert_cases found with ⟨rfl, rfl⟩ | ⟨-, earlier⟩
  · have sound := nodes _ _ oldFound
    exact ⟨sound.hash, sound.hashed, sound.parent, sound.known, sound.justified⟩
  · exact nodes key node earlier

omit nodes

variable {machine : StateMachine}

theorem check_proposal_justify {ctx : Context} {proposal : Proposal}
    (checked : checkProposal config machine ctx proposal = .ok ()) (present : proposal.justifyQC.height ≠ 0) :
    proposal.justifyQC.blockHash = proposal.block.header.previousBlockHash := by
  simp only [checkProposal, ok_iff] at checked
  obtain ⟨-, -, _, -, _, -, -, -, -, -, _, -, -, matching⟩ := checked
  exact matching (UInt64.pos_iff_ne_zero.mpr present)

variable (sound : ChainSound config Known Good machine)
include sound

theorem on_proposal_chain_sound (order : List Hash)
    (ctx : Context) (proposal : Proposal) (known : Known proposal.block) (delivered : proposal.justifyQC.height ≠ 0 → Good proposal.justifyQC) :
    ChainSound config Known Good (onProposal config machine order ctx proposal).1 := by
  rcases on_proposal_effect config machine order ctx proposal with same | ⟨checked, base, rfl | rfl, commits, -⟩
  · rw [same]
    exact sound
  · exact commits_from_sound commits sound
  · refine commits_from_sound commits ⟨?_, sound.decisions⟩
    exact insert_nodes_sound sound.nodes proposal.block known proposal.justifyQC
      fun present => ⟨check_proposal_justify checked present, delivered present⟩

theorem on_vote_chain_sound (ctx : Context) (vote : Vote) : ChainSound config Known Good (onVote config machine ctx vote).1 := by
  have effect := on_vote_effect config machine ctx vote
  refine ⟨?_, fun decision member => sound.decisions decision (effect.decisions.committed ▸ member)⟩
  rcases effect.certified with ⟨tree, -⟩ | ⟨qc, -, set, -⟩
  · rw [tree]
    exact sound.nodes
  · exact set_cert_nodes_sound sound.nodes set

theorem on_timeout_chain_sound (order : List ValidatorID)
    (ctx : Context) (vote : TimeoutVote) : ChainSound config Known Good (onTimeoutVote config machine order ctx vote).1 := by
  have effect := on_timeout_effect config machine order ctx vote
  refine ⟨?_, fun decision member => sound.decisions decision (effect.decisions.committed ▸ member)⟩
  intro key node found
  rw [BlockTree.get, effect.blocks] at found
  exact sound.nodes key node found

theorem observe_chain_sound {block : Block} (known : Known block)
    (quorumCert : QuorumCert) : ChainSound config Known Good (observeCommittedBlock config machine block quorumCert).1 := by
  have effect := observe_committed_effect config machine block quorumCert
  refine ⟨?_, fun decision member => sound.decisions decision (effect.decisions.committed ▸ member)⟩
  obtain ⟨base, inserted, tree⟩ := effect.tree
  have nodes : ∀ key node, base.get key = some node → NodeSound config Known Good key node := by
    rcases inserted with rfl | ⟨-, rfl⟩
    · exact sound.nodes
    · exact insert_nodes_sound sound.nodes block known zeroQC fun present => absurd rfl present
  rcases tree with same | set
  · rw [same]
    exact nodes
  · exact set_cert_nodes_sound nodes set

theorem ChainSound.mono {Better : QuorumCert → Prop} (weaker : ∀ qc, Good qc → Better qc) : ChainSound config Known Better machine := by
  constructor
  · intro key node found
    have node := sound.nodes key node found
    exact ⟨node.hash, node.hashed, node.parent, node.known, fun present => (node.justified present).imp_right (weaker _)⟩
  · intro decision member
    have backed := sound.decisions decision member
    obtain ⟨block, childQC, known, good, rest⟩ := backed.child
    exact ⟨backed.certHeight, backed.certHash, weaker _ backed.cert, block, childQC, known, weaker _ good, rest⟩

end

abbrev SignedVotes := ValidatorID → Height → Round → Hash → Prop

structure Backed (set : SetSnapshot) (Signed : SignedVotes) (qc : QuorumCert) : Prop where
  quorum : ∃ signers : List ValidatorID, signers.Nodup ∧ (∀ signer ∈ signers, (set.get signer).isSome) ∧
    0 < set.totalVotingPower.toNat ∧
    (twoThirdsQuorumThreshold set.totalVotingPower).toNat ≤ (signers.map set.powerOf).sum ∧
    ∀ signer ∈ signers, Signed signer qc.height qc.round qc.blockHash

def VerifySound (verify : VerifySignature) (set : SetSnapshot) (Signed : SignedVotes) : Prop :=
  ∀ id validator height round blockHash message signature, set.get id = some validator →
    Crypto.domainMessage Crypto.domainConsensusVote (Signbytes.vote height round blockHash) = .ok message →
    verify validator.publicKey message signature = true → Signed id height round blockHash

variable (config : StateMachineConfig)

structure CertificatesGenuine (set : SetSnapshot) (Signed : SignedVotes) (machine : StateMachine) :
    Prop where
  validatorSet : machine.validatorSet = set
  chain : ChainSound config (fun _ => True) (Backed set Signed) machine
  high : machine.blockTree.highQC.height ≠ 0 → Backed set Signed machine.blockTree.highQC
  locked : machine.lockedQC.height ≠ 0 → Backed set Signed machine.lockedQC
  votes : ∀ height round blockHash id vote, (votesForBlock machine height round blockHash).lookup id = some vote →
    Signed id height round blockHash
  timeouts : ∀ height round id stored, (machine.timeouts.votesForRound height round).lookup id = some stored →
    stored.highQC.height ≠ 0 → Backed set Signed stored.highQC

inductive Event where
  | proposal (order : List Hash) (ctx : Context) (proposal : Proposal)
  | vote (ctx : Context) (vote : Vote)
  | timeoutVote (order : List ValidatorID) (ctx : Context) (vote : TimeoutVote)

variable (machine : StateMachine)

def step : Event → StateMachine
  | .proposal order ctx proposal => (onProposal config machine order ctx proposal).1
  | .vote ctx vote => (onVote config machine ctx vote).1
  | .timeoutVote order ctx vote => (onTimeoutVote config machine order ctx vote).1

def run (events : List Event) : StateMachine :=
  events.foldl (step config) machine

def Event.carried : Event → QuorumCert
  | .proposal _ _ delivered => delivered.justifyQC
  | .vote _ _ => zeroQC
  | .timeoutVote _ _ delivered => delivered.highQC

variable {config : StateMachineConfig} {set : SetSnapshot} {Signed : SignedVotes} {verify : VerifySignature}

theorem genuine_new (config : StateMachineConfig) (set : SetSnapshot) (Signed : SignedVotes) :
    CertificatesGenuine config set Signed (newStateMachine config set) := by
  refine ⟨rfl, chain_sound_new set, fun present => absurd rfl present, fun present => absurd rfl present, ?_, ?_⟩
  · intro height round blockHash id vote found
    simp [newStateMachine, votesForBlock] at found
  · intro height round id stored found
    simp [newStateMachine, newTimeoutCollectorWithAggregator, TimeoutCollector.votesForRound] at found

variable {machine : StateMachine}

section

variable (sound : VerifySound verify machine.validatorSet Signed)
include sound
variable (checking : config.signatures = some verify)
include checking

theorem verify_vote_signed
    {vote : Vote} (verified : verifyVoteSignature config machine vote = .ok ()) :
    Signed vote.validatorID vote.height vote.round vote.blockHash := by
  simp only [verifyVoteSignature, verifySignature, checking, ok_iff] at verified
  obtain ⟨-, verified⟩ := verified
  split at verified
  · cases verified
  · next validator found =>
    simp only [bind_ok_iff, require_ok_iff] at verified
    obtain ⟨message, wrapped, accepted⟩ := verified
    exact sound _ _ _ _ _ _ _ found wrapped accepted

theorem validate_vote_signed
    {vote : Vote} (valid : validateVote config machine vote = .ok ()) :
    Signed vote.validatorID vote.height vote.round vote.blockHash := by
  simp only [validateVote, ok_iff] at valid
  obtain ⟨-, -, _, verified, -⟩ := valid
  exact verify_vote_signed sound checking verified

end

variable {qc : QuorumCert}

theorem build_quorum_cert_ok {height : Height} {round : Round} {blockHash : Hash}
    (built : buildQuorumCert config machine height round blockHash = .ok qc) :
    ∃ members power signature, members = (votesForBlock machine height round blockHash).keys.filter
        (fun id => (machine.validatorSet.get id).isSome) ∧
      power.toNat = (members.map machine.validatorSet.powerOf).sum ∧
      hasTwoThirdsQuorum power machine.validatorSet.totalVotingPower = true ∧
      aggregateSignatures config.aggregator ((sortedIDs members).filterMap fun id =>
        ((votesForBlock machine height round blockHash).lookup id).map Vote.signature) = .ok signature ∧
      qc = ⟨height, round, blockHash, encodeSigners (sortedIDs members), signature, power⟩ := by
  simp only [buildQuorumCert, ok_iff] at built
  obtain ⟨-, ⟨power, members⟩, tallied, quorum, signature, aggregated, returned⟩ := built
  obtain ⟨membersEq, powerEq⟩ := tally_members_ok tallied
  exact ⟨members, power, signature, membersEq, by simpa using powerEq, quorum, aggregated, (Except.ok.inj returned).symm⟩

theorem built_cert_backed (votes : ∀ height round blockHash id vote,
      (votesForBlock machine height round blockHash).lookup id = some vote → Signed id height round blockHash)
    {height : Height} {round : Round} {blockHash : Hash}
    (built : buildQuorumCert config machine height round blockHash = .ok qc) : Backed machine.validatorSet Signed qc := by
  obtain ⟨members, power, signature, rfl, powerEq, quorum, -, rfl⟩ := build_quorum_cert_ok built
  obtain ⟨positive, reached⟩ := (has_quorum_iff _ _).mp quorum
  refine ⟨_, (votesForBlock machine height round blockHash).keys_nodup.filter fun id => (machine.validatorSet.get id).isSome,
    ?_, positive, ?_, ?_⟩
  · intro signer member
    exact (List.mem_filter.mp member).2
  · rw [threshold_to_nat, ← powerEq]
    omega
  · intro signer member
    have present := AList.lookup_isSome.mpr (AList.mem_keys.mpr (List.mem_filter.mp member).1)
    obtain ⟨vote, found⟩ := Option.isSome_iff_exists.mp present
    exact votes _ _ _ _ _ found

theorem on_proposal_high_qc (config : StateMachineConfig) (machine : StateMachine) (order : List Hash) (ctx : Context) (proposal : Proposal) :
    let next := (onProposal config machine order ctx proposal).1
    next.validatorSet = machine.validatorSet ∧ next.lockedQC = machine.lockedQC ∧ next.votes = machine.votes ∧
      next.timeouts = machine.timeouts ∧
      (next.blockTree.highQC = machine.blockTree.highQC ∨
        (next.blockTree.highQC = proposal.justifyQC ∧ proposal.justifyQC.height ≠ 0)) := by
  rcases on_proposal_effect config machine order ctx proposal with same | ⟨-, base, rfl | rfl, commits, -⟩
  · rw [same]
    exact ⟨rfl, rfl, rfl, rfl, .inl rfl⟩
  · exact ⟨commits.validatorSet, commits.lockedQC, commits.votes, commits.timeouts, .inl (by rw [commits.blockTree])⟩
  · refine ⟨commits.validatorSet, commits.lockedQC, commits.votes, commits.timeouts, ?_⟩
    rw [commits.blockTree]
    exact insert_high_qc _ _ _ _

theorem set_cert_high_qc {tree next : BlockTree} (set : tree.setQuorumCert qc = .ok next) :
    next.highQC = tree.highQC ∨ (next.highQC = qc ∧ qc.height ≠ 0) := by
  obtain ⟨-, -, node, -, -, rfl⟩ := set_quorum_cert_ok set
  exact observe_high_qc _ qc

theorem step_genuine (checking : config.signatures = some verify)
    (sound : VerifySound verify set Signed) (genuine : CertificatesGenuine config set Signed machine) (event : Event)
    (carried : event.carried.height ≠ 0 → Backed set Signed event.carried) :
    CertificatesGenuine config set Signed (step config machine event) := by
  cases event with
  | proposal order ctx delivered =>
    obtain ⟨sets, locked, votes, timeouts, high⟩ := on_proposal_high_qc config machine order ctx delivered
    refine ⟨sets.trans genuine.validatorSet, on_proposal_chain_sound genuine.chain order ctx delivered trivial carried, ?_, ?_, ?_, ?_⟩
    · rcases high with kept | ⟨raised, nonzero⟩
      · exact fun present => kept ▸ genuine.high (kept ▸ present)
      · exact fun _ => raised ▸ carried nonzero
    · exact fun present => locked ▸ genuine.locked (locked ▸ present)
    · intro height round blockHash id vote found
      simp only [step, votesForBlock, votes] at found
      exact genuine.votes height round blockHash id vote found
    · intro height round id stored found
      simp only [step, timeouts] at found
      exact genuine.timeouts height round id stored found
  | vote ctx delivered =>
    have effect := on_vote_effect config machine ctx delivered
    have votes : ∀ height round blockHash id vote,
        (votesForBlock (onVote config machine ctx delivered).1 height round blockHash).lookup id = some vote →
          Signed id height round blockHash := by
      rcases effect.recorded with same | ⟨valid, -, recorded⟩
      · intro height round blockHash id vote found
        simp only [votesForBlock, same] at found
        exact genuine.votes height round blockHash id vote found
      · have signed := validate_vote_signed (genuine.validatorSet.symm ▸ sound) checking valid
        obtain ⟨height, round, blockHash, validatorID⟩ := ensure_vote_fields config delivered
        rw [height, round, blockHash, validatorID] at signed
        intro height round blockHash id vote found
        rcases recorded_lookup recorded found with earlier | ⟨rfl, rfl, rfl, rfl, -⟩
        · exact genuine.votes _ _ _ _ _ earlier
        · exact signed
    have built : ∀ qc, buildQuorumCert config (onVote config machine ctx delivered).1 delivered.height delivered.round
        delivered.blockHash = .ok qc → Backed set Signed qc := by
      intro qc certificate
      have backed := built_cert_backed votes certificate
      rwa [effect.validatorSet, genuine.validatorSet] at backed
    refine ⟨effect.validatorSet.trans genuine.validatorSet, on_vote_chain_sound genuine.chain ctx delivered, ?_, ?_, votes, ?_⟩
    · intro present
      rcases effect.certified with ⟨tree, -⟩ | ⟨qc, certificate, set, -⟩
      · simp only [step, tree] at present ⊢
        exact genuine.high present
      · rcases set_cert_high_qc set with kept | ⟨raised, -⟩
        · simp only [step, kept] at present ⊢
          exact genuine.high present
        · simp only [step, raised]
          exact built qc certificate
    · intro present
      rcases effect.certified with ⟨-, locked⟩ | ⟨qc, certificate, -, locked | locked⟩
      · simp only [step, locked] at present ⊢
        exact genuine.locked present
      · simp only [step, locked] at present ⊢
        exact genuine.locked present
      · simp only [step, locked]
        exact built qc certificate
    · intro height round id stored found
      simp only [step, effect.timeouts] at found
      exact genuine.timeouts height round id stored found
  | timeoutVote order ctx delivered =>
    have effect := on_timeout_effect config machine order ctx delivered
    have timeouts : ∀ height round id stored,
        ((onTimeoutVote config machine order ctx delivered).1.timeouts.votesForRound height round).lookup id = some stored →
          stored.highQC.height ≠ 0 → Backed set Signed stored.highQC := by
      intro height round id stored found present
      rcases effect.collected height round id stored found with earlier | same
      · exact genuine.timeouts height round id stored earlier present
      · rw [same] at present ⊢
        exact carried present
    refine ⟨effect.validatorSet.trans genuine.validatorSet, on_timeout_chain_sound genuine.chain order ctx delivered,
      ?_, ?_, ?_, timeouts⟩
    · intro present
      rcases effect.highQC with kept | ⟨height, round, id, stored, found, raised⟩
      · simp only [step, kept] at present ⊢
        exact genuine.high present
      · simp only [step, raised] at present ⊢
        exact timeouts height round id stored found present
    · intro present
      simp only [step, effect.lockedQC] at present ⊢
      exact genuine.locked present
    · intro height round blockHash id vote found
      simp only [step, votesForBlock, effect.votes] at found
      exact genuine.votes height round blockHash id vote found

theorem run_genuine (checking : config.signatures = some verify) (sound : VerifySound verify set Signed) (events : List Event)
    (carried : ∀ event ∈ events, event.carried.height ≠ 0 → Backed set Signed event.carried) (machine : StateMachine)
    (genuine : CertificatesGenuine config set Signed machine) : CertificatesGenuine config set Signed (run config machine events) := by
  induction events generalizing machine with
  | nil => exact genuine
  | cons event rest ih =>
    have next := step_genuine checking sound genuine event (carried event List.mem_cons_self)
    exact ih (List.forall_mem_cons.mp carried).2 _ next

-- No step verifies a carried certificate, so they have to be genuine on delivery.
theorem relied_on_certificates_backed (config : StateMachineConfig) (verify : VerifySignature) (set : SetSnapshot)
    (Signed : SignedVotes) (checking : config.signatures = some verify) (sound : VerifySound verify set Signed)
    (events : List Event) (carried : ∀ event ∈ events, event.carried.height ≠ 0 → Backed set Signed event.carried) :
    let machine := run config (newStateMachine config set) events
    (machine.blockTree.highQC.height ≠ 0 → Backed set Signed machine.blockTree.highQC) ∧
      (machine.lockedQC.height ≠ 0 → Backed set Signed machine.lockedQC) ∧
      ∀ decision ∈ machine.committed, DecisionBacked config (fun _ => True) (Backed set Signed) decision := by
  have genuine := run_genuine checking sound events carried _ (genuine_new config set Signed)
  exact ⟨genuine.high, genuine.locked, genuine.chain.decisions⟩

def fourValidators : SetSnapshot :=
  ⟨[⟨utf8 "a", utf8 "a-pub", 1, 0⟩, ⟨utf8 "b", utf8 "b-pub", 1, 0⟩, ⟨utf8 "c", utf8 "c-pub", 1, 0⟩, ⟨utf8 "d", utf8 "d-pub", 1, 0⟩]⟩

-- Signatures of the one faulty validator verify and no others exist.
def faultyOnly : VerifySignature := fun publicKey _ signature => publicKey = utf8 "d-pub" ∧ signature ≠ []

def faultyOnlyConfig : StateMachineConfig := ⟨utf8 "vexo", hashBlock, some faultyOnly, none, false, id⟩

def faultySigned : SignedVotes := fun id _ _ _ => id = utf8 "d"

def claimedParent : Hash := ⟨List.replicate 32 1, ones_length⟩

def inventedCert : QuorumCert := ⟨1, 0, claimedParent, utf8 "a,b,c", utf8 "none", 3⟩

def inventingProposal : Proposal :=
  ⟨⟨⟨utf8 "vexo", 2, 0, claimedParent, zeroHash, fourValidators.hash, zeroHash, zeroHash⟩, []⟩, 0, utf8 "d", inventedCert, utf8 "d-sig"⟩

theorem faulty_verify_sound : VerifySound faultyOnly fourValidators faultySigned := by
  intro id validator height round blockHash message signature found _ accepted
  obtain ⟨member, rfl⟩ := get_some found
  simp only [faultyOnly, decide_eq_true_eq] at accepted
  have owner : ∀ validator ∈ fourValidators.validators, validator.publicKey = utf8 "d-pub" → validator.id = utf8 "d" := by
    with_unfolding_all decide
  exact owner validator member accepted.1

theorem invented_not_backed : ¬ Backed fourValidators faultySigned inventedCert := by
  rintro ⟨signers, distinct, -, -, reached, signed⟩
  have only : signers ⊆ [utf8 "d"] := fun signer member => List.mem_singleton.mpr (signed signer member)
  have short := (distinct.subperm only).length_le
  have threshold : (twoThirdsQuorumThreshold fourValidators.totalVotingPower).toNat = 3 := by decide
  have power : fourValidators.powerOf (utf8 "d") = 1 := by with_unfolding_all decide
  rw [threshold] at reached
  match signers with
  | [] => simp at reached
  | [signer] =>
    have faulty : signer = utf8 "d" := signed signer (by simp)
    simp [faulty, power] at reached
  | _ :: _ :: _ => simp at short

theorem invented_cert_becomes_high_qc : VerifySound faultyOnly fourValidators faultySigned ∧
      (run faultyOnlyConfig (newStateMachine faultyOnlyConfig fourValidators)
        [.proposal [] Context.background inventingProposal]).blockTree.highQC = inventedCert ∧
      inventedCert.height ≠ 0 ∧ ¬ Backed fourValidators faultySigned inventedCert :=
  ⟨faulty_verify_sound, by decide +kernel, by decide, invented_not_backed⟩

def quorumSigned : SignedVotes := fun id height round blockHash =>
  id = utf8 "d" ∨ (id ∈ [utf8 "a", utf8 "b", utf8 "c"] ∧ height = 1 ∧ round = 0 ∧ blockHash = claimedParent)

theorem certified_by_three : Backed fourValidators quorumSigned inventedCert := by
  refine ⟨[utf8 "a", utf8 "b", utf8 "c"], ?_, ?_, ?_, ?_, ?_⟩
  · with_unfolding_all decide
  · with_unfolding_all decide
  · with_unfolding_all decide
  · with_unfolding_all decide
  · intro signer member
    exact .inr ⟨member, rfl, rfl, rfl⟩

theorem certified_proposal_high_qc_backed :
    let machine := run faultyOnlyConfig (newStateMachine faultyOnlyConfig fourValidators)
      [.proposal [] .background inventingProposal]
    machine.blockTree.highQC.height ≠ 0 ∧ Backed fourValidators quorumSigned machine.blockTree.highQC := by
  have present : (run faultyOnlyConfig (newStateMachine faultyOnlyConfig fourValidators)
      [.proposal [] .background inventingProposal]).blockTree.highQC.height ≠ 0 := by decide +kernel
  have sound : VerifySound faultyOnly fourValidators quorumSigned := by
    intro id validator height round blockHash message signature found wrapped accepted
    exact .inl (faulty_verify_sound id validator height round blockHash message signature found wrapped accepted)
  refine ⟨present, (relied_on_certificates_backed faultyOnlyConfig faultyOnly fourValidators quorumSigned rfl sound
    [.proposal [] .background inventingProposal] ?_).1 present⟩
  intro event member _
  rw [List.mem_singleton.mp member]
  exact certified_by_three

end

inductive Call where
  | deliver (event : Event)
  | observeCommittedBlock (block : Block) (quorumCert : QuorumCert)
  | updateValidatorSet (validatorSet : SetSnapshot)
  | startRound (height : Height) (round : Round)

variable (config : StateMachineConfig) (machine : StateMachine)

def perform : Call → StateMachine
  | .deliver event => step config machine event
  | .observeCommittedBlock block quorumCert => (observeCommittedBlock config machine block quorumCert).1
  | .updateValidatorSet validatorSet => updateValidatorSet config machine validatorSet
  | .startRound height round => startRound machine height round

def performAll (calls : List Call) : StateMachine :=
  calls.foldl (perform config) machine

variable (set : SetSnapshot)

def VoteVerifies (id : ValidatorID) (height : Height) (round : Round) (blockHash : Hash) (signature : Signature) : Prop :=
  ∀ verify, config.signatures = some verify → ∀ validator, set.get id = some validator →
    ∃ message, Crypto.domainMessage Crypto.domainConsensusVote (Signbytes.vote height round blockHash) = .ok message ∧
      verify validator.publicKey message signature = true

def VotesVerify (machine : StateMachine) : Prop :=
  ∀ height round blockHash id vote, (votesForBlock machine height round blockHash).lookup id = some vote →
    VoteVerifies config set id height round blockHash vote.signature

def PlainIDs : Prop := ∀ validator ∈ set.validators, validator.id ≠ [] ∧ comma ∉ validator.id

-- Signer lists are joined by commas, and the votes already stored are kept when the set changes.
def Installs : Call → Prop
  | .updateValidatorSet validatorSet => PlainIDs validatorSet ∧ VotesVerify config validatorSet machine
  | _ => True

def AllInstall (config : StateMachineConfig) : StateMachine → List Call → Prop
  | _, [] => True
  | machine, call :: rest => Installs config machine call ∧ AllInstall config (perform config machine call) rest

structure AggregateCorrect (signatures : Option SignatureVerifier) : Prop where
  present : ∀ aggregate, config.aggregator = some aggregate → ∀ votes aggregated, votes ≠ [] → aggregate votes = .ok aggregated → aggregated ≠ []
  verifies : ∀ inner, signatures = some inner → ∃ verify, config.signatures = some verify ∧
    ∀ aggregate, config.aggregator = some aggregate → ∀ message keys votes aggregated, keys ≠ [] →
      List.Forall₂ (fun key vote => verify key message vote = true) keys votes → aggregate votes = .ok aggregated →
      inner.verifyAggregate keys message aggregated = true

structure CertificateReady : Prop where
  plain : PlainIDs machine.validatorSet
  votes : VotesVerify config machine.validatorSet machine

variable {config : StateMachineConfig} {machine : StateMachine}

theorem ready_new (config : StateMachineConfig) {set : SetSnapshot} (plain : PlainIDs set) :
    CertificateReady config (newStateMachine config set) := by
  refine ⟨plain, ?_⟩
  intro height round blockHash id vote found
  simp [newStateMachine, votesForBlock] at found

theorem ready_of_same {next : StateMachine} (ready : CertificateReady config machine)
    (sets : next.validatorSet = machine.validatorSet) (votes : next.votes = machine.votes) : CertificateReady config next := by
  refine ⟨sets ▸ ready.plain, ?_⟩
  intro height round blockHash id vote found
  simp only [votesForBlock, votes] at found
  rw [sets]
  exact ready.votes height round blockHash id vote found

theorem validate_vote_verifies {vote : Vote} (valid : validateVote config machine vote = .ok ()) :
    VoteVerifies config machine.validatorSet vote.validatorID vote.height vote.round vote.blockHash vote.signature := by
  intro verify checking validator found
  simp only [validateVote, verifyVoteSignature, verifySignature, checking, found, ok_iff] at valid
  obtain ⟨-, -, ⟨-, message, wrapped, accepted⟩, -⟩ := valid
  exact ⟨message, wrapped, accepted⟩

theorem on_vote_ready (ready : CertificateReady config machine) (ctx : Context) (vote : Vote) :
    CertificateReady config (onVote config machine ctx vote).1 := by
  have effect := on_vote_effect config machine ctx vote
  rcases effect.recorded with same | ⟨valid, -, recorded⟩
  · exact ready_of_same ready effect.validatorSet same
  · refine ⟨effect.validatorSet ▸ ready.plain, ?_⟩
    have fresh := validate_vote_verifies valid
    obtain ⟨sameHeight, sameRound, sameHash, sameID⟩ := ensure_vote_fields config vote
    rw [sameHeight, sameRound, sameHash, sameID] at fresh
    rw [effect.validatorSet]
    intro height round blockHash id stored found
    rcases recorded_lookup recorded found with earlier | ⟨rfl, rfl, rfl, rfl, rfl⟩
    · exact ready.votes _ _ _ _ _ earlier
    · exact fresh

theorem perform_ready (ready : CertificateReady config machine) (call : Call) (installs : Installs config machine call) :
    CertificateReady config (perform config machine call) := by
  cases call with
  | deliver event =>
    cases event with
    | proposal order ctx delivered =>
      obtain ⟨sets, -, votes, -⟩ := on_proposal_high_qc config machine order ctx delivered
      exact ready_of_same ready sets votes
    | vote ctx delivered => exact on_vote_ready ready ctx delivered
    | timeoutVote order ctx delivered =>
      have effect := on_timeout_effect config machine order ctx delivered
      exact ready_of_same ready effect.validatorSet effect.votes
  | observeCommittedBlock block quorumCert =>
    have effect := observe_committed_effect config machine block quorumCert
    exact ready_of_same ready effect.validatorSet effect.votes
  | updateValidatorSet validatorSet => exact ⟨installs.1, installs.2⟩
  | startRound height round => exact ready_of_same ready rfl rfl

theorem perform_all_ready (calls : List Call) (machine : StateMachine) (ready : CertificateReady config machine)
    (installs : AllInstall config machine calls) : CertificateReady config (performAll config machine calls) := by
  induction calls generalizing machine with
  | nil => exact ready
  | cons call rest ih => exact ih _ (perform_ready ready call installs.1) installs.2

-- The two filtered lists run over the same signers, so keys and signatures stay paired.
theorem signatures_verify {set : SetSnapshot} {verify : VerifySignature} {message : Bytes} {votes : Table ValidatorID Vote}
    (signers : List ValidatorID) (members : ∀ signer ∈ signers, ∃ validator, set.get signer = some validator)
    (stored : ∀ signer ∈ signers, ∃ vote, votes.lookup signer = some vote)
    (valid : ∀ signer validator vote, set.get signer = some validator → votes.lookup signer = some vote →
      verify validator.publicKey message vote.signature = true) :
    Forall₂ (fun key signature => verify key message signature = true) (keysOf set signers)
      (signers.filterMap fun id => (votes.lookup id).map Vote.signature) := by
  induction signers with
  | nil => exact .nil
  | cons signer rest ih =>
    obtain ⟨validator, found⟩ := members signer mem_cons_self
    obtain ⟨vote, looked⟩ := stored signer mem_cons_self
    have later := ih (forall_mem_cons.mp members).2
      (forall_mem_cons.mp stored).2
    simpa [keysOf, found, looked] using ⟨valid signer validator vote found looked, later⟩

theorem aggregate_signatures_ok {aggregator : Option AggregateSigner} {signatures : List Signature} {aggregated : AggregateSignature}
    (built : aggregateSignatures aggregator signatures = .ok aggregated) :
    ∃ aggregate, aggregator = some aggregate ∧ aggregate signatures = .ok aggregated := by
  cases given : aggregator with
  | none => simp [aggregateSignatures, given] at built
  | some aggregate =>
    simp only [aggregateSignatures, given, ok_iff] at built
    exact ⟨aggregate, rfl, built.2⟩

structure CertSigners (machine : StateMachine) (height : Height) (round : Round) (blockHash : Hash) (signers : List ValidatorID) : Prop where
  someone : signers ≠ []
  distinct : signers.Nodup
  voted : ∀ signer ∈ signers, ∃ vote, (votesForBlock machine height round blockHash).lookup signer = some vote
  known : ∀ signer ∈ signers, ∃ validator, machine.validatorSet.get signer = some validator

def signaturesOf (machine : StateMachine) (height : Height) (round : Round) (blockHash : Hash) (signers : List ValidatorID) : List Signature :=
  signers.filterMap fun id => ((votesForBlock machine height round blockHash).lookup id).map Vote.signature

theorem build_quorum_cert_signers {height : Height} {round : Round} {blockHash : Hash} {qc : QuorumCert}
    (built : buildQuorumCert config machine height round blockHash = .ok qc) :
    ∃ signers power signature aggregate, CertSigners machine height round blockHash signers ∧
      power.toNat = (signers.map machine.validatorSet.powerOf).sum ∧
      hasTwoThirdsQuorum power machine.validatorSet.totalVotingPower = true ∧ config.aggregator = some aggregate ∧
      aggregate (signaturesOf machine height round blockHash signers) = .ok signature ∧
      qc = ⟨height, round, blockHash, encodeSigners signers, signature, power⟩ := by
  obtain ⟨members, power, signature, membersEq, powerEq, quorum, aggregated, rfl⟩ := build_quorum_cert_ok built
  obtain ⟨aggregate, given, aggregated⟩ := aggregate_signatures_ok aggregated
  have sorted : (sortedIDs members).Perm members := perm_insertionSort _ _
  have sum : power.toNat = ((sortedIDs members).map machine.validatorSet.powerOf).sum := by
    rw [powerEq, (sorted.map _).sum_eq]
  have kept : ∀ signer ∈ sortedIDs members, signer ∈ (votesForBlock machine height round blockHash).keys ∧
      (machine.validatorSet.get signer).isSome := by
    intro signer member
    have listed := sorted.mem_iff.mp member
    rw [membersEq] at listed
    exact mem_filter.mp listed
  refine ⟨sortedIDs members, power, signature, aggregate, ⟨?_, ?_, ?_, ?_⟩, sum, quorum, given, aggregated, rfl⟩
  · intro none
    obtain ⟨positive, reached⟩ := (has_quorum_iff _ _).mp quorum
    simp only [none, map_nil, sum_nil] at sum
    omega
  · rw [sorted.nodup_iff, membersEq]
    exact (votesForBlock machine height round blockHash).keys_nodup.filter fun id => (machine.validatorSet.get id).isSome
  · intro signer member
    exact Option.isSome_iff_exists.mp (AList.lookup_isSome.mpr (AList.mem_keys.mpr (kept signer member).1))
  · intro signer member
    exact Option.isSome_iff_exists.mp (kept signer member).2

theorem aggregate_accepted {signatures : Option SignatureVerifier} (correct : AggregateCorrect config signatures)
    (ready : CertificateReady config machine) (strict : Bool) {height : Height} {round : Round} {blockHash : Hash}
    {signers : List ValidatorID} (listed : CertSigners machine height round blockHash signers) {aggregate : AggregateSigner}
    (given : config.aggregator = some aggregate) {signature : AggregateSignature}
    (aggregated : aggregate (signaturesOf machine height round blockHash signers) = .ok signature) :
    signature ≠ [] ∧ (newVerifier machine.validatorSet signatures strict).signaturesAccept (keysOf machine.validatorSet signers)
      (Signbytes.vote height round blockHash) signature = true := by
  obtain ⟨first, firstListed⟩ := exists_mem_of_ne_nil _ listed.someone
  obtain ⟨firstVote, firstVoted⟩ := listed.voted first firstListed
  obtain ⟨firstValidator, firstFound⟩ := listed.known first firstListed
  have someVote : signaturesOf machine height round blockHash signers ≠ [] := by
    intro empty
    have missing := filterMap_eq_nil_iff.mp empty first firstListed
    simp [firstVoted] at missing
  have someKey : keysOf machine.validatorSet signers ≠ [] := by
    intro empty
    have missing := filterMap_eq_nil_iff.mp empty first firstListed
    simp [firstFound] at missing
  refine ⟨correct.present aggregate given _ signature someVote aggregated, ?_⟩
  cases checks : signatures with
  | none => rfl
  | some inner =>
    obtain ⟨verify, checking, verifies⟩ := correct.verifies inner checks
    obtain ⟨message, wrapped, -⟩ := ready.votes _ _ _ _ _ firstVoted verify checking firstValidator firstFound
    have valid : ∀ signer validator vote, machine.validatorSet.get signer = some validator →
        (votesForBlock machine height round blockHash).lookup signer = some vote →
        verify validator.publicKey message vote.signature = true := by
      intro signer validator vote found looked
      obtain ⟨message', wrapped', accepted⟩ := ready.votes _ _ _ _ _ looked verify checking validator found
      rw [wrapped] at wrapped'
      cases wrapped'
      exact accepted
    have paired := signatures_verify signers listed.known listed.voted valid
    have accepted := verifies aggregate given message _ _ signature someKey paired aggregated
    simpa [newVerifier, Verifier.signaturesAccept, domainAggregateVerifier, wrapped] using accepted

theorem built_certs_accepted (config : StateMachineConfig) (signatures : Option SignatureVerifier)
    (correct : AggregateCorrect config signatures) (set : SetSnapshot) (plain : PlainIDs set) (calls : List Call)
    (installs : AllInstall config (newStateMachine config set) calls) (strict : Bool) (height : Height) (round : Round)
    (blockHash : Hash) (qc : QuorumCert)
    (built : buildQuorumCert config (performAll config (newStateMachine config set) calls) height round blockHash = .ok qc) :
    let validatorSet := (performAll config (newStateMachine config set) calls).validatorSet
    let verifier := newVerifier validatorSet signatures strict
    let signBytes := Signbytes.vote height round blockHash
    verifier.verifyQuorumCert .background qc height blockHash signBytes = .ok () ∧
      ∃ signers, QuorumBacked verifier qc signBytes signers ∧ qc.votingPower.toNat = (signers.map validatorSet.powerOf).sum := by
  intro validatorSet verifier signBytes
  have ready := perform_all_ready calls _ (ready_new config plain) installs
  obtain ⟨signers, power, signature, aggregate, listed, sum, quorum, given, aggregated, rfl⟩ := build_quorum_cert_signers built
  obtain ⟨present, signed⟩ := aggregate_accepted correct ready strict listed given aggregated
  have plainSigner : ∀ signer ∈ signers, signer ≠ [] ∧ comma ∉ signer := by
    intro signer member
    obtain ⟨validator, found⟩ := listed.known signer member
    obtain ⟨inSet, rfl⟩ := get_some found
    exact ready.plain validator inSet
  have parsed := parse_encode_signers signers (fun signer member => (plainSigner signer member).1)
    fun signer member => (plainSigner signer member).2
  have reached := (has_quorum_iff _ _).mp quorum
  rw [sum] at reached
  have backed : QuorumBacked verifier ⟨height, round, blockHash, encodeSigners signers, signature, power⟩ signBytes signers :=
    ⟨parsed, listed.distinct, listed.known, reached, signed⟩
  exact ⟨verify_quorum_cert_of present backed sum, signers, backed, sum⟩

-- A scheme whose signatures are the public keys: nothing below depends on how hard a signature is to make.
def echoVerify : VerifySignature := fun publicKey _ signature => publicKey ≠ [] ∧ signature = publicKey

def echoAggregate : AggregateSigner := fun signatures => .ok (comma :: signatures.flatten)

def echoSignatures : SignatureVerifier := ⟨fun publicKeys _ signature => signature = comma :: publicKeys.flatten⟩

def echoConfig : StateMachineConfig := ⟨utf8 "vexo", hashBlock, some echoVerify, some echoAggregate, false, id⟩

theorem echo_correct : AggregateCorrect echoConfig (some echoSignatures) := by
  refine ⟨?_, ?_⟩
  · rintro aggregate ⟨⟩ votes aggregated - ⟨⟩
    exact cons_ne_nil _ _
  · rintro inner ⟨⟩
    refine ⟨_, rfl, ?_⟩
    rintro aggregate ⟨⟩ message keys votes aggregated - paired ⟨⟩
    have same : votes = keys := by
      induction paired with
      | nil => rfl
      | cons verified _ ih =>
        simp only [echoVerify, Bool.decide_and, Bool.and_eq_true, decide_eq_true_eq] at verified
        rw [verified.2, ih]
    simp [echoSignatures, same]

def soleBlock : Block := ⟨⟨utf8 "vexo", 1, 0, zeroHash, zeroHash, set.hash, zeroHash, zeroHash⟩, []⟩

def soleRun (validator : Validator) : List Call :=
  let block := soleBlock ⟨[validator]⟩
  [.deliver (.proposal [] Context.background ⟨block, 0, validator.id, zeroQC, validator.publicKey⟩),
    .deliver (.vote Context.background ⟨1, 0, hashBlock block, validator.id, validator.publicKey⟩)]

def builtVerdict (initial : SetSnapshot) (calls : List Call) (blockHash : Hash) : Option (Except Err Unit) :=
  let machine := performAll echoConfig (newStateMachine echoConfig initial) calls
  (buildQuorumCert echoConfig machine 1 0 blockHash).toOption.map fun qc =>
    (newVerifier machine.validatorSet (some echoSignatures) true).verifyQuorumCert Context.background qc 1 blockHash
      (Signbytes.vote 1 0 blockHash)

def commaValidator : Validator := ⟨utf8 "a,b", utf8 "key", 1, 1⟩
def plainValidator : Validator := ⟨utf8 "a", utf8 "key", 1, 1⟩
def rotatedValidator : Validator := { plainValidator with publicKey := utf8 "new key" }

-- The registry admits the comma, and a key may be replaced while the votes under the old one stay stored.
theorem built_certs_rejected : AggregateCorrect echoConfig (some echoSignatures) ∧ ((newInMemoryRegistry none []).bind fun registry =>
        (registry.applyJoinAt Context.background 1 ⟨utf8 "a,b", utf8 "key", 1⟩).1.validatorSet Context.background 1) = .ok ⟨[commaValidator]⟩ ∧
      builtVerdict ⟨[commaValidator]⟩ (soleRun commaValidator) (hashBlock (soleBlock ⟨[commaValidator]⟩)) = some (.error .unknownSigner) ∧
      builtVerdict ⟨[plainValidator]⟩ (soleRun plainValidator ++ [.updateValidatorSet ⟨[rotatedValidator]⟩])
        (hashBlock (soleBlock ⟨[plainValidator]⟩)) = some (.error .missingQCSignature) := by
  refine ⟨echo_correct, ?_, ?_, ?_⟩ <;> decide +kernel

def joinedRun : List Call := .updateValidatorSet ⟨[plainValidator]⟩ :: soleRun plainValidator
def joined : StateMachine := performAll echoConfig (newStateMachine echoConfig ⟨[]⟩) joinedRun
def joinedHash : Hash := hashBlock (soleBlock ⟨[plainValidator]⟩)

theorem built_cert_accepted_after_join : ∃ qc, buildQuorumCert echoConfig joined 1 0 joinedHash = .ok qc ∧
      (newVerifier joined.validatorSet (some echoSignatures) true).verifyQuorumCert Context.background qc 1 joinedHash
        (Signbytes.vote 1 0 joinedHash) = .ok () := by
  have success : (buildQuorumCert echoConfig joined 1 0 joinedHash).toOption.isSome = true := by decide +kernel
  cases built : buildQuorumCert echoConfig joined 1 0 joinedHash with
  | error reason => simp [built, Except.toOption] at success
  | ok qc =>
    have plain : ∀ validator ∈ [plainValidator], validator.id ≠ [] ∧ comma ∉ validator.id := by with_unfolding_all decide
    have installs : AllInstall echoConfig (newStateMachine echoConfig ⟨[]⟩) joinedRun := by
      refine ⟨⟨plain, ?_⟩, trivial, trivial, trivial⟩
      intro height round blockHash id vote found
      simp [newStateMachine, votesForBlock] at found
    have accepted := built_certs_accepted echoConfig (some echoSignatures) echo_correct ⟨[]⟩ (by simp [PlainIDs]) joinedRun installs
      true 1 0 joinedHash qc built
    exact ⟨qc, rfl, accepted.1⟩

end Vexo.Consensus
