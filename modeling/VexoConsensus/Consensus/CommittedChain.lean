import VexoConsensus.Consensus.Certificates

namespace Vexo.Consensus

open Finality Checks OrderedMap Ancestry StateTransition AList

def Possible (tree : BlockTree) (decision : CommitDecision) : Prop :=
  ∃ blockHash candidate, tree.commitCandidate blockHash = some candidate ∧ ThreeChainCommitRule.decide candidate = .ok decision

structure IndexSound (machine : StateMachine) : Prop where
  index : ∀ height blockHash, machine.commitIndex.lookup height = some blockHash →
    ∃ decision ∈ machine.committed, decision.committedHeight = height ∧ decision.committedBlockHash = blockHash
  set : ∀ blockHash ∈ machine.committedSet, ∃ decision ∈ machine.committed, decision.committedBlockHash = blockHash

variable {machine : StateMachine} {decision : CommitDecision} {tree : BlockTree} {blockHash : Hash} {candidate : CommitCandidate}
variable {tree' : BlockTree} {next : StateMachine}

theorem recorded_index_sound (sound : IndexSound machine) (effect : DecisionRecorded machine decision next) : IndexSound next := by
  constructor
  · intro height blockHash found
    rw [effect.commitIndex] at found
    rcases lookup_insert_cases found with ⟨rfl, rfl⟩ | ⟨-, earlier⟩
    · exact ⟨decision, (effect.committed _).mpr (.inr rfl), rfl, rfl⟩
    · obtain ⟨old, member, matching⟩ := sound.index height blockHash earlier
      exact ⟨old, (effect.committed _).mpr (.inl member), matching⟩
  · intro blockHash member
    rw [effect.committedSet] at member
    rcases List.mem_cons.mp member with rfl | earlier
    · exact ⟨decision, (effect.committed _).mpr (.inr rfl), rfl⟩
    · obtain ⟨old, member, matching⟩ := sound.set blockHash earlier
      exact ⟨old, (effect.committed _).mpr (.inl member), matching⟩

-- Decisions at one height that agree never conflict in the index, so one pass takes every decision the tree allows.
structure Settled (machine : StateMachine) (hashes : List Hash) (next : StateMachine) : Prop where
  sound : IndexSound next
  kept : machine.committedSet ⊆ next.committedSet
  taken : ∀ blockHash ∈ hashes, ∀ candidate decision, machine.blockTree.commitCandidate blockHash = some candidate →
    ThreeChainCommitRule.decide candidate = .ok decision → decision.committedBlockHash ∈ next.committedSet

theorem commit_all_settled {Allowed : CommitDecision → Prop} (agree : ∀ first second, Allowed first → Allowed second →
      first.committedHeight = second.committedHeight → first.committedBlockHash = second.committedBlockHash)
    (decisions : List CommitDecision) (allowed : ∀ decision ∈ decisions, Allowed decision) (machine : StateMachine)
    (taken : ∀ decision ∈ machine.committed, Allowed decision) (sound : IndexSound machine) : let final := (commitAll machine decisions).1
    IndexSound final ∧ machine.committedSet ⊆ final.committedSet ∧ ∀ decision ∈ decisions, decision.committedBlockHash ∈ final.committedSet := by
  induction decisions generalizing machine with
  | nil => exact ⟨sound, List.Subset.refl _, by simp⟩
  | cons decision rest ih =>
    obtain ⟨head, tail⟩ := List.forall_mem_cons.mp allowed
    rw [commitAll]
    split
    · next known =>
      obtain ⟨indexed, kept, rest⟩ := ih tail machine taken sound
      exact ⟨indexed, kept, List.forall_mem_cons.mpr ⟨kept known, rest⟩⟩
    · split
      · next blocked =>
        obtain ⟨existing, looked, different⟩ := blocked
        obtain ⟨old, member, height, hash⟩ := sound.index _ _ looked
        exact absurd (hash.symm.trans (agree old decision (taken old member) head height)) different
      · have effect := recording_recorded machine decision
        have within : ∀ other ∈ (machine.recording decision).committed, Allowed other := by
          intro other member
          rcases (effect.committed other).mp member with old | rfl
          · exact taken other old
          · exact head
        obtain ⟨indexed, kept, rest⟩ := ih tail _ within (recorded_index_sound sound effect)
        obtain ⟨first, older⟩ := List.cons_subset.mp kept
        exact ⟨indexed, older, List.forall_mem_cons.mpr ⟨first, rest⟩⟩

theorem apply_commit_rules_settled (hashes : List Hash) (machine : StateMachine) (sound : IndexSound machine)
    (agree : ∀ first second, (first ∈ machine.committed ∨ Possible machine.blockTree first) →
      (second ∈ machine.committed ∨ Possible machine.blockTree second) →
      first.committedHeight = second.committedHeight → first.committedBlockHash = second.committedBlockHash) :
    Settled machine hashes (applyCommitRules machine hashes).1 := by
  have allowed : ∀ decision ∈ machine.blockTree.decisions hashes, decision ∈ machine.committed ∨ Possible machine.blockTree decision := by
    intro decision listed
    obtain ⟨blockHash, -, possible⟩ := decisions_iff.mp listed
    exact .inr ⟨blockHash, possible⟩
  rw [apply_commit_rules_eq]
  obtain ⟨indexed, kept, taken⟩ := commit_all_settled agree _ allowed machine (fun _ member => .inl member) sound
  exact ⟨indexed, kept, fun blockHash listed candidate decision found decides =>
    taken decision (decisions_iff.mpr ⟨blockHash, listed, candidate, found, decides⟩)⟩

-- The conditions on a block about to be stored, checkable on the tree as it is.
def BlockTree.Accommodates (tree : BlockTree) (blockHash : Hash) (block : Block) : Prop :=
  0 < block.header.height.toNat ∧ block.header.previousBlockHash ≠ blockHash ∧ ∀ entry ∈ tree.blocks.entries,
    (block.header.previousBlockHash ≠ zeroHash → entry.1 = block.header.previousBlockHash →
      entry.2.block.header.height.toNat + 1 = block.header.height.toNat) ∧
    (block.header.previousBlockHash ≠ zeroHash → entry.2.parentHash = block.header.previousBlockHash →
      entry.2.block.header.height.toNat = block.header.height.toNat) ∧
    (blockHash ≠ zeroHash → entry.2.parentHash = blockHash → entry.2.block.header.height.toNat = block.header.height.toNat + 1)

instance (tree : BlockTree) (blockHash : Hash) (block : Block) : Decidable (tree.Accommodates blockHash block) :=
  inferInstanceAs (Decidable (_ ∧ _ ∧ _))

theorem accommodates_fits {block : Block} (fits : tree.Accommodates blockHash block) :
    tree.shape.Fits blockHash block.header.previousBlockHash block.header.height.toNat := by
  obtain ⟨positive, acyclic, neighbours⟩ := fits
  have stored : ∀ {key previous : Hash} {height : Nat}, tree.shape key = some (previous, height) →
      ∃ node, Sigma.mk key node ∈ tree.blocks.entries ∧ node.parentHash = previous ∧ node.block.header.height.toNat = height := by
    intro key previous height found
    obtain ⟨node, looked, place⟩ := Option.map_eq_some_iff.mp found
    obtain ⟨rfl, rfl⟩ := Prod.mk.inj place
    exact ⟨node, mem_lookup_iff.mp looked, rfl, rfl⟩
  refine ⟨positive, acyclic, ?_, ?_, ?_⟩
  · intro nonzero earlier below found
    obtain ⟨node, member, -, rfl⟩ := stored found
    exact (neighbours _ member).1 nonzero rfl
  · intro nonzero other height found
    obtain ⟨node, member, parent, rfl⟩ := stored found
    exact (neighbours _ member).2.1 nonzero parent
  · intro nonzero child above found
    obtain ⟨node, member, parent, rfl⟩ := stored found
    exact (neighbours _ member).2.2 nonzero parent

variable {config : StateMachineConfig} {Known : Block → Prop} {Good : QuorumCert → Prop}

theorem decide_present (decides : ThreeChainCommitRule.decide candidate = .ok decision) :
    candidate.parentHash ≠ zeroHash ∧ candidate.grandparentHash ≠ zeroHash ∧ candidate.parentHeight ≠ 0 := by
  simp only [ThreeChainCommitRule.decide, ok_iff] at decides
  obtain ⟨⟨-, parent, grandparent⟩, -, -, ⟨-, parentHeight, -⟩, -⟩ := decides
  exact ⟨parent, grandparent, parentHeight⟩

theorem next_height_to_nat {height next : Height} (follows : next = height + 1) (present : next ≠ 0) : next.toNat = height.toNat + 1 := by
  have bound := height.toNat_lt
  have nonzero : next.toNat ≠ 0 := fun zero => present (UInt64.toNat_inj.mp zero)
  rw [follows, UInt64.toNat_add] at nonzero ⊢
  have one : (1 : UInt64).toNat = 1 := rfl
  omega

structure CandidateLinks (tree : BlockTree) (decision : CommitDecision) (blockHash : Hash) (node parent : BlockNode) : Prop where
  block : tree.get blockHash = some node
  justified : node.justifyQC.height ≠ 0
  parentBlock : tree.get node.justifyQC.blockHash = some parent
  parentJustified : parent.justifyQC.height ≠ 0
  link : tree.shape.parent blockHash = some node.justifyQC.blockHash
  parentLink : tree.shape.parent node.justifyQC.blockHash = some decision.committedBlockHash
  level : tree.shape.Level decision.committedBlockHash decision.committedHeight.toNat

section

variable (nodes : ∀ key node, tree.get key = some node → NodeSound config Known Good key node)
include nodes

theorem candidate_links (found : tree.commitCandidate blockHash = some candidate) (decides : ThreeChainCommitRule.decide candidate = .ok decision) :
    ∃ node parent, CandidateLinks tree decision blockHash node parent := by
  obtain ⟨node, parent, nodeFound, justified, parentFound, parentJustified, rfl⟩ := commit_candidate_some found
  obtain ⟨blockLink, parentHeight, -, -, -, rfl⟩ := decide_ok decides
  obtain ⟨parentPresent, grandparentPresent, heightPresent⟩ := decide_present decides
  have nodeSound := nodes _ _ nodeFound
  have parentSound := nodes _ _ parentFound
  have nodePlace : tree.shape blockHash = some (node.justifyQC.blockHash, node.block.header.height.toNat) := by
    rw [(nodeSound.justified justified).1, ← nodeSound.parent]
    simp [BlockTree.shape, nodeFound, BlockNode.place]
  have parentPlace : tree.shape node.justifyQC.blockHash = some (parent.justifyQC.blockHash, parent.justifyQC.height.toNat + 1) := by
    rw [← next_height_to_nat parentHeight heightPresent, (parentSound.justified parentJustified).1, ← parentSound.parent]
    simp [BlockTree.shape, parentFound, BlockNode.place]
  refine ⟨node, parent, nodeFound, justified, parentFound, parentJustified, shape_parent_of nodePlace ?_,
    shape_parent_of parentPlace grandparentPresent, .inr ⟨grandparentPresent, _, parentPlace⟩⟩
  rw [blockLink]
  exact parentPresent

theorem possible_level (possible : Possible tree decision) : tree.shape.Level decision.committedBlockHash decision.committedHeight.toNat := by
  obtain ⟨blockHash, candidate, found, decides⟩ := possible
  obtain ⟨node, parent, links⟩ := candidate_links nodes found decides
  exact links.level

end

theorem commit_candidate_eq {node parent : BlockNode} (found : tree.get blockHash = some node) (found' : tree'.get blockHash = some node)
    (parentFound : tree.get node.justifyQC.blockHash = some parent) (parentFound' : tree'.get node.justifyQC.blockHash = some parent) :
    tree.commitCandidate blockHash = tree'.commitCandidate blockHash := by
  simp only [BlockTree.commitCandidate, found, found', parentFound, parentFound']

variable {justifyQC : QuorumCert}

theorem possible_after_insert {block : Block}
    (nodes : ∀ key node, (tree.insert block blockHash justifyQC).get key = some node → NodeSound config Known Good key node) (possible : Possible (tree.insert block blockHash justifyQC) decision) :
    Possible tree decision ∨ Reaches (tree.insert block blockHash justifyQC).shape.parent blockHash decision.committedBlockHash := by
  obtain ⟨key, candidate, found, decides⟩ := possible
  obtain ⟨node, parent, links⟩ := candidate_links nodes found decides
  rcases insert_get_cases links.block with ⟨rfl, -⟩ | ⟨-, nodeFound⟩
  · exact .inr (.head links.link (.single links.parentLink))
  · rcases insert_get_cases links.parentBlock with ⟨same, -⟩ | ⟨-, parentFound⟩
    · have reached := links.parentLink
      rw [same] at reached
      exact .inr (.single reached)
    · refine .inl ⟨key, candidate, ?_, decides⟩
      rw [commit_candidate_eq nodeFound links.block parentFound links.parentBlock, found]

theorem possible_insert_unjustified {block : Block}
    (nodes : ∀ key node, (tree.insert block blockHash zeroQC).get key = some node → NodeSound config Known Good key node) (possible : Possible (tree.insert block blockHash zeroQC) decision) : Possible tree decision := by
  obtain ⟨key, candidate, found, decides⟩ := possible
  obtain ⟨node, parent, links⟩ := candidate_links nodes found decides
  rcases insert_get_cases links.block with ⟨-, rfl⟩ | ⟨-, nodeFound⟩
  · exact absurd rfl links.justified
  · rcases insert_get_cases links.parentBlock with ⟨-, rfl⟩ | ⟨-, parentFound⟩
    · exact absurd rfl links.parentJustified
    · refine ⟨key, candidate, ?_, decides⟩
      rw [commit_candidate_eq nodeFound links.block parentFound links.parentBlock, found]

theorem commit_candidate_congr (cert : Hash → BlockNode → QuorumCert)
    (same : ∀ key, tree'.get key = (tree.get key).map fun node => { node with quorumCert := cert key node }) (blockHash : Hash) :
    tree'.commitCandidate blockHash = tree.commitCandidate blockHash := by
  unfold BlockTree.commitCandidate
  rw [same]
  cases tree.get blockHash with
  | none => rfl
  | some node =>
    simp only [Option.map_some]
    by_cases unjustified : node.justifyQC.height = 0
    · simp only [unjustified, if_true]
    · simp only [unjustified, if_false, same]
      cases tree.get node.justifyQC.blockHash with
      | none | some parent => rfl

theorem set_cert_candidate {next : BlockTree} {qc : QuorumCert} (set : tree.setQuorumCert qc = .ok next) (blockHash : Hash) :
    next.commitCandidate blockHash = tree.commitCandidate blockHash := by
  refine commit_candidate_congr (fun key node => if key = qc.blockHash then qc else node.quorumCert) ?_ blockHash
  intro key
  obtain ⟨-, -, node, found, -, rfl⟩ := set_quorum_cert_ok set
  simp only [BlockTree.get, observe_blocks] at found ⊢
  by_cases same : key = qc.blockHash
  · subst same
    simp [found]
  · rw [lookup_insert_ne same]
    cases tree.blocks.lookup key <;> simp [same]

theorem possible_congr (same : ∀ blockHash, tree'.commitCandidate blockHash = tree.commitCandidate blockHash) (possible : Possible tree' decision) : Possible tree decision := by
  obtain ⟨blockHash, candidate, found, decides⟩ := possible
  exact ⟨blockHash, candidate, same blockHash ▸ found, decides⟩

structure Linked (config : StateMachineConfig) (Known : Block → Prop) (machine : StateMachine) : Prop where
  chain : ChainSound config Known (fun _ => True) machine
  heights : machine.blockTree.shape.HeightsSound
  levels : ∀ decision ∈ machine.committed, machine.blockTree.shape.Level decision.committedBlockHash decision.committedHeight.toNat
  oneChain : ∀ first ∈ machine.committed, ∀ second ∈ machine.committed,
    OneChain machine.blockTree.shape.parent first.committedBlockHash second.committedBlockHash
  index : IndexSound machine
  decided : ∀ decision, Possible machine.blockTree decision → decision.committedBlockHash ∈ machine.committedSet

theorem linked_new (set : SetSnapshot) : Linked config Known (newStateMachine config set) := by
  have empty : ∀ key, (newStateMachine config set).blockTree.shape key = none := fun _ => rfl
  refine ⟨chain_sound_new set, ⟨?_, ?_, ?_⟩, by simp [newStateMachine], by simp [newStateMachine], ⟨?_, ?_⟩, ?_⟩
  · intro key previous height stored
    rw [empty] at stored
    contradiction
  · intro key previous height stored
    rw [empty] at stored
    contradiction
  · intro previous first second height height' stored
    rw [empty] at stored
    contradiction
  · intro height blockHash found
    simp [newStateMachine] at found
  · intro blockHash member
    simp [newStateMachine] at member
  · rintro decision ⟨blockHash, candidate, found, -⟩
    simp [newStateMachine, newBlockTree, BlockTree.commitCandidate, BlockTree.get] at found

section

variable (linked : Linked config Known machine)
include linked

theorem linked_of_grown (chain : ChainSound config Known (fun _ => True) next) (heights : next.blockTree.shape.HeightsSound)
    (grows : machine.blockTree.shape.Grows next.blockTree.shape) (decisions : SameDecisions machine next)
    (possible : ∀ decision, Possible next.blockTree decision → Possible machine.blockTree decision) : Linked config Known next := by
  obtain ⟨committed, committedSet, commitIndex⟩ := decisions
  refine ⟨chain, heights, ?_, ?_, ⟨?_, ?_⟩, ?_⟩
  · intro decision member
    exact grows_level grows (linked.levels decision (committed ▸ member))
  · intro first firstMember second secondMember
    exact one_chain_mono (grows_parent grows) (linked.oneChain first (committed ▸ firstMember) second (committed ▸ secondMember))
  · rw [commitIndex, committed]
    exact linked.index.index
  · rw [committedSet, committed]
    exact linked.index.set
  · intro decision allowed
    rw [committedSet]
    exact linked.decided decision (possible decision allowed)

theorem on_vote_linked (ctx : Context) (vote : Vote) : Linked config Known (onVote config machine ctx vote).1 := by
  have effect := on_vote_effect config machine ctx vote
  have chain := on_vote_chain_sound linked.chain ctx vote
  have same : (onVote config machine ctx vote).1.blockTree.shape = machine.blockTree.shape ∧
      ∀ blockHash, (onVote config machine ctx vote).1.blockTree.commitCandidate blockHash = machine.blockTree.commitCandidate blockHash := by
    rcases effect.certified with ⟨tree, -⟩ | ⟨qc, -, set, -⟩
    · rw [tree]
      exact ⟨rfl, fun _ => rfl⟩
    · exact ⟨set_cert_shape set, set_cert_candidate set⟩
  exact linked_of_grown linked chain (same.1 ▸ linked.heights) (fun key place found => same.1 ▸ found) effect.decisions
    fun decision => possible_congr same.2

theorem on_timeout_linked (order : List ValidatorID) (ctx : Context)
    (vote : TimeoutVote) : Linked config Known (onTimeoutVote config machine order ctx vote).1 := by
  have effect := on_timeout_effect config machine order ctx vote
  have chain := on_timeout_chain_sound linked.chain order ctx vote
  have get : ∀ key, (onTimeoutVote config machine order ctx vote).1.blockTree.get key = machine.blockTree.get key := by
    intro key
    rw [BlockTree.get, effect.blocks, BlockTree.get]
  have shape : (onTimeoutVote config machine order ctx vote).1.blockTree.shape = machine.blockTree.shape := by
    funext key
    rw [BlockTree.shape, BlockTree.shape, get]
  have candidates : ∀ blockHash, (onTimeoutVote config machine order ctx vote).1.blockTree.commitCandidate blockHash =
      machine.blockTree.commitCandidate blockHash :=
    commit_candidate_congr (fun _ node => node.quorumCert) fun key => by rw [get]; simp
  exact linked_of_grown linked chain (shape ▸ linked.heights) (fun key place found => shape ▸ found) effect.decisions
    fun decision => possible_congr candidates

end

theorem settle_linked {base : StateMachine} (chain : ChainSound config Known (fun _ => True) base)
    (heights : base.blockTree.shape.HeightsSound) (index : IndexSound base)
    (levels : ∀ decision ∈ base.committed, base.blockTree.shape.Level decision.committedBlockHash decision.committedHeight.toNat)
    (oneChain : ∀ first second, (first ∈ base.committed ∨ Possible base.blockTree first) →
      (second ∈ base.committed ∨ Possible base.blockTree second) →
      OneChain base.blockTree.shape.parent first.committedBlockHash second.committedBlockHash)
    (order : List Hash) (commits : CommitsFrom base next) (same : SameDecisions (applyKnownCommitRules base order).1 next) :
    Linked config Known next := by
  have levelOf : ∀ decision, (decision ∈ base.committed ∨ Possible base.blockTree decision) →
      base.blockTree.shape.Level decision.committedBlockHash decision.committedHeight.toNat := by
    rintro decision (member | possible)
    · exact levels decision member
    · exact possible_level chain.nodes possible
  have source : ∀ decision ∈ next.committed, decision ∈ base.committed ∨ Possible base.blockTree decision := by
    intro decision member
    rcases commits.decided decision member with old | ⟨blockHash, candidate, found, decides⟩
    · exact .inl old
    · exact .inr ⟨blockHash, candidate, found, decides⟩
  have settled := apply_commit_rules_settled (visit base.blockTree.blocks order) base index
    fun first second firstKnown secondKnown equal => (heights_sound_levels heights).eq_of_same
      (oneChain first second firstKnown secondKnown) (levelOf first firstKnown) (equal ▸ levelOf second secondKnown)
  refine ⟨commits_from_sound commits chain, commits.blockTree ▸ heights, ?_, ?_, ⟨?_, ?_⟩, ?_⟩
  · intro decision member
    rw [commits.blockTree]
    exact levelOf decision (source decision member)
  · intro first firstMember second secondMember
    rw [commits.blockTree]
    exact oneChain first second (source first firstMember) (source second secondMember)
  · rw [same.commitIndex, same.committed]
    exact settled.sound.index
  · rw [same.committedSet, same.committed]
    exact settled.sound.set
  · rw [commits.blockTree, same.committedSet]
    rintro decision ⟨blockHash, candidate, found, decides⟩
    obtain ⟨node, parent, links⟩ := candidate_links chain.nodes found decides
    have stored : blockHash ∈ base.blockTree.blocks.keys :=
      AList.mem_keys.mp (lookup_isSome.mp (Option.isSome_iff_exists.mpr ⟨node, links.block⟩))
    exact settled.taken blockHash ((visit_perm _ _).mem_iff.mpr stored) candidate decision found decides

section Storing

variable (hashing : config.hashBlock = hashBlock) (collisionFree : Sha256.CollisionFree (blockPreimages Known))
include hashing collisionFree
variable (nodes : ∀ key node, tree.get key = some node → NodeSound config Known Good key node)
include nodes

theorem same_place {block : Block} (known : Known block) (old : Hash × Nat) (stored : tree.shape (config.hashBlock block) = some old) :
    old = (block.header.previousBlockHash, block.header.height.toNat) := by
  obtain ⟨node, found, rfl⟩ := Option.map_eq_some_iff.mp stored
  have sound := nodes _ _ found
  have hashes := sound.hashed
  rw [hashing] at hashes
  have headers := same_hash_same_header collisionFree sound.known known hashes
  have parents : node.block.header.previousBlockHash = block.header.previousBlockHash := by
    simpa using congrArg Header.previousBlockHash headers
  have heights : node.block.header.height = block.header.height := by simpa using congrArg Header.height headers
  rw [BlockNode.place, sound.parent, parents, heights]

theorem insert_grows {block : Block} (known : Known block) (justifyQC : QuorumCert) :
    tree.shape.Grows (tree.insert block (config.hashBlock block) justifyQC).shape := by
  rw [insert_shape]
  exact put_grows (same_place hashing collisionFree nodes known)

end Storing

def OnChain (config : StateMachineConfig) (machine : StateMachine) (block : Block) : Prop :=
  ∀ decision ∈ machine.committed, decision.committedBlockHash = config.hashBlock block ∨
    machine.blockTree.extends block.header.previousBlockHash decision.committedBlockHash = true ∨
    machine.blockTree.extends decision.committedBlockHash (config.hashBlock block) = true

instance (config : StateMachineConfig) (machine : StateMachine) (block : Block) : Decidable (OnChain config machine block) :=
  inferInstanceAs (Decidable (∀ decision ∈ machine.committed, _))

theorem insert_on_chain {block : Block}
    (grows : machine.blockTree.shape.Grows (machine.blockTree.insert block (config.hashBlock block) justifyQC).shape)
    (onChain : OnChain config machine block) (decision : CommitDecision) (member : decision ∈ machine.committed) :
    OneChain (machine.blockTree.insert block (config.hashBlock block) justifyQC).shape.parent (config.hashBlock block)
      decision.committedBlockHash := by
  rcases onChain decision member with same | below | above
  · rw [same]
    exact .inl .refl
  · have named : block.header.previousBlockHash ≠ zeroHash := by
      intro zero
      simp [BlockTree.extends, zero] at below
    have link : (machine.blockTree.insert block (config.hashBlock block) justifyQC).shape.parent (config.hashBlock block) =
        some block.header.previousBlockHash := by
      rw [insert_shape]
      exact shape_parent_of (Function.update_self ..) named
    exact .inl (.head link (reaches_mono (grows_parent grows) (extends_reaches below)))
  · exact .inr (reaches_mono (grows_parent grows) (extends_reaches above))

-- What a delivered block has to meet; the code checks none of it.
def Places (config : StateMachineConfig) (machine : StateMachine) : Call → Prop
  | .deliver (.proposal _ ctx proposal) => checkProposal config machine ctx proposal = .ok () →
      machine.blockTree.Accommodates (config.hashBlock proposal.block) proposal.block ∧ OnChain config machine proposal.block
  | .observeCommittedBlock block _ => machine.blockTree.get (config.hashBlock block) = none →
      machine.blockTree.Accommodates (config.hashBlock block) block
  | _ => True

instance decidablePlaces (config : StateMachineConfig) (machine : StateMachine) : (call : Call) → Decidable (Places config machine call)
  | .deliver (.proposal _ _ _) => inferInstanceAs (Decidable (_ → _))
  | .deliver (.vote _ _) | .deliver (.timeoutVote _ _ _) => isTrue trivial
  | .observeCommittedBlock _ _ => inferInstanceAs (Decidable (_ → _))
  | .updateValidatorSet _ | .startRound _ _ => isTrue trivial

def AllPlace (config : StateMachineConfig) : StateMachine → List Call → Prop
  | _, [] => True
  | machine, call :: rest => Places config machine call ∧ AllPlace config (perform config machine call) rest

instance decidableAllPlace (config : StateMachineConfig) :
    (machine : StateMachine) → (calls : List Call) → Decidable (AllPlace config machine calls)
  | _, [] => isTrue trivial
  | machine, call :: rest =>
    have := decidableAllPlace config (perform config machine call) rest
    inferInstanceAs (Decidable (_ ∧ _))

def Call.block : Call → Option Block
  | .deliver (.proposal _ _ proposal) => some proposal.block
  | .observeCommittedBlock block _ => some block
  | _ => none

section Steps

variable (hashing : config.hashBlock = hashBlock) (collisionFree : Sha256.CollisionFree (blockPreimages Known))
include hashing collisionFree

section

variable (linked : Linked config Known machine)
include linked

theorem on_proposal_linked (order : List Hash) (ctx : Context) (proposal : Proposal) (known : Known proposal.block)
    (places : Places config machine (.deliver (.proposal order ctx proposal))) :
    Linked config Known (onProposal config machine order ctx proposal).1 := by
  have taken : ∀ decision, (decision ∈ machine.committed ∨ Possible machine.blockTree decision) →
      ∃ old ∈ machine.committed, old.committedBlockHash = decision.committedBlockHash := by
    rintro decision (member | possible)
    · exact ⟨decision, member, rfl⟩
    · exact linked.index.set _ (linked.decided decision possible)
  rcases on_proposal_effect config machine order ctx proposal with same | ⟨checked, base, rfl | rfl, commits, decisions⟩
  · rw [same]
    exact linked
  · refine settle_linked linked.chain linked.heights linked.index linked.levels ?_ order commits decisions
    intro first second firstKnown secondKnown
    obtain ⟨old, member, same⟩ := taken first firstKnown
    obtain ⟨old', member', same'⟩ := taken second secondKnown
    exact same ▸ same' ▸ linked.oneChain old member old' member'
  · obtain ⟨fits, onChain⟩ := places checked
    have grows := insert_grows hashing collisionFree linked.chain.nodes known proposal.justifyQC
    have nodes := insert_nodes_sound linked.chain.nodes proposal.block known proposal.justifyQC
      fun present => ⟨check_proposal_justify checked present, trivial⟩
    -- Every decision, taken or newly possible, is decided already or lies above the new block.
    have place : ∀ decision, (decision ∈ machine.committed ∨ Possible (insertBlock config machine proposal).blockTree decision) →
        (∃ old ∈ machine.committed, old.committedBlockHash = decision.committedBlockHash) ∨
          Reaches (insertBlock config machine proposal).blockTree.shape.parent (config.hashBlock proposal.block)
            decision.committedBlockHash := by
      rintro decision (member | possible)
      · exact .inl ⟨decision, member, rfl⟩
      · rcases possible_after_insert nodes possible with earlier | reached
        · exact .inl (taken decision (.inr earlier))
        · exact .inr reached
    have chain : ChainSound config Known (fun _ => True) (insertBlock config machine proposal) := ⟨nodes, linked.chain.decisions⟩
    have index : IndexSound (insertBlock config machine proposal) := ⟨linked.index.index, linked.index.set⟩
    refine settle_linked chain ?_ index ?_ ?_ order commits decisions
    · rw [insertBlock, insert_shape]
      exact put_heights_sound linked.heights (accommodates_fits fits)
    · intro decision member
      exact grows_level grows (linked.levels decision member)
    · intro first second firstKnown secondKnown
      rcases place first firstKnown with ⟨old, member, same⟩ | reached
      · rcases place second secondKnown with ⟨old', member', same'⟩ | reached'
        · exact same ▸ same' ▸ one_chain_mono (grows_parent grows) (linked.oneChain old member old' member')
        · exact same ▸ (one_chain_of_reached reached' (insert_on_chain grows onChain old member)).symm
      · rcases place second secondKnown with ⟨old', member', same'⟩ | reached'
        · exact same' ▸ one_chain_of_reached reached (insert_on_chain grows onChain old' member')
        · exact one_chain_of_reached reached (.inl reached')

theorem observe_linked (block : Block) (quorumCert : QuorumCert)
    (known : Known block) (places : Places config machine (.observeCommittedBlock block quorumCert)) :
    Linked config Known (observeCommittedBlock config machine block quorumCert).1 := by
  have effect := observe_committed_effect config machine block quorumCert
  obtain ⟨base, stored, set⟩ := effect.tree
  have grown : (∀ key node, base.get key = some node → NodeSound config Known (fun _ => True) key node) ∧
      base.shape.HeightsSound ∧ machine.blockTree.shape.Grows base.shape ∧
      ∀ decision, Possible base decision → Possible machine.blockTree decision := by
    rcases stored with rfl | ⟨absent, rfl⟩
    · exact ⟨linked.chain.nodes, linked.heights, fun _ _ found => found, fun _ possible => possible⟩
    · have nodes := insert_nodes_sound linked.chain.nodes block known zeroQC fun present => absurd rfl present
      refine ⟨nodes, ?_, insert_grows hashing collisionFree linked.chain.nodes known zeroQC, fun decision => possible_insert_unjustified nodes⟩
      rw [insert_shape]
      exact put_heights_sound linked.heights (accommodates_fits (places absent))
  obtain ⟨nodes, heights, grows, possible⟩ := grown
  have decisions : ∀ decision ∈ (observeCommittedBlock config machine block quorumCert).1.committed,
      DecisionBacked config Known (fun _ => True) decision := by
    rw [effect.decisions.committed]
    exact linked.chain.decisions
  rcases set with tree | set
  · refine linked_of_grown linked ⟨?_, decisions⟩ ?_ ?_ effect.decisions ?_
    · rw [tree]
      exact nodes
    · rw [tree]
      exact heights
    · rw [tree]
      exact grows
    · rw [tree]
      exact possible
  · have shape := set_cert_shape set
    exact linked_of_grown linked ⟨set_cert_nodes_sound nodes set, decisions⟩ (shape ▸ heights) (shape ▸ grows) effect.decisions
      fun decision allowed => possible decision (possible_congr (set_cert_candidate set) allowed)

theorem perform_linked (call : Call) (known : ∀ block, call.block = some block → Known block) (places : Places config machine call) :
    Linked config Known (perform config machine call) := by
  cases call with
  | deliver event =>
    cases event with
    | proposal order ctx delivered => exact on_proposal_linked hashing collisionFree linked order ctx delivered (known _ rfl) places
    | vote ctx delivered => exact on_vote_linked linked ctx delivered
    | timeoutVote order ctx delivered => exact on_timeout_linked linked order ctx delivered
  | observeCommittedBlock block quorumCert => exact observe_linked hashing collisionFree linked block quorumCert (known _ rfl) places
  | updateValidatorSet validatorSet | startRound height round =>
    exact linked_of_grown linked ⟨linked.chain.nodes, linked.chain.decisions⟩ linked.heights (fun _ _ found => found)
      ⟨rfl, rfl, rfl⟩ fun _ possible => possible

end

theorem perform_all_linked (calls : List Call) (machine : StateMachine) (linked : Linked config Known machine)
    (known : ∀ call ∈ calls, ∀ block, call.block = some block → Known block) (places : AllPlace config machine calls) :
    Linked config Known (performAll config machine calls) := by
  induction calls generalizing machine with
  | nil => exact linked
  | cons call rest ih =>
    have next := perform_linked hashing collisionFree linked call (known call List.mem_cons_self) places.1
    exact ih _ next (List.forall_mem_cons.mp known).2 places.2

end Steps

theorem linked_decisions (linked : Linked config Known machine) {first second : CommitDecision}
    (firstDecided : first ∈ machine.committed) (secondDecided : second ∈ machine.committed)
    (below : first.committedHeight < second.committedHeight) :
    Reaches₁ machine.blockTree.shape.parent second.committedBlockHash first.committedBlockHash :=
  (heights_sound_levels linked.heights).ancestor_of_lt (linked.oneChain first firstDecided second secondDecided)
    (linked.levels first firstDecided) (linked.levels second secondDecided) (UInt64.lt_iff_toNat_lt.mp below)

end Vexo.Consensus
