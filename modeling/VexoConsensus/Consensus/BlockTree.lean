import VexoConsensus.Finality.Verifier
import VexoConsensus.Lib.Ancestry
import VexoConsensus.Lib.OrderedMap

namespace Vexo.Consensus

open ByteCodec Finality Checks OrderedMap Ancestry StateTransition List AList

structure Proposal where
  block : Block
  round : Round
  proposer : ValidatorID
  justifyQC : QuorumCert
  signature : Signature
deriving DecidableEq

structure Vote where
  height : Height
  round : Round
  blockHash : Hash
  validatorID : ValidatorID
  signature : Signature
deriving DecidableEq

structure TimeoutVote where
  height : Height
  round : Round
  validatorID : ValidatorID
  highQC : QuorumCert
  signature : Signature
deriving DecidableEq

def appendQuorumCert (quorumCert : QuorumCert) : Bytes :=
  putUint64 quorumCert.height ++ putUint64 quorumCert.round ++ quorumCert.blockHash.bytes ++
    putUint64 quorumCert.votingPower ++ (Sha256.sum256 quorumCert.signers).bytes

def proposalSignBytes (proposal : Proposal) : Bytes :=
  utf8 "proposal" ++ putUint64 proposal.block.header.height ++ putUint64 proposal.round ++ proposal.proposer ++
    (hashBlock proposal.block).bytes ++ appendQuorumCert proposal.justifyQC

def voteSignBytes (vote : Vote) : Bytes := Signbytes.vote vote.height vote.round vote.blockHash

def timeoutVoteSignBytes (vote : TimeoutVote) : Bytes :=
  utf8 "timeout_vote" ++ putUint64 vote.height ++ putUint64 vote.round ++ appendQuorumCert vote.highQC

def isBetterQC (candidate current : QuorumCert) : Bool :=
  if candidate.height ≠ current.height then candidate.height > current.height else candidate.round > current.round

def sameQC (first second : QuorumCert) : Bool :=
  first.height = second.height ∧ first.round = second.round ∧ first.blockHash = second.blockHash

def allSignaturesPresent (signatures : List Signature) : Bool := signatures ≠ [] ∧ [] ∉ signatures

def unsignedConsensusSignature (kind : GoString) (validatorID : ValidatorID) (signBytes : Bytes) : Signature :=
  (Sha256.sum256 (kind ++ 0 :: validatorID ++ 0 :: signBytes)).bytes

structure BlockNode where
  block : Block
  (hash parentHash : Hash)
  (justifyQC quorumCert : QuorumCert)
deriving DecidableEq

structure BlockTree where
  blocks : Table Hash BlockNode
  highQC : QuorumCert

def newBlockTree : BlockTree := ⟨∅, zeroQC⟩

variable (tree : BlockTree) (qc : QuorumCert)

def BlockTree.get (blockHash : Hash) : Option BlockNode := tree.blocks.lookup blockHash

def BlockTree.observeQuorumCert : BlockTree :=
  if qc.height = 0 ∨ qc.blockHash = zeroHash then tree
  else if isBetterQC qc tree.highQC then { tree with highQC := qc } else tree

def BlockTree.insertedNode (block : Block) (blockHash : Hash) (justifyQC : QuorumCert) : BlockNode :=
  ⟨block, blockHash, block.header.previousBlockHash, justifyQC, ((tree.get blockHash).map BlockNode.quorumCert).getD zeroQC⟩

def BlockTree.insert (tree : BlockTree) (block : Block) (blockHash : Hash) (justifyQC : QuorumCert) : BlockTree :=
  BlockTree.observeQuorumCert
    { tree with blocks := tree.blocks.insert blockHash (tree.insertedNode block blockHash justifyQC) } justifyQC

def BlockTree.setQuorumCert : Except Err BlockTree :=
  if qc.height = 0 ∨ qc.blockHash = zeroHash then .error .invalidBlockCert
  else
    match tree.get qc.blockHash with
    | none => .error .blockNotFound
    | some node =>
      if node.block.header.height ≠ qc.height then .error .invalidBlockCert
      else .ok (BlockTree.observeQuorumCert
        { tree with blocks := tree.blocks.insert qc.blockHash { node with quorumCert := qc } } qc)

-- The walk of Extends visits each stored block at most once unless the parent links form a cycle, where the
-- source does not return; as many steps as stored blocks decide every walk that ends.
def BlockTree.walk (tree : BlockTree) (ancestor : Hash) : Nat → Hash → Bool
  | 0, current => current ≠ zeroHash ∧ current = ancestor
  | steps + 1, current =>
    if current = zeroHash then false
    else if current = ancestor then true
    else
      match tree.get current with
      | none => false
      | some node => tree.walk ancestor steps node.parentHash

def BlockTree.extends (descendant ancestor : Hash) : Bool :=
  if descendant = zeroHash ∨ ancestor = zeroHash then false
  else tree.walk ancestor tree.blocks.keys.length descendant

structure CommitCandidate where
  blockHeight : Height
  blockHash : Hash
  parentHeight : Height
  parentHash : Hash
  grandparentHeight : Height
  grandparentHash : Hash
  (blockQC parentQC : QuorumCert)
deriving DecidableEq

structure CommitDecision where
  committedHeight : Height
  committedBlockHash : Hash
  commitQC : QuorumCert
deriving DecidableEq

def BlockTree.commitCandidate (blockHash : Hash) : Option CommitCandidate :=
  match tree.get blockHash with
  | none => none
  | some node =>
    if node.justifyQC.height = 0 then none
    else
      match tree.get node.justifyQC.blockHash with
      | none => none
      | some parent =>
        if parent.justifyQC.height = 0 then none
        else some {
          blockHeight := node.block.header.height
          blockHash := node.hash
          parentHeight := parent.block.header.height
          parentHash := parent.hash
          grandparentHeight := parent.justifyQC.height
          grandparentHash := parent.justifyQC.blockHash
          blockQC := node.justifyQC
          parentQC := parent.justifyQC }

def ThreeChainCommitRule.decide (candidate : CommitCandidate) : Except Err CommitDecision := do
  require (candidate.blockHash ≠ zeroHash ∧ candidate.parentHash ≠ zeroHash ∧ candidate.grandparentHash ≠ zeroHash)
    .commitRuleNotSatisfied
  require (candidate.blockQC.blockHash = candidate.parentHash) .commitRuleNotSatisfied
  require (candidate.parentQC.blockHash = candidate.grandparentHash) .commitRuleNotSatisfied
  require (candidate.blockHeight ≠ 0 ∧ candidate.parentHeight ≠ 0 ∧ candidate.grandparentHeight ≠ 0 ∧
    candidate.blockQC.height ≠ 0 ∧ candidate.parentQC.height ≠ 0) .commitRuleNotSatisfied
  require (candidate.blockHeight = candidate.parentHeight + 1 ∧ candidate.parentHeight = candidate.grandparentHeight + 1 ∧
    candidate.blockQC.height = candidate.parentHeight ∧ candidate.parentQC.height = candidate.grandparentHeight)
    .commitRuleNotSatisfied
  return ⟨candidate.grandparentHeight, candidate.grandparentHash, candidate.parentQC⟩

abbrev CommitIndex := Table Height Hash

def CommitIndex.record (index : CommitIndex) (height : Height) (blockHash : Hash) : Except Err CommitIndex :=
  match index.lookup height with
  | some existing => if existing ≠ blockHash then .error .conflictingCommit else .ok (index.insert height blockHash)
  | none => .ok (index.insert height blockHash)

@[simp] theorem observe_blocks : (tree.observeQuorumCert qc).blocks = tree.blocks := by
  unfold BlockTree.observeQuorumCert
  split
  · rfl
  · split <;> rfl

theorem observe_high_qc : (tree.observeQuorumCert qc).highQC = tree.highQC ∨ ((tree.observeQuorumCert qc).highQC = qc ∧ qc.height ≠ 0) := by
  unfold BlockTree.observeQuorumCert
  split
  · exact .inl rfl
  · rename_i present
    split
    · exact .inr ⟨rfl, fun zero => present (.inl zero)⟩
    · exact .inl rfl

theorem insert_get_cases {tree : BlockTree} {block : Block} {blockHash key : Hash} {justifyQC : QuorumCert} {node : BlockNode}
    (found : (tree.insert block blockHash justifyQC).get key = some node) :
    (key = blockHash ∧ node = tree.insertedNode block blockHash justifyQC) ∨ (key ≠ blockHash ∧ tree.get key = some node) := by
  simp only [BlockTree.get, BlockTree.insert, observe_blocks] at found
  exact lookup_insert_cases found

theorem insert_high_qc (block : Block) (blockHash : Hash) (justifyQC : QuorumCert) : (tree.insert block blockHash justifyQC).highQC = tree.highQC ∨
      ((tree.insert block blockHash justifyQC).highQC = justifyQC ∧ justifyQC.height ≠ 0) :=
  observe_high_qc _ justifyQC

theorem set_quorum_cert_ok {tree next : BlockTree} {qc : QuorumCert} (set : tree.setQuorumCert qc = .ok next) :
    qc.height ≠ 0 ∧ qc.blockHash ≠ zeroHash ∧ ∃ node, tree.get qc.blockHash = some node ∧ node.block.header.height = qc.height ∧
      next = BlockTree.observeQuorumCert { tree with blocks := tree.blocks.insert qc.blockHash { node with quorumCert := qc } } qc := by
  unfold BlockTree.setQuorumCert at set
  split at set
  · contradiction
  · rename_i present
    obtain ⟨height, hash⟩ := not_or.mp present
    split at set
    · contradiction
    · rename_i node found
      split at set
      · contradiction
      · rename_i matching
        cases set
        exact ⟨height, hash, node, found, not_not.mp matching, rfl⟩

theorem commit_candidate_some {tree : BlockTree} {blockHash : Hash} {candidate : CommitCandidate}
    (found : tree.commitCandidate blockHash = some candidate) :
    ∃ node parent, tree.get blockHash = some node ∧ node.justifyQC.height ≠ 0 ∧
      tree.get node.justifyQC.blockHash = some parent ∧ parent.justifyQC.height ≠ 0 ∧
      candidate = ⟨node.block.header.height, node.hash, parent.block.header.height, parent.hash, parent.justifyQC.height,
        parent.justifyQC.blockHash, node.justifyQC, parent.justifyQC⟩ := by
  unfold BlockTree.commitCandidate at found
  split at found
  · contradiction
  · rename_i node nodeFound
    split at found
    · contradiction
    · rename_i justified
      split at found
      · contradiction
      · rename_i parent parentFound
        split at found
        · contradiction
        · rename_i parentJustified
          cases found
          exact ⟨node, parent, nodeFound, justified, parentFound, parentJustified, rfl⟩

-- What the links of a tree depend on: the parent and the height of each stored block.
abbrev Shape := Hash → Option (Hash × Nat)

def BlockNode.place (node : BlockNode) : Hash × Nat := (node.parentHash, node.block.header.height.toNat)

variable (tree : BlockTree)

def BlockTree.shape : Shape := fun key => (tree.get key).map BlockNode.place

variable (shape : Shape) (key : Hash)

def Shape.parent : Option Hash :=
  (shape key).bind fun place => if place.1 = zeroHash then none else some place.1

def Shape.Level (height : Nat) : Prop :=
  (∃ previous, shape key = some (previous, height)) ∨ (key ≠ zeroHash ∧ ∃ child, shape child = some (key, height + 1))

structure Shape.HeightsSound : Prop where
  positive : ∀ key previous height, shape key = some (previous, height) → 0 < height
  parents : ∀ key previous height, shape key = some (previous, height) → previous ≠ zeroHash → ∀ earlier below,
    shape previous = some (earlier, below) → below + 1 = height
  siblings : ∀ previous first second height height', shape first = some (previous, height) → shape second = some (previous, height') →
    previous ≠ zeroHash → height = height'

structure Shape.Fits (previous : Hash) (height : Nat) : Prop where
  positive : 0 < height
  acyclic : previous ≠ key
  parent : previous ≠ zeroHash → ∀ earlier below, shape previous = some (earlier, below) → below + 1 = height
  siblings : previous ≠ zeroHash → ∀ other height', shape other = some (previous, height') → height' = height
  children : key ≠ zeroHash → ∀ child above, shape child = some (key, above) → above = height + 1

variable {shape : Shape}
variable {key previous : Hash}

theorem shape_parent_some (parent : shape.parent key = some previous) : previous ≠ zeroHash ∧ ∃ height, shape key = some (previous, height) := by
  cases stored : shape key with
  | none => simp [Shape.parent, stored] at parent
  | some place =>
    obtain ⟨named, height⟩ := place
    by_cases root : named = zeroHash
    · simp [Shape.parent, stored, root] at parent
    · simp only [Shape.parent, stored, Option.bind_some, if_neg root, Option.some.injEq] at parent
      subst parent
      exact ⟨root, height, rfl⟩

variable {height : Nat}

theorem shape_parent_of (stored : shape key = some (previous, height)) (named : previous ≠ zeroHash) : shape.parent key = some previous := by
  simp [Shape.parent, stored, named]

theorem heights_sound_levels (sound : shape.HeightsSound) : Levels shape.parent shape.Level := by
  constructor
  · rintro key first second (⟨previous, stored⟩ | ⟨nonzero, child, stored⟩) (⟨previous', stored'⟩ | ⟨_, child', stored'⟩)
    · rw [stored] at stored'
      exact (Prod.mk.inj (Option.some.inj stored')).2
    · have below := sound.parents _ _ _ stored' (by assumption) _ _ stored
      omega
    · have below := sound.parents _ _ _ stored nonzero _ _ stored'
      omega
    · have same := sound.siblings _ _ _ _ _ stored stored' nonzero
      omega
  · intro child ancestor link
    obtain ⟨nonzero, height, stored⟩ := shape_parent_some link
    obtain ⟨below, rfl⟩ := Nat.exists_eq_succ_of_ne_zero (sound.positive _ _ _ stored).ne'
    exact ⟨below, .inl ⟨_, stored⟩, .inr ⟨nonzero, child, stored⟩⟩

def Shape.Grows (shape shape' : Shape) : Prop := ∀ key place, shape key = some place → shape' key = some place

theorem grows_parent {shape' : Shape} (grows : shape.Grows shape') (child ancestor : Hash) (link : shape.parent child = some ancestor) :
    shape'.parent child = some ancestor := by
  obtain ⟨nonzero, height, stored⟩ := shape_parent_some link
  exact shape_parent_of (grows _ _ stored) nonzero

theorem grows_level {shape' : Shape} (grows : shape.Grows shape') (level : shape.Level key height) : shape'.Level key height := by
  rcases level with ⟨previous, stored⟩ | ⟨nonzero, child, stored⟩
  · exact .inl ⟨previous, grows _ _ stored⟩
  · exact .inr ⟨nonzero, child, grows _ _ stored⟩

def Shape.put (shape : Shape) (key : Hash) (place : Hash × Nat) : Shape := Function.update shape key (some place)

theorem put_cases {other previous' : Hash} {height' : Nat} (found : shape.put key (previous, height) other = some (previous', height')) :
    (other = key ∧ previous' = previous ∧ height' = height) ∨ shape other = some (previous', height') := by
  by_cases equal : other = key
  · subst equal
    rw [Shape.put, Function.update_self] at found
    obtain ⟨rfl, rfl⟩ := Prod.mk.inj (Option.some.inj found)
    exact .inl ⟨rfl, rfl, rfl⟩
  · rw [Shape.put, Function.update_of_ne equal] at found
    exact .inr found

theorem put_grows {place : Hash × Nat} (same : ∀ old, shape key = some old → old = place) : shape.Grows (shape.put key place) := by
  intro other stored found
  by_cases equal : other = key
  · subst equal
    rw [Shape.put, Function.update_self, same stored found]
  · rwa [Shape.put, Function.update_of_ne equal]

theorem put_heights_sound (sound : shape.HeightsSound) (fits : shape.Fits key previous height) : (shape.put key (previous, height)).HeightsSound := by
  constructor
  · intro other previous' height' found
    rcases put_cases found with ⟨-, -, rfl⟩ | stored
    · exact fits.positive
    · exact sound.positive _ _ _ stored
  · intro other previous' height' found nonzero earlier below foundParent
    rcases put_cases found with ⟨rfl, rfl, rfl⟩ | stored
    · rcases put_cases foundParent with ⟨self, -, -⟩ | storedParent
      · exact absurd self fits.acyclic
      · exact fits.parent nonzero _ _ storedParent
    · rcases put_cases foundParent with ⟨rfl, -, rfl⟩ | storedParent
      · exact (fits.children nonzero _ _ stored).symm
      · exact sound.parents _ _ _ stored nonzero _ _ storedParent
  · intro previous' first second height₁ height₂ foundFirst foundSecond nonzero
    rcases put_cases foundFirst with ⟨-, rfl, rfl⟩ | storedFirst
    · rcases put_cases foundSecond with ⟨-, -, rfl⟩ | storedSecond
      · rfl
      · exact (fits.siblings nonzero _ _ storedSecond).symm
    · rcases put_cases foundSecond with ⟨-, rfl, rfl⟩ | storedSecond
      · exact fits.siblings nonzero _ _ storedFirst
      · exact sound.siblings _ _ _ _ _ storedFirst storedSecond nonzero

theorem insert_shape (block : Block) (blockHash : Hash) (justifyQC : QuorumCert) : (tree.insert block blockHash justifyQC).shape =
      tree.shape.put blockHash (block.header.previousBlockHash, block.header.height.toNat) := by
  funext key
  simp only [BlockTree.shape, BlockTree.get, BlockTree.insert, observe_blocks]
  by_cases same : key = blockHash
  · subst same
    simp [Shape.put, BlockNode.place, BlockTree.insertedNode]
  · simp [Shape.put, lookup_insert_ne same, Function.update_of_ne same, BlockTree.shape, BlockTree.get]

theorem set_cert_shape {tree next : BlockTree} {qc : QuorumCert} (set : tree.setQuorumCert qc = .ok next) : next.shape = tree.shape := by
  obtain ⟨-, -, node, found, -, rfl⟩ := set_quorum_cert_ok set
  funext key
  simp only [BlockTree.shape, BlockTree.get, observe_blocks]
  by_cases same : key = qc.blockHash
  · subst same
    rw [lookup_insert]
    rw [BlockTree.get] at found
    rw [found]
    rfl
  · rw [lookup_insert_ne same]

theorem walk_reaches (ancestor : Hash) (steps : Nat) (current : Hash)
    (walked : tree.walk ancestor steps current = true) : Reaches tree.shape.parent current ancestor := by
  induction steps generalizing current with
  | zero =>
    simp only [BlockTree.walk, Bool.decide_and, Bool.and_eq_true, decide_eq_true_eq] at walked
    exact walked.2 ▸ Relation.ReflTransGen.refl
  | succ steps ih =>
    simp only [BlockTree.walk] at walked
    split at walked
    · contradiction
    · split at walked
      · rename_i same
        exact same ▸ Relation.ReflTransGen.refl
      · split at walked
        · contradiction
        · rename_i node found
          have rest := ih node.parentHash walked
          have stored : tree.shape current = some node.place := by simp [BlockTree.shape, found]
          have nonzero : node.parentHash ≠ zeroHash := by
            intro zero
            rw [zero] at walked
            cases steps <;> simp [BlockTree.walk] at walked
          exact Relation.ReflTransGen.head (shape_parent_of stored nonzero) rest

theorem extends_reaches {tree : BlockTree} {descendant ancestor : Hash} (extending : tree.extends descendant ancestor = true) :
    Reaches tree.shape.parent descendant ancestor := by
  unfold BlockTree.extends at extending
  split at extending
  · contradiction
  · exact walk_reaches tree ancestor _ descendant extending

section Extends

variable {tree : BlockTree}

end Extends

end Vexo.Consensus
