import VexoConsensus.Consensus.CallOrder

namespace Vexo.Node

open Consensus Finality Checks OrderedMap StateTransition List

structure BlockRecord where
  block : Block
  hash : Hash
  quorumCert : QuorumCert
deriving DecidableEq

-- The parts of a node that committing reads and writes: its machine, App.Commit().Height, the stored blocks by height and
-- the proposals waiting for a decision.
structure CommitNode where
  machine : StateMachine
  committedHeight : Height
  stored : Table Height BlockRecord
  pending : Table Hash Proposal

def newCommitNode (config : StateMachineConfig) (validatorSet : SetSnapshot) : CommitNode :=
  ⟨newStateMachine config validatorSet, 0, ∅, ∅⟩

-- The application and the store either fail before the block is written, or write it and may fail after that.
inductive Execution where
  | failed (reason : Err)
  | written (failure : Option Err)

-- What the rest of the node answers during one call.
structure Surroundings where
  execute : Block → QuorumCert → Execution
  (afterExecution persistFailure broadcastFailure : Option Err)
  registry : Registry
  signatures : Option SignatureVerifier
  defersCommit : Height → Bool

section Committing

variable (config : StateMachineConfig) (around : Surroundings) (ctx : Context)
variable (node : CommitNode) (block : Block) (quorumCert : QuorumCert)

def verifyCommitCertificate : Except Err Unit := do
  require (quorumCert.height = block.header.height) (.invalidCommitQC "")
  require (quorumCert.blockHash = hashBlock block) (.invalidCommitQC "")
  let validatorSet ← around.registry block.header.height
  let proof := { newProof block.header quorumCert with blockHash := hashBlock block }
  (newVerifier validatorSet around.signatures false).verifyFinalityProofWithContext ctx proof

def verifyCommitFinalityProof (proof : Proof) : Except Err Unit := do
  require (proof.header.height = block.header.height ∧ proof.blockHash = hashBlock block) (.invalidCommitQC "")
  require (proof.header = block.header) (.invalidCommitQC "")
  require (proof.quorumCert = quorumCert) (.invalidCommitQC "")
  require (proof.hasThreeChainCommitProof) .commitChainTooShort
  let validatorSet ← around.registry (if proof.validatorSetHeight = 0 then block.header.height else proof.validatorSetHeight)
  (newVerifier validatorSet around.signatures false).verifyFinalityProofWithContext ctx proof

-- Everything commitBlock checks before it executes; the parent is not looked at.
def checkCommit (requireLocalQC : Bool) : Except Err Unit := do
  require (quorumCert.height = block.header.height) (.invalidCommitQC "height mismatch")
  require (quorumCert.blockHash = hashBlock block) (.invalidCommitQC "block hash mismatch")
  require (¬ block.header.height ≤ node.committedHeight) (.blockAlreadyCommitted block.header.height node.committedHeight)
  require (block.header.height = node.committedHeight + 1) (.nonSequentialCommit block.header.height (node.committedHeight + 1))
  if requireLocalQC then do
    let _ ← buildQuorumCert config node.machine quorumCert.height quorumCert.round quorumCert.blockHash
    return ()
  else verifyCommitCertificate around ctx block quorumCert

def removePendingAtOrBelow (pending : Table Hash Proposal) (height : Height) : Table Hash Proposal :=
  pending.entries.foldl (fun kept entry => if entry.2.block.header.height ≤ height then kept.erase entry.1 else kept) pending

def nextConsensusHeight (machine : StateMachine) (nextRegistryHeight : Height) : Height :=
  if machine.blockTree.highQC.height ≥ nextRegistryHeight then machine.blockTree.highQC.height + 1 else nextRegistryHeight

def finishCommit (broadcast : Bool) : CommitNode × Except Err Unit :=
  match around.afterExecution with
  | some reason => (node, .error reason)
  | none =>
    match observeCommittedBlock config node.machine block quorumCert with
    | (machine, .error reason) => ({ node with machine := machine }, .error reason)
    | (machine, .ok _) =>
      match around.persistFailure with
      | some reason => ({ node with machine := machine }, .error reason)
      | none =>
        match around.registry (block.header.height + 1) with
        | .error reason => ({ node with machine := machine }, .error reason)
        | .ok validatorSet =>
          let machine := updateValidatorSet config machine validatorSet
          let machine := startRound machine (nextConsensusHeight machine (block.header.height + 1)) 0
          let node := { node with machine := machine, pending := removePendingAtOrBelow node.pending block.header.height }
          match (if broadcast then around.broadcastFailure else none) with
          | some reason => (node, .error reason)
          | none => (node, .ok ())

def commitBlock (requireLocalQC broadcast : Bool) : CommitNode × Except Err Unit :=
  match checkCommit config around ctx node block quorumCert requireLocalQC with
  | .error reason => (node, .error reason)
  | .ok _ =>
    match around.execute block quorumCert with
    | .failed reason => (node, .error reason)
    | .written failure =>
      let node := { node with
        stored := node.stored.insert block.header.height ⟨block, hashBlock block, quorumCert⟩
        committedHeight := block.header.height }
      match failure with
      | some reason => (node, .error reason)
      | none => finishCommit config around node block quorumCert broadcast

-- The loop of CommitFinalizedBlock; pending is the copy it takes before the loop.
def commitDecisions (pending : Table Hash Proposal) : CommitNode → List CommitDecision → CommitNode × Except Err Bool
  | node, [] => (node, .ok false)
  | node, decision :: rest =>
    if node.committedHeight ≥ decision.committedHeight then
      commitDecisions pending { node with pending := node.pending.erase decision.committedBlockHash } rest
    else if around.defersCommit decision.committedHeight then commitDecisions pending node rest
    else
      match pending.lookup decision.committedBlockHash with
      | none => commitDecisions pending node rest
      | some proposal =>
        if proposal.block.header.height ≠ decision.committedHeight then commitDecisions pending node rest
        else
          match commitBlock config around ctx node proposal.block decision.commitQC false true with
          | (node, .error (.blockAlreadyCommitted _ _)) =>
            commitDecisions pending { node with pending := node.pending.erase decision.committedBlockHash } rest
          | (node, .error reason) => (node, .error reason)
          | (node, .ok _) => (node, .ok true)

def commitFinalizedBlock : CommitNode × Except Err Bool :=
  commitDecisions config around ctx node.pending node node.machine.committed

def acceptCommitMessage (proof : Proof) : CommitNode :=
  if block.header.height ≤ node.committedHeight ∨ block.header.height > node.committedHeight + 1 ∨ proof.header.height = 0 then node
  else
    match verifyCommitFinalityProof around ctx block quorumCert proof with
    | .error _ => node
    | .ok _ => (commitBlock config around ctx node block quorumCert false false).1

def cacheProposal (proposal : Proposal) : CommitNode :=
  if node.committedHeight ≥ proposal.block.header.height then node
  else { node with pending := node.pending.insert (hashBlock proposal.block) proposal }

end Committing

inductive NodeCall where
  | deliver (event : Event)
  | commitBlock (around : Surroundings) (ctx : Context) (block : Block) (quorumCert : QuorumCert)
  | commitFinalizedBlock (around : Surroundings) (ctx : Context)
  | commitMessage (around : Surroundings) (ctx : Context) (block : Block) (quorumCert : QuorumCert) (proof : Proof)

variable (config : StateMachineConfig) (node : CommitNode)

-- A proposal is kept for committing when the machine accepts it or finds it stale.
def deliverProposal (order : List Hash) (ctx : Context) (proposal : Proposal) : CommitNode :=
  match Consensus.onProposal config node.machine order ctx proposal with
  | (machine, .ok _) => cacheProposal { node with machine := machine } proposal
  | (machine, .error .staleProposal) => cacheProposal { node with machine := machine } proposal
  | (machine, .error _) => { node with machine := machine }

def CommitNode.act : NodeCall → CommitNode
  | .deliver (.proposal order ctx proposal) => deliverProposal config node order ctx proposal
  | .deliver event => { node with machine := step config node.machine event }
  | .commitBlock around ctx block quorumCert => (Node.commitBlock config around ctx node block quorumCert true true).1
  | .commitFinalizedBlock around ctx => (Node.commitFinalizedBlock config around ctx node).1
  | .commitMessage around ctx block quorumCert proof => acceptCommitMessage config around ctx node block quorumCert proof

def CommitNode.run (calls : List NodeCall) : CommitNode :=
  calls.foldl (CommitNode.act config) node

variable (machine : StateMachine)

def Decided (block : Block) : Prop :=
  ∃ decision ∈ machine.committed, decision.committedHeight = block.header.height ∧ decision.committedBlockHash = hashBlock block

-- A block handed to the node from outside is one its own machine has decided.
def NodePlaces : NodeCall → Prop
  | .deliver event => Places config node.machine (.deliver event)
  | .commitBlock _ _ block quorumCert | .commitMessage _ _ block quorumCert _ =>
    Decided node.machine block ∧ Places config node.machine (.observeCommittedBlock block quorumCert)
  | .commitFinalizedBlock _ _ => True

instance decidableNodePlaces : (call : NodeCall) → Decidable (NodePlaces config node call)
  | .deliver event => decidablePlaces config node.machine (.deliver event)
  | .commitBlock _ _ _ _ | .commitMessage _ _ _ _ _ => inferInstanceAs (Decidable ((∃ decision ∈ _, _) ∧ _))
  | .commitFinalizedBlock _ _ => isTrue trivial

def AllNodePlace (config : StateMachineConfig) : CommitNode → List NodeCall → Prop
  | _, [] => True
  | node, call :: rest => NodePlaces config node call ∧ AllNodePlace config (node.act config call) rest

instance decidableAllNodePlace (config : StateMachineConfig) :
    (node : CommitNode) → (calls : List NodeCall) → Decidable (AllNodePlace config node calls)
  | _, [] => isTrue trivial
  | node, call :: rest =>
    have := decidableAllNodePlace config (node.act config call) rest
    inferInstanceAs (Decidable (_ ∧ _))

def NodeCall.block : NodeCall → Option Block
  | .deliver event => (Call.deliver event).block
  | .commitBlock _ _ block _ | .commitMessage _ _ block _ _ => some block
  | .commitFinalizedBlock _ _ => none

structure StoreLinked (Known : Block → Prop) (node : CommitNode) : Prop where
  linked : Linked config Known node.machine
  pending : ∀ blockHash proposal, node.pending.lookup blockHash = some proposal →
    Known proposal.block ∧ (node.machine.blockTree.get (hashBlock proposal.block)).isSome
  records : ∀ height record, node.stored.lookup height = some record → record.hash = hashBlock record.block ∧
    record.block.header.height = height ∧ Known record.block ∧ Decided node.machine record.block

variable {config : StateMachineConfig} {Known : Block → Prop} {node : CommitNode}

structure Keeps (next : StateMachine) : Prop where
  decisions : ∀ decision ∈ machine.committed, decision ∈ next.committed
  blocks : ∀ key, (machine.blockTree.get key).isSome → (next.blockTree.get key).isSome

theorem Keeps.refl : Keeps machine machine := ⟨fun _ member => member, fun _ stored => stored⟩

theorem Keeps.trans {first second third : StateMachine} (earlier : Keeps first second) (later : Keeps second third) : Keeps first third :=
  ⟨fun decision member => later.decisions decision (earlier.decisions decision member),
    fun key stored => later.blocks key (earlier.blocks key stored)⟩

theorem shape_is_some (tree : BlockTree) (key : Hash) : (tree.shape key).isSome = (tree.get key).isSome := by
  simp [BlockTree.shape]

theorem insert_stored (tree : BlockTree) (block : Block) (blockHash : Hash) (justifyQC : QuorumCert) (key : Hash)
    (stored : key = blockHash ∨ (tree.get key).isSome) : ((tree.insert block blockHash justifyQC).get key).isSome := by
  rw [← shape_is_some, insert_shape]
  by_cases same : key = blockHash
  · rw [same, Shape.put, Function.update_self]
    rfl
  · rw [Shape.put, Function.update_of_ne same, shape_is_some]
    exact stored.resolve_left same

theorem set_cert_stored {tree next : BlockTree} {qc : QuorumCert} (set : tree.setQuorumCert qc = .ok next) (key : Hash) :
    (next.get key).isSome = (tree.get key).isSome := by
  rw [← shape_is_some, set_cert_shape set, shape_is_some]

theorem on_proposal_keeps (config : StateMachineConfig) (machine : StateMachine) (order : List Hash) (ctx : Context)
    (proposal : Proposal) : Keeps machine (Consensus.onProposal config machine order ctx proposal).1 := by
  rcases Consensus.on_proposal_effect config machine order ctx proposal with same | ⟨-, base, rfl | rfl, commits, -⟩
  · rw [same]
    exact .refl machine
  · exact ⟨commits.kept, fun key stored => commits.blockTree ▸ stored⟩
  · refine ⟨commits.kept, fun key stored => ?_⟩
    rw [commits.blockTree]
    exact insert_stored _ _ _ _ key (.inr stored)

theorem perform_keeps (config : StateMachineConfig) (machine : StateMachine) (call : Call) : Keeps machine (perform config machine call) := by
  cases call with
  | deliver event =>
    cases event with
    | proposal order ctx proposal => exact on_proposal_keeps config machine order ctx proposal
    | vote ctx delivered =>
      have effect := on_vote_effect config machine ctx delivered
      refine ⟨fun decision member => effect.decisions.committed ▸ member, fun key stored => ?_⟩
      rcases effect.certified with ⟨tree, -⟩ | ⟨qc, -, set, -⟩
      · exact tree ▸ stored
      · exact (set_cert_stored set key).trans stored
    | timeoutVote order ctx delivered =>
      have effect := on_timeout_effect config machine order ctx delivered
      refine ⟨fun decision member => effect.decisions.committed ▸ member, fun key stored => ?_⟩
      rw [BlockTree.get] at stored ⊢
      exact effect.blocks ▸ stored
  | observeCommittedBlock block quorumCert =>
    have effect := observe_committed_effect config machine block quorumCert
    refine ⟨fun decision member => effect.decisions.committed ▸ member, fun key stored => ?_⟩
    obtain ⟨base, inserted, set⟩ := effect.tree
    have kept : (base.get key).isSome := by
      rcases inserted with rfl | ⟨-, rfl⟩
      · exact stored
      · exact insert_stored _ _ _ _ key (.inr stored)
    rcases set with tree | set
    · exact tree ▸ kept
    · exact (set_cert_stored set key).trans kept
  | updateValidatorSet validatorSet | startRound height round => exact ⟨fun _ member => member, fun _ stored => stored⟩

theorem perform_all_keeps (config : StateMachineConfig) (calls : List Call) (machine : StateMachine) :
    Keeps machine (performAll config machine calls) := by
  induction calls generalizing machine with
  | nil => exact .refl machine
  | cons call rest ih => exact (perform_keeps config machine call).trans (ih _)

-- A finalized height is never reassigned, whatever the machine is handed later.
theorem finalized_heights_fixed (config : StateMachineConfig) (set : SetSnapshot) (calls later : List Call) :
    let machine := performAll config (newStateMachine config set) calls
    let next := performAll config machine later
    LedgerSound next ∧ ∀ decision ∈ machine.committed, decision ∈ next.committed ∧
      next.commitIndex.lookup decision.committedHeight = some decision.committedBlockHash := by
  intro machine next
  have sound : LedgerSound next := perform_all_sound later (perform_all_sound calls (ledger_new config set))
  refine ⟨sound, fun decision member => ?_⟩
  have kept := (perform_all_keeps config later machine).decisions decision member
  exact ⟨kept, (sound.index _ _).mpr ⟨decision, kept, rfl, rfl⟩⟩

theorem StoreLinked.moved {machine : StateMachine} (sound : StoreLinked config Known node) (linked : Linked config Known machine)
    (keeps : Keeps node.machine machine) : StoreLinked config Known { node with machine := machine } := by
  refine ⟨linked, fun key waiting found => (sound.pending key waiting found).imp_right (keeps.blocks _), ?_⟩
  intro height record found
  obtain ⟨hash, place, recordKnown, decision, member, matching⟩ := sound.records height record found
  exact ⟨hash, place, recordKnown, decision, keeps.decisions decision member, matching⟩

theorem removed_pending_kept (pending : Table Hash Proposal) (height : Height) {blockHash : Hash} {proposal : Proposal}
    (found : (removePendingAtOrBelow pending height).lookup blockHash = some proposal) : pending.lookup blockHash = some proposal := by
  have erased : ∀ (entries : List (Sigma fun _ : Hash => Proposal)) (kept : Table Hash Proposal),
      (entries.foldl (fun kept entry => if entry.2.block.header.height ≤ height then kept.erase entry.1 else kept) kept).lookup blockHash =
        some proposal → kept.lookup blockHash = some proposal := by
    intro entries
    induction entries with
    | nil => exact fun kept found => found
    | cons entry rest ih =>
      intro kept found
      have earlier := ih _ found
      beta_reduce at earlier
      split at earlier
      · exact lookup_erase_some earlier
      · exact earlier
  exact erased pending.entries pending found

structure CommitEffect (config : StateMachineConfig) (node : CommitNode) (block : Block) (quorumCert : QuorumCert) (next : CommitNode) : Prop where
  stored : next.stored = node.stored ∨ (quorumCert.blockHash = hashBlock block ∧
    next.stored = node.stored.insert block.header.height ⟨block, hashBlock block, quorumCert⟩)
  machine : ∃ calls, next.machine = performAll config node.machine calls ∧ (calls = [] ∨
    calls = [.observeCommittedBlock block quorumCert] ∨ ∃ validatorSet height,
      calls = [.observeCommittedBlock block quorumCert, .updateValidatorSet validatorSet, .startRound height 0])
  pending : ∀ blockHash proposal, next.pending.lookup blockHash = some proposal → node.pending.lookup blockHash = some proposal

theorem finish_commit_effect (config : StateMachineConfig) (around : Surroundings) (node : CommitNode) (block : Block)
    (quorumCert : QuorumCert) (broadcast : Bool) :
    let next := (finishCommit config around node block quorumCert broadcast).1
    next.stored = node.stored ∧ CommitEffect config node block quorumCert next := by
  unfold finishCommit
  cases around.afterExecution with
  | some reason => exact ⟨rfl, .inl rfl, ⟨[], rfl, .inl rfl⟩, fun _ _ found => found⟩
  | none =>
    cases observed : observeCommittedBlock config node.machine block quorumCert with
    | mk machine result =>
      have one : machine = performAll config node.machine [.observeCommittedBlock block quorumCert] := by
        simp [performAll, perform, observed]
      cases result with
      | error reason => exact ⟨rfl, .inl rfl, ⟨_, one, .inr (.inl rfl)⟩, fun _ _ found => found⟩
      | ok done =>
        cases around.persistFailure with
        | some reason => exact ⟨rfl, .inl rfl, ⟨_, one, .inr (.inl rfl)⟩, fun _ _ found => found⟩
        | none =>
          cases around.registry (block.header.height + 1) with
          | error reason => exact ⟨rfl, .inl rfl, ⟨_, one, .inr (.inl rfl)⟩, fun _ _ found => found⟩
          | ok validatorSet =>
            refine ⟨?_, .inl ?_, ⟨_, ?_, .inr (.inr ⟨validatorSet,
              nextConsensusHeight (updateValidatorSet config machine validatorSet) (block.header.height + 1), rfl⟩)⟩, ?_⟩
            · simp only
              split <;> rfl
            · simp only
              split <;> rfl
            · simp only
              split <;> simp [performAll, perform, observed]
            · intro blockHash proposal found
              simp only at found
              split at found <;> exact removed_pending_kept _ _ found

theorem commit_block_effect (config : StateMachineConfig) (around : Surroundings) (ctx : Context) (node : CommitNode) (block : Block)
    (quorumCert : QuorumCert) (requireLocalQC broadcast : Bool) :
    CommitEffect config node block quorumCert (commitBlock config around ctx node block quorumCert requireLocalQC broadcast).1 := by
  have unchanged : CommitEffect config node block quorumCert node := ⟨.inl rfl, ⟨[], rfl, .inl rfl⟩, fun _ _ found => found⟩
  unfold commitBlock
  cases checked : checkCommit config around ctx node block quorumCert requireLocalQC with
  | error reason => exact unchanged
  | ok done =>
    simp only [checkCommit, ok_iff] at checked
    obtain ⟨-, hash, -⟩ := checked
    cases around.execute block quorumCert with
    | failed reason => exact unchanged
    | written failure =>
      cases failure with
      | some reason => exact ⟨.inr ⟨hash, rfl⟩, ⟨[], rfl, .inl rfl⟩, fun _ _ found => found⟩
      | none =>
        obtain ⟨stored, -, machine, pending⟩ := finish_commit_effect config around
          { node with
            stored := node.stored.insert block.header.height ⟨block, hashBlock block, quorumCert⟩
            committedHeight := block.header.height } block quorumCert broadcast
        exact ⟨.inr ⟨hash, stored⟩, machine, pending⟩

theorem check_proposal_not_stale (config : StateMachineConfig) (machine : StateMachine) (ctx : Context) (proposal : Proposal) :
    checkProposal config machine ctx proposal ≠ .error .staleProposal := by
  intro rejected
  have signature : verifyProposalSignature config machine proposal ≠ .error .staleProposal := by
    intro failed
    simp only [verifyProposalSignature, verifySignature] at failed
    split at failed
    · contradiction
    · simp only [bind_error_iff, require_error_iff] at failed
      rcases failed with ⟨-, wrong⟩ | ⟨-, -, failed⟩
      · contradiction
      · split at failed
        · contradiction
        · simp only [bind_error_iff, require_error_iff, Crypto.domainMessage] at failed
          rcases failed with wrong | ⟨-, -, -, wrong⟩
          · split at wrong <;> contradiction
          · contradiction
  have proposer : validateProposer config machine proposal.block.header.height proposal.round proposal.proposer ≠ .error .staleProposal := by
    intro failed
    simp only [validateProposer] at failed
    split at failed
    · split at failed
      · contradiction
      · simp [require_error_iff] at failed
    · contradiction
  have available : invalidProposalOf (DataAvailability.verify proposal.block.header proposal.block.txs) ≠ .error .staleProposal := by
    intro failed
    simp only [DataAvailability.verify, require] at failed
    split at failed
    · split at failed <;> simp [invalidProposalOf] at failed
    · split at failed <;> simp [invalidProposalOf] at failed
  simp only [checkProposal, bind_error_iff, require_error_iff, signature, proposer, available, reduceCtorEq, and_false, false_or,
    exists_false] at rejected

theorem on_proposal_stores (config : StateMachineConfig) (machine : StateMachine) (order : List Hash) (ctx : Context)
    (proposal : Proposal) (kept : (Consensus.onProposal config machine order ctx proposal).2 = .ok () ∨
      (Consensus.onProposal config machine order ctx proposal).2 = .error .staleProposal) :
    ((Consensus.onProposal config machine order ctx proposal).1.blockTree.get (config.hashBlock proposal.block)).isSome := by
  have inserted : ((insertBlock config machine proposal).blockTree.get (config.hashBlock proposal.block)).isSome :=
    insert_stored _ _ _ _ _ (.inl rfl)
  have stored : ((proposalBase config machine proposal).blockTree.get (config.hashBlock proposal.block)).isSome := by
    unfold proposalBase
    split
    · next certified =>
      exact Option.isSome_of_any certified
    · exact inserted
  rw [← (known_rules_from _ order).blockTree] at inserted stored
  have outcome := on_proposal_outcome config machine order ctx proposal
  generalize Consensus.onProposal config machine order ctx proposal = result at outcome kept ⊢
  cases outcome with
  | refused reason checked =>
    rcases kept with accepted | stale
    · contradiction
    · exact absurd (checked.trans stale) (check_proposal_not_stale config machine ctx proposal)
  | unsafeRefused checked uncertified current refused => simp at kept
  | conflicting checked _ next reason applied | outdated checked _ next applied =>
    rw [applied] at stored
    exact stored
  | accepted checked uncertified current safe next applied =>
    rw [applied] at inserted
    exact inserted

section Storing

variable (hashing : config.hashBlock = hashBlock) (collisionFree : Sha256.CollisionFree (blockPreimages Known))
include hashing collisionFree

theorem commit_block_linked {next : CommitNode} (sound : StoreLinked config Known node) {block : Block} {quorumCert : QuorumCert}
    (known : Known block) (decided : quorumCert.blockHash = hashBlock block → Decided node.machine block)
    (places : Places config node.machine (.observeCommittedBlock block quorumCert))
    (effect : CommitEffect config node block quorumCert next) : StoreLinked config Known next := by
  obtain ⟨calls, machine, shape⟩ := effect.machine
  have linked : Linked config Known (performAll config node.machine calls) := by
    refine perform_all_linked hashing collisionFree calls node.machine sound.linked ?_ ?_
    · rcases shape with rfl | rfl | ⟨validatorSet, height, rfl⟩ <;> simp [Call.block, known]
    · rcases shape with rfl | rfl | ⟨validatorSet, height, rfl⟩
      · trivial
      · exact ⟨places, trivial⟩
      · exact ⟨places, trivial, trivial, trivial⟩
  have keeps := perform_all_keeps config calls node.machine
  rw [← machine] at linked keeps
  have moved := sound.moved linked keeps
  refine ⟨linked, fun blockHash proposal found => moved.pending _ _ (effect.pending blockHash proposal found), ?_⟩
  intro height record found
  rcases effect.stored with same | ⟨certified, stored⟩
  · exact moved.records height record (same ▸ found)
  · rw [stored] at found
    rcases lookup_insert_cases found with ⟨rfl, rfl⟩ | ⟨-, earlier⟩
    · obtain ⟨decision, member, matching⟩ := decided certified
      exact ⟨rfl, rfl, known, decision, keeps.decisions decision member, matching⟩
    · exact moved.records height record earlier

theorem commit_decisions_linked (around : Surroundings) (ctx : Context) (pending : Table Hash Proposal) (decisions : List CommitDecision)
    (node : CommitNode) (sound : StoreLinked config Known node)
    (waiting : ∀ blockHash proposal, pending.lookup blockHash = some proposal →
      Known proposal.block ∧ (node.machine.blockTree.get (hashBlock proposal.block)).isSome)
    (own : ∀ decision ∈ decisions, decision ∈ node.machine.committed) :
    StoreLinked config Known (commitDecisions config around ctx pending node decisions).1 := by
  induction decisions generalizing node with
  | nil => exact sound
  | cons decision rest ih =>
    have later : ∀ other ∈ rest, other ∈ node.machine.committed := (forall_mem_cons.mp own).2
    have erased : ∀ {node : CommitNode} (blockHash : Hash), StoreLinked config Known node →
        StoreLinked config Known { node with pending := node.pending.erase blockHash } := fun blockHash sound =>
      ⟨sound.linked, fun key proposal found => sound.pending key proposal (lookup_erase_some found), sound.records⟩
    simp only [commitDecisions]
    split
    · exact ih _ (erased _ sound) waiting later
    · split
      · exact ih node sound waiting later
      · cases found : pending.lookup decision.committedBlockHash with
        | none => exact ih node sound waiting later
        | some proposal =>
          simp only
          split
          · exact ih node sound waiting later
          · rename_i matching
            obtain ⟨known, stored⟩ := waiting _ _ found
            have member := own decision mem_cons_self
            have effect := commit_block_effect config around ctx node proposal.block decision.commitQC false true
            have keeps : Keeps node.machine (commitBlock config around ctx node proposal.block decision.commitQC false true).1.machine := by
              obtain ⟨calls, machine, -⟩ := effect.machine
              rw [machine]
              exact perform_all_keeps config calls node.machine
            have next := commit_block_linked hashing collisionFree sound known
              (fun certified => ⟨decision, member, (not_not.mp matching).symm,
                (sound.linked.chain.decisions decision member).certHash.symm.trans certified⟩)
              (fun absent => by rw [hashing] at absent; rw [absent] at stored; contradiction) effect
            generalize commitBlock config around ctx node proposal.block decision.commitQC false true = outcome at next keeps ⊢
            obtain ⟨node', result⟩ := outcome
            split
            · rename_i same
              cases same
              exact ih _ (erased _ next) (fun key proposal found => (waiting key proposal found).imp_right (keeps.blocks _))
                fun other member => keeps.decisions other (later other member)
            · rename_i same
              cases same
              exact next
            · rename_i same
              cases same
              exact next

theorem deliver_proposal_linked (sound : StoreLinked config Known node) (order : List Hash) (ctx : Context)
    (proposal : Proposal) (known : Known proposal.block)
    (places : Places config node.machine (.deliver (.proposal order ctx proposal))) :
    StoreLinked config Known (deliverProposal config node order ctx proposal) := by
  have linked := on_proposal_linked hashing collisionFree sound.linked order ctx proposal known places
  have keeps := on_proposal_keeps config node.machine order ctx proposal
  have stores := on_proposal_stores config node.machine order ctx proposal
  unfold deliverProposal
  generalize Consensus.onProposal config node.machine order ctx proposal = outcome at linked keeps stores ⊢
  obtain ⟨machine, result⟩ := outcome
  have moved := sound.moved linked keeps
  have cached : (result = .ok () ∨ result = .error .staleProposal) →
      StoreLinked config Known (cacheProposal { node with machine := machine } proposal) := by
    intro kept
    unfold cacheProposal
    split
    · exact moved
    · refine ⟨linked, ?_, moved.records⟩
      intro key waiting found
      rcases lookup_insert_cases found with ⟨-, rfl⟩ | ⟨-, earlier⟩
      · exact ⟨known, hashing ▸ stores kept⟩
      · exact moved.pending key waiting earlier
  split
  · rename_i same
    cases same
    exact cached (.inl rfl)
  · rename_i same
    cases same
    exact cached (.inr rfl)
  · rename_i same
    cases same
    exact moved

theorem act_store_linked (sound : StoreLinked config Known node) (call : NodeCall)
    (known : ∀ block, call.block = some block → Known block) (places : NodePlaces config node call) :
    StoreLinked config Known (node.act config call) := by
  have stepped : ∀ event, (∀ block, (Call.deliver event).block = some block → Known block) → Places config node.machine (.deliver event) →
      StoreLinked config Known { node with machine := step config node.machine event } := by
    intro event known places
    exact sound.moved (perform_linked hashing collisionFree sound.linked (.deliver event) known places) (perform_keeps config node.machine (.deliver event))
  cases call with
  | deliver event =>
    cases event with
    | proposal order ctx proposal =>
      exact deliver_proposal_linked hashing collisionFree sound order ctx proposal (known _ rfl) places
    | vote ctx delivered | timeoutVote order ctx delivered => exact stepped _ known places
  | commitBlock around ctx block quorumCert =>
    exact commit_block_linked hashing collisionFree sound (known _ rfl) (fun _ => places.1) places.2
      (commit_block_effect config around ctx node block quorumCert true true)
  | commitFinalizedBlock around ctx =>
    exact commit_decisions_linked hashing collisionFree around ctx node.pending node.machine.committed node sound sound.pending
      fun _ member => member
  | commitMessage around ctx block quorumCert proof =>
    simp only [CommitNode.act, acceptCommitMessage]
    split
    · exact sound
    · split
      · exact sound
      · exact commit_block_linked hashing collisionFree sound (known _ rfl) (fun _ => places.1) places.2
          (commit_block_effect config around ctx node block quorumCert false false)

theorem run_store_linked (calls : List NodeCall) (node : CommitNode) (sound : StoreLinked config Known node)
    (known : ∀ call ∈ calls, ∀ block, call.block = some block → Known block) (places : AllNodePlace config node calls) :
    StoreLinked config Known (node.run config calls) := by
  induction calls generalizing node with
  | nil => exact sound
  | cons call rest ih =>
    have next := act_store_linked hashing collisionFree sound call (known call mem_cons_self) places.1
    exact ih _ next (forall_mem_cons.mp known).2 places.2

theorem stored_names_parent (sound : StoreLinked config Known node) {height : Height} {record next : BlockRecord}
    (found : node.stored.lookup height = some record) (foundNext : node.stored.lookup (height + 1) = some next)
    (follows : height < height + 1) : next.block.header.previousBlockHash = record.hash := by
  obtain ⟨hash, place, known, decision, member, decidedHeight, decidedHash⟩ := sound.records _ _ found
  obtain ⟨hash', place', known', decision', member', decidedHeight', decidedHash'⟩ := sound.records _ _ foundNext
  have heights : decision.committedHeight = height := decidedHeight.trans place
  have heights' : decision'.committedHeight = height + 1 := decidedHeight'.trans place'
  have reaches := linked_decisions sound.linked member member' (heights ▸ heights' ▸ follows)
  have levels := heights_sound_levels sound.linked.heights
  have present : height + 1 ≠ 0 := by
    intro zero
    rw [zero] at follows
    exact UInt64.not_lt_zero follows
  have level := sound.linked.levels decision member
  have level' := sound.linked.levels decision' member'
  rw [heights', next_height_to_nat rfl present, ← heights] at level'
  obtain ⟨-, below, stored⟩ := shape_parent_some (levels.parent_of_next reaches level level')
  rw [decidedHash', ← hashing] at stored
  have same := same_place hashing collisionFree sound.linked.chain.nodes known' _ stored
  rw [(Prod.mk.inj same).1.symm, decidedHash, hash]

end Storing

theorem store_linked_new (set : SetSnapshot) : StoreLinked config Known (newCommitNode config set) := by
  refine ⟨linked_new set, ?_, ?_⟩
  · intro blockHash proposal found
    simp [newCommitNode] at found
  · intro height record found
    simp [newCommitNode] at found

theorem committed_chain_linked (config : StateMachineConfig) (Known : Block → Prop) (hashing : config.hashBlock = hashBlock)
    (collisionFree : Sha256.CollisionFree (blockPreimages Known)) (set : SetSnapshot) :
    (∀ calls : List Call, (∀ call ∈ calls, ∀ block, call.block = some block → Known block) → AllPlace config (newStateMachine config set) calls →
      let machine := performAll config (newStateMachine config set) calls
      ∀ first ∈ machine.committed, ∀ second ∈ machine.committed, first.committedHeight < second.committedHeight →
        Reaches₁ machine.blockTree.shape.parent second.committedBlockHash first.committedBlockHash) ∧
    ∀ calls : List NodeCall, (∀ call ∈ calls, ∀ block, call.block = some block → Known block) → AllNodePlace config (newCommitNode config set) calls →
      let node := (newCommitNode config set).run config calls
      ∀ height record next, node.stored.lookup height = some record → node.stored.lookup (height + 1) = some next →
        height < height + 1 → next.block.header.previousBlockHash = record.hash := by
  constructor
  · intro calls known places machine first firstDecided second secondDecided below
    exact linked_decisions (perform_all_linked hashing collisionFree calls _ (linked_new set) known places) firstDecided secondDecided below
  · intro calls known places node height record next found foundNext follows
    exact stored_names_parent hashing collisionFree
      (run_store_linked hashing collisionFree calls _ (store_linked_new set) known places) found foundNext follows

section SoleProposer

open ByteCodec

def soleSet : SetSnapshot := ⟨[plainValidator]⟩

def chainFrom (height : Height) (parent : Hash) : Nat → List Block
  | 0 => []
  | length + 1 =>
    let block : Block := ⟨⟨utf8 "vexo", height, 0, parent, zeroHash, soleSet.hash, zeroHash, zeroHash⟩, []⟩
    block :: chainFrom (height + 1) (hashBlock block) length

def soleCert (block : Block) : QuorumCert :=
  ⟨block.header.height, 0, hashBlock block, plainValidator.id, comma :: plainValidator.publicKey, 1⟩

def proposing (justifyQC : QuorumCert) (block : Block) : Event :=
  .proposal [] Context.background ⟨block, 0, plainValidator.id, justifyQC, plainValidator.publicKey⟩

def proposals (blocks : List Block) : List Event := (zeroQC :: blocks.map soleCert).zipWith proposing blocks

def succeeding : Surroundings :=
  ⟨fun _ _ => .written none, none, none, none, fun _ => .ok soleSet, some echoSignatures, fun _ => false⟩

def rootChain (length : Nat) : List Block := chainFrom 1 zeroHash length
def looseChain : List Block := chainFrom 2 zeroHash 3

def looseEvents : List Event := proposals (rootChain 3) ++ proposals looseChain

variable (events : List Event)

def decideAll : StateMachine :=
  performAll echoConfig (newStateMachine echoConfig soleSet) (events.map .deliver)

def commitTwice : List NodeCall :=
  events.map .deliver ++ [.commitFinalizedBlock succeeding Context.background, .commitFinalizedBlock succeeding Context.background]

def storeTwo : CommitNode := (newCommitNode echoConfig soleSet).run echoConfig (commitTwice events)

def CommitNode.links (node : CommitNode) : Option (Hash × Hash) := do
  let record ← node.stored.lookup 1
  let next ← node.stored.lookup 2
  return (record.hash, next.block.header.previousBlockHash)

theorem links_some {links : Hash × Hash} (found : node.links = some links) :
    ∃ record next, node.stored.lookup 1 = some record ∧ node.stored.lookup 2 = some next ∧
      links = (record.hash, next.block.header.previousBlockHash) := by
  simp only [CommitNode.links, Option.bind_eq_bind, Option.bind_eq_some_iff] at found
  obtain ⟨record, stored, next, storedNext, same⟩ := found
  exact ⟨record, next, stored, storedNext, (Option.some.inj same).symm⟩

theorem loose_evaluated : (∃ first ∈ (decideAll looseEvents).committed, ∃ second ∈ (decideAll looseEvents).committed,
      first.committedHeight < second.committedHeight ∧ (decideAll looseEvents).blockTree.shape.parent second.committedBlockHash = none) ∧
    ∃ links ∈ (storeTwo looseEvents).links, links.2 ≠ links.1 := by
  decide +kernel

-- A block at height two that names no parent is decided after height one, and stored on top of it.
theorem loose_block_committed : (∃ calls, let machine := performAll echoConfig (newStateMachine echoConfig soleSet) calls
      ∃ first ∈ machine.committed, ∃ second ∈ machine.committed, first.committedHeight < second.committedHeight ∧
        ¬ Reaches₁ machine.blockTree.shape.parent second.committedBlockHash first.committedBlockHash) ∧
    ∃ calls, let node := (newCommitNode echoConfig soleSet).run echoConfig calls
      ∃ record next, node.stored.lookup 1 = some record ∧ node.stored.lookup 2 = some next ∧ next.block.header.previousBlockHash ≠ record.hash := by
  obtain ⟨⟨first, firstDecided, second, secondDecided, below, parentless⟩, links, linked, differ⟩ := loose_evaluated
  constructor
  · refine ⟨looseEvents.map .deliver, first, firstDecided, second, secondDecided, below, ?_⟩
    intro reaches
    obtain ⟨parent, named, -⟩ := Relation.TransGen.head'_iff.mp reaches
    rw [Option.mem_def] at named
    exact absurd (parentless.symm.trans named) (Option.some_ne_none _).symm
  · obtain ⟨record, next, found, foundNext, rfl⟩ := links_some linked
    exact ⟨commitTwice looseEvents, record, next, found, foundNext, differ⟩

theorem linked_evaluated : (∀ first ∈ rootChain 4, ∀ second ∈ rootChain 4, hashBlock first = hashBlock second → first = second) ∧
    AllPlace echoConfig (newStateMachine echoConfig soleSet) ((proposals (rootChain 4)).map .deliver) ∧
    AllNodePlace echoConfig (newCommitNode echoConfig soleSet) (commitTwice (proposals (rootChain 4))) ∧
    (∃ first ∈ (decideAll (proposals (rootChain 4))).committed, ∃ second ∈ (decideAll (proposals (rootChain 4))).committed,
      first.committedHeight < second.committedHeight) ∧
    (storeTwo (proposals (rootChain 4))).links.isSome := by
  decide +kernel

theorem root_chain_linked : (∃ first ∈ (decideAll (proposals (rootChain 4))).committed, ∃ second ∈ (decideAll (proposals (rootChain 4))).committed,
      Reaches₁ (decideAll (proposals (rootChain 4))).blockTree.shape.parent second.committedBlockHash first.committedBlockHash) ∧
    ∃ record next, (storeTwo (proposals (rootChain 4))).stored.lookup 1 = some record ∧
      (storeTwo (proposals (rootChain 4))).stored.lookup 2 = some next ∧ next.block.header.previousBlockHash = record.hash := by
  obtain ⟨distinct, places, nodePlaces, ⟨first, firstDecided, second, secondDecided, below⟩, links⟩ := linked_evaluated
  obtain ⟨decisions, records⟩ :=
    committed_chain_linked echoConfig (· ∈ rootChain 4) rfl (collision_free_blocks distinct) soleSet
  have known : ∀ event ∈ proposals (rootChain 4), ∀ block, (Call.deliver event).block = some block → block ∈ rootChain 4 := by
    intro event member block named
    obtain ⟨index, inside, rfl⟩ := mem_iff_getElem.mp member
    simp only [proposals, getElem_zipWith, proposing, Call.block, Option.some.injEq] at named
    exact named ▸ getElem_mem _
  constructor
  · refine ⟨first, firstDecided, second, secondDecided, decisions _ ?_ places first firstDecided second secondDecided below⟩
    intro call member
    obtain ⟨event, proposed, rfl⟩ := mem_map.mp member
    exact known event proposed
  · obtain ⟨found, linked⟩ := Option.isSome_iff_exists.mp links
    obtain ⟨record, next, stored, storedNext, -⟩ := links_some linked
    refine ⟨record, next, stored, storedNext, records _ ?_ nodePlaces 1 record next stored storedNext (by decide)⟩
    intro call member block named
    rcases mem_append.mp member with delivered | committing
    · obtain ⟨event, proposed, rfl⟩ := mem_map.mp delivered
      exact known event proposed block named
    · simp only [mem_cons, not_mem_nil, or_false, or_self] at committing
      rw [committing] at named
      contradiction

end SoleProposer

end Vexo.Node
