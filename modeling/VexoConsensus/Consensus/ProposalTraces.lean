import VexoConsensus.Consensus.CommittedChain

namespace Vexo.Consensus

open Finality OrderedMap List

section Traces

def SameTree (first second : BlockTree) : Prop := (∀ key, second.get key = first.get key) ∧ second.highQC = first.highQC

structure Untouched (machine next : StateMachine) : Prop where
  tree : SameTree machine.blockTree next.blockTree
  decisions : SameDecisions machine next
  lockedQC : next.lockedQC = machine.lockedQC
  status : next.status = machine.status

theorem untouched_refl (machine : StateMachine) : Untouched machine machine := ⟨⟨fun _ => rfl, rfl⟩, .refl machine, rfl, rfl⟩

variable (config : StateMachineConfig) (machine : StateMachine)

def metDecisions (order : List Hash) (proposal : Proposal) : List CommitDecision :=
  let base := proposalBase config machine proposal
  base.blockTree.decisions (visit base.blockTree.blocks order)

-- Nothing is inserted that was not there, and the first decision not yet taken is the one in conflict.
def ConflictsFirst (order : List Hash) (proposal : Proposal) : Prop :=
  SameTree machine.blockTree (proposalBase config machine proposal).blockTree ∧
    ∀ decision, (metDecisions config machine order proposal).find? (fun decision => decision.committedBlockHash ∉ machine.committedSet) =
      some decision → Blocked machine decision

variable {config machine}

theorem recording_length (machine : StateMachine) (decision : CommitDecision) :
    (machine.recording decision).committed.length = machine.committed.length + 1 := by
  simp only [StateMachine.recording, length_insertionSort, length_append, length_singleton]

variable (decisions : List CommitDecision)

theorem commit_all_grows (machine : StateMachine) : machine.committed.length ≤ (commitAll machine decisions).1.committed.length := by
  refine commit_all_keeps (fun next => machine.committed.length ≤ next.committed.length) decisions (fun next decision _ _ _ grown => ?_) machine (Nat.le_refl _)
  rw [recording_length]
  omega

theorem commit_all_nothing (machine : StateMachine) : (commitAll machine decisions).1.committed = machine.committed ↔
      ∀ decision, decisions.find? (fun decision => decision.committedBlockHash ∉ machine.committedSet) = some decision →
        Blocked machine decision := by
  induction decisions with
  | nil => exact iff_of_true rfl fun decision found => by cases found
  | cons decision rest ih =>
    rw [commitAll]
    split
    · next known =>
      rw [find?_cons_of_neg (by simp [known])]
      exact ih
    · next known =>
      rw [find?_cons_of_pos (by simp [known])]
      split
      · next blocked =>
        exact iff_of_true rfl fun other same => Option.some.inj same ▸ blocked
      · next blocked =>
        refine iff_of_false (fun same => ?_) fun all => blocked (all decision rfl)
        have grown := commit_all_grows rest (machine.recording decision)
        rw [same, recording_length] at grown
        omega

theorem commit_all_unmoved {decisions : List CommitDecision} {machine : StateMachine}
    (nothing : (commitAll machine decisions).1.committed = machine.committed) : (commitAll machine decisions).1 = machine := by
  induction decisions with
  | nil => rfl
  | cons decision rest ih =>
    rw [commitAll] at nothing ⊢
    by_cases known : decision.committedBlockHash ∈ machine.committedSet
    · rw [if_pos known] at nothing ⊢
      exact ih nothing
    · rw [if_neg known] at nothing ⊢
      by_cases blocked : Blocked machine decision
      · rw [if_pos blocked]
      · rw [if_neg blocked] at nothing
        have grown := commit_all_grows rest (machine.recording decision)
        rw [nothing, recording_length] at grown
        omega

theorem proposal_base_keeps (config : StateMachineConfig) (machine : StateMachine) (proposal : Proposal) :
    let base := proposalBase config machine proposal
    base.committed = machine.committed ∧ base.committedSet = machine.committedSet ∧ base.commitIndex = machine.commitIndex ∧
      base.lockedQC = machine.lockedQC ∧ base.status = machine.status := by
  unfold proposalBase
  split <;> exact ⟨rfl, rfl, rfl, rfl, rfl⟩

theorem conflict_untouched_iff {order : List Hash} {proposal : Proposal} {next : StateMachine} {result : Except Err Unit}
    (applied : applyKnownCommitRules (proposalBase config machine proposal) order = (next, result)) :
    Untouched machine next ↔ ConflictsFirst config machine order proposal := by
  obtain ⟨committed, committedSet, commitIndex, lockedQC, status⟩ := proposal_base_keeps config machine proposal
  have nothing := commit_all_nothing (metDecisions config machine order proposal) (proposalBase config machine proposal)
  have passed : commitAll (proposalBase config machine proposal) (metDecisions config machine order proposal) = (next, result) :=
    (known_rules_eq _ order).symm.trans applied
  have blocked : ∀ decision, Blocked (proposalBase config machine proposal) decision ↔ Blocked machine decision := by
    intro decision
    unfold Blocked
    rw [commitIndex]
  rw [passed, committed, committedSet] at nothing
  simp only [blocked] at nothing
  have tree := (known_rules_from (proposalBase config machine proposal) order).blockTree
  rw [applied] at tree
  constructor
  · intro untouched
    exact ⟨tree ▸ untouched.tree, nothing.mp untouched.decisions.committed⟩
  · rintro ⟨same, first⟩
    have unmoved := @commit_all_unmoved (metDecisions config machine order proposal) (proposalBase config machine proposal)
      (by rw [passed, committed]; exact nothing.mpr first)
    rw [passed] at unmoved
    simp only at unmoved
    rw [unmoved]
    exact ⟨same, ⟨committed, committedSet, commitIndex⟩, lockedQC, status⟩

end Traces

-- A proposal turned away, other than as stale, leaves no trace unless its commit rules end in a conflict.
theorem rejected_untouched_iff (config : StateMachineConfig) (machine : StateMachine) (order : List Hash) (ctx : Context) (proposal : Proposal)
    (reason : Err) (rejected : (onProposal config machine order ctx proposal).2 = .error reason) (other : reason ≠ .staleProposal) :
    Untouched machine (onProposal config machine order ctx proposal).1 ↔ checkProposal config machine ctx proposal ≠ .ok () ∨
      (¬ Certified config machine proposal ∧ ¬ Behind machine proposal ∧ isSafeProposal machine proposal = false) ∨
      ConflictsFirst config machine order proposal := by
  have outcome := on_proposal_outcome config machine order ctx proposal
  generalize onProposal config machine order ctx proposal = result at outcome rejected ⊢
  cases outcome with
  | refused refusal checked => exact iff_of_true (untouched_refl machine) (.inl (by rw [checked]; simp))
  | unsafeRefused checked uncertified current refused =>
    exact iff_of_true (untouched_refl machine) (.inr (.inl ⟨uncertified, current, refused⟩))
  | conflicting checked safe next error applied =>
    rw [conflict_untouched_iff applied]
    constructor
    · exact fun first => .inr (.inr first)
    · rintro (refused | ⟨uncertified, current, refused⟩ | first)
      · exact absurd checked refused
      · rcases safe with certified | late | safe
        · exact absurd certified uncertified
        · exact absurd late current
        · rw [refused] at safe
          cases safe
      · exact first
  | outdated checked late next applied => exact absurd (Except.error.inj rejected).symm other
  | accepted checked uncertified current safe next applied => cases rejected

section Redelivery

structure KeptCertificates (before after : BlockTree) : Prop where
  candidates : ∀ blockHash, (before.commitCandidate blockHash).isSome → (after.commitCandidate blockHash).isSome
  nodes : ∀ blockHash node, before.get blockHash = some node → ∃ next, after.get blockHash = some next ∧
    next.quorumCert = node.quorumCert ∧ node.justifyQC.height ≤ next.justifyQC.height

variable {config : StateMachineConfig} {machine : StateMachine} {Known : Block → Prop}

theorem perform_chain_sound (sound : ChainSound config Known (fun _ => True) machine) (call : Call)
    (known : ∀ block, call.block = some block → Known block) : ChainSound config Known (fun _ => True) (perform config machine call) := by
  cases call with
  | deliver event =>
    cases event with
    | proposal order ctx delivered => exact on_proposal_chain_sound sound order ctx delivered (known _ rfl) fun _ => trivial
    | vote ctx delivered => exact on_vote_chain_sound sound ctx delivered
    | timeoutVote order ctx delivered => exact on_timeout_chain_sound sound order ctx delivered
  | observeCommittedBlock block quorumCert => exact observe_chain_sound sound (known _ rfl) quorumCert
  | updateValidatorSet validatorSet | startRound height round => exact ⟨sound.nodes, sound.decisions⟩

theorem perform_all_chain_sound (calls : List Call) (machine : StateMachine) (sound : ChainSound config Known (fun _ => True) machine)
    (known : ∀ call ∈ calls, ∀ block, call.block = some block → Known block) :
    ChainSound config Known (fun _ => True) (performAll config machine calls) := by
  induction calls generalizing machine with
  | nil => exact sound
  | cons call rest ih =>
    exact ih _ (perform_chain_sound sound call (known call mem_cons_self))
      (forall_mem_cons.mp known).2

theorem insert_get_same (tree : BlockTree) (block : Block) (blockHash : Hash) (justifyQC : QuorumCert) :
    (tree.insert block blockHash justifyQC).get blockHash = some (tree.insertedNode block blockHash justifyQC) := by
  simp [BlockTree.get, BlockTree.insert]

variable {tree : BlockTree} {blockHash : Hash} {justifyQC : QuorumCert}

theorem insert_get_other {block : Block} {key : Hash} (other : key ≠ blockHash) : (tree.insert block blockHash justifyQC).get key = tree.get key := by
  simp [BlockTree.get, BlockTree.insert, AList.lookup_insert_ne other]

theorem commit_candidate_is_some {node parent : BlockNode} (found : tree.get blockHash = some node)
    (justified : node.justifyQC.height ≠ 0) (parentFound : tree.get node.justifyQC.blockHash = some parent)
    (parentJustified : parent.justifyQC.height ≠ 0) : (tree.commitCandidate blockHash).isSome := by
  simp [BlockTree.commitCandidate, found, justified, parentFound, parentJustified]

theorem nonzero_of_le {first second : Height} (ordered : first ≤ second) (present : first ≠ 0) : second ≠ 0 :=
  UInt64.pos_iff_ne_zero.mp (UInt64.lt_of_lt_of_le (UInt64.pos_iff_ne_zero.mpr present) ordered)

theorem insert_keeps_certificates {block : Block} (higher : ∀ node, tree.get blockHash = some node → node.justifyQC.height ≤ justifyQC.height)
    (parent : ∀ node, tree.get blockHash = some node → node.justifyQC.height ≠ 0 → justifyQC.height ≠ 0 →
      justifyQC.blockHash = node.justifyQC.blockHash) : KeptCertificates tree (tree.insert block blockHash justifyQC) := by
  have nodes : ∀ key node, tree.get key = some node → ∃ next, (tree.insert block blockHash justifyQC).get key = some next ∧
      next.quorumCert = node.quorumCert ∧ node.justifyQC.height ≤ next.justifyQC.height ∧
      (node.justifyQC.height ≠ 0 → next.justifyQC.blockHash = node.justifyQC.blockHash) := by
    intro key node found
    by_cases same : key = blockHash
    · cases same
      refine ⟨_, insert_get_same .., ?_, higher node found, fun present => ?_⟩
      · simp [BlockTree.insertedNode, found]
      · exact parent node found present (nonzero_of_le (higher node found) present)
    · exact ⟨node, (insert_get_other same).trans found, rfl, UInt64.le_refl _, fun _ => rfl⟩
  refine ⟨?_, fun key node found => ?_⟩
  · intro key candidate
    obtain ⟨_, found⟩ := Option.isSome_iff_exists.mp candidate
    obtain ⟨node, above, nodeFound, justified, aboveFound, aboveJustified, -⟩ := commit_candidate_some found
    obtain ⟨next, nextFound, -, nextHigher, nextParent⟩ := nodes key node nodeFound
    obtain ⟨aboveNext, aboveNextFound, -, aboveHigher, -⟩ := nodes _ above aboveFound
    exact commit_candidate_is_some nextFound (nonzero_of_le nextHigher justified) (by rw [nextParent justified]; exact aboveNextFound)
      (nonzero_of_le aboveHigher aboveJustified)
  · obtain ⟨next, nextFound, cert, heights, -⟩ := nodes key node found
    exact ⟨next, nextFound, cert, heights⟩

theorem accepted_tree {order : List Hash} {ctx : Context} {proposal : Proposal}
    (accepted : (onProposal config machine order ctx proposal).2 = .ok ()) :
    checkProposal config machine ctx proposal = .ok () ∧
      (onProposal config machine order ctx proposal).1.blockTree = (insertBlock config machine proposal).blockTree := by
  have outcome := on_proposal_outcome config machine order ctx proposal
  generalize onProposal config machine order ctx proposal = result at outcome accepted ⊢
  cases outcome with
  | refused reason checked => cases accepted
  | unsafeRefused checked uncertified current refused => cases accepted
  | conflicting checked safe next reason applied => cases accepted
  | outdated checked late next applied => cases accepted
  | accepted checked uncertified current safe next applied =>
    have tree := (known_rules_from (insertBlock config machine proposal) order).blockTree
    rw [applied] at tree
    exact ⟨checked, tree⟩

def ParentBound (config : StateMachineConfig) (Known : Block → Prop) : Prop :=
  ∀ first second, Known first → Known second → config.hashBlock first = config.hashBlock second →
    first.header.previousBlockHash = second.header.previousBlockHash

theorem redelivery_keeps_iff (config : StateMachineConfig) (Known : Block → Prop) (bound : ParentBound config Known) (set : SetSnapshot)
    (calls : List Call) (known : ∀ call ∈ calls, ∀ block, call.block = some block → Known block) (order : List Hash) (ctx : Context)
    (proposal : Proposal) (knownBlock : Known proposal.block) :
    let machine := performAll config (newStateMachine config set) calls
    (onProposal config machine order ctx proposal).2 = .ok () →
      (KeptCertificates machine.blockTree (onProposal config machine order ctx proposal).1.blockTree ↔
        ∀ node, machine.blockTree.get (config.hashBlock proposal.block) = some node → node.justifyQC.height ≤ proposal.justifyQC.height) := by
  intro machine accepted
  have sound : ChainSound config Known (fun _ => True) machine := perform_all_chain_sound calls _ (chain_sound_new set) known
  obtain ⟨checked, tree⟩ := accepted_tree accepted
  rw [tree]
  constructor
  · intro kept node found
    obtain ⟨next, nextFound, -, higher⟩ := kept.nodes _ node found
    rw [insertBlock, insert_get_same] at nextFound
    cases nextFound
    exact higher
  · intro higher
    refine insert_keeps_certificates higher fun node found present delivered => ?_
    have stored := sound.nodes _ node found
    rw [(stored.justified present).1, check_proposal_justify checked delivered]
    exact bound _ _ knownBlock stored.known stored.hashed.symm

end Redelivery

def filledHash (byte : UInt8) : Hash := ⟨List.replicate 32 byte, filled_length byte⟩

variable (block : Block)

-- A configured block hash: a block is named after its parent.
def tagHash : Hash := filledHash (block.header.previousBlockHash.bytes.headD 0 + 10)

def tagConfig : StateMachineConfig := { echoConfig with hashBlock := tagHash }

def forkBlock (height : Height) (previous : Hash) : Block :=
  let block := soleBlock ⟨[plainValidator]⟩
  { block with header := { block.header with height := height, previousBlockHash := previous } }

def secondOf (root : UInt8) : Block := forkBlock 2 (filledHash root)
def thirdOf (root : UInt8) : Block := forkBlock 3 (tagHash (secondOf root))
def fourthOf (root : UInt8) : Block := forkBlock 4 (tagHash (thirdOf root))

-- The certificate field is what the proposer claims; nothing checks it.
def claimed (block : Block) : QuorumCert := { zeroQC with height := block.header.height - 1, blockHash := block.header.previousBlockHash }
def claimingProposal (block : Block) : Proposal := ⟨block, 0, plainValidator.id, claimed block, plainValidator.publicKey⟩
def bareProposal : Proposal := { claimingProposal block with justifyQC := zeroQC }

def proposes : Call := .deliver (.proposal [] Context.background (claimingProposal block))

def forkStart : StateMachine := newStateMachine tagConfig ⟨[plainValidator]⟩
def oneBranch : List Call := [secondOf 1, thirdOf 1].map proposes
def twoBranches : List Call := [secondOf 1, thirdOf 1, secondOf 2].map proposes

theorem fork_evaluated : let before := performAll tagConfig forkStart twoBranches
    let after := onProposal tagConfig before [] .background (claimingProposal (thirdOf 2))
    after.2 = .error .conflictingCommit ∧ (before.blockTree.get (tagHash (thirdOf 2))).isSome = false ∧
      (after.1.blockTree.get (tagHash (thirdOf 2))).isSome = true := by
  decide +kernel

-- A height already committed on one branch: the conflicting block is refused and stays in the tree.
theorem conflicting_block_stays : let before := performAll tagConfig forkStart twoBranches
    let after := onProposal tagConfig before [] .background (claimingProposal (thirdOf 2))
    after.2 = .error .conflictingCommit ∧ ¬ Untouched before after.1 := by
  intro before after
  obtain ⟨conflict, absent, present⟩ := fork_evaluated
  refine ⟨conflict, fun untouched => ?_⟩
  have same := congrArg Option.isSome (untouched.tree.1 (tagHash (thirdOf 2)))
  rw [absent] at same
  exact absurd (same.symm.trans present) (by decide)

def strangerProposal : Proposal := { claimingProposal (secondOf 1) with proposer := [] }

theorem stranger_leaves_no_trace : (onProposal tagConfig forkStart [] Context.background strangerProposal).2 = .error .unknownValidator ∧
      Untouched forkStart (onProposal tagConfig forkStart [] Context.background strangerProposal).1 := by
  have checked : checkProposal tagConfig forkStart .background strangerProposal = .error .unknownValidator := by decide +kernel
  have rejected : (onProposal tagConfig forkStart [] .background strangerProposal).2 = .error .unknownValidator := by
    rw [onProposal, checked]
  exact ⟨rejected, (rejected_untouched_iff tagConfig forkStart [] .background strangerProposal _ rejected (by decide)).mpr
    (.inl (by rw [checked]; simp))⟩

theorem redelivery_evaluated : let before := performAll tagConfig forkStart oneBranch
    let bare := onProposal tagConfig before [] .background (bareProposal (thirdOf 1))
    let again := onProposal tagConfig before [] .background (claimingProposal (thirdOf 1))
    (before.blockTree.commitCandidate (tagHash (thirdOf 1))).isSome = true ∧ bare.2 = .ok () ∧
      (bare.1.blockTree.commitCandidate (tagHash (thirdOf 1))).isSome = false ∧ again.2 = .ok () ∧
      ((before.blockTree.get (tagHash (thirdOf 1))).all fun node => node.justifyQC.height ≤ (claimed (thirdOf 1)).height) = true := by
  decide +kernel

def branchKnown : Prop := block ∈ [secondOf 1, thirdOf 1]

theorem branch_parent_bound : ParentBound tagConfig branchKnown := by
  have apart : tagHash (secondOf 1) ≠ tagHash (thirdOf 1) := by decide
  rintro first second firstKnown secondKnown same
  simp only [branchKnown, mem_cons, not_mem_nil, or_false] at firstKnown secondKnown
  rcases firstKnown with rfl | rfl <;> rcases secondKnown with rfl | rfl
  · rfl
  · exact absurd same apart
  · exact absurd same.symm apart
  · rfl

theorem branch_known : ∀ call ∈ oneBranch, ∀ block, call.block = some block → branchKnown block := by
  intro call listed block named
  obtain ⟨proposed, member, rfl⟩ := mem_map.mp listed
  cases named
  exact member

-- The last block of a committing chain, delivered again without its certificate, is a candidate no more.
theorem bare_redelivery_drops_candidate :
    ParentBound tagConfig branchKnown ∧ (∀ call ∈ oneBranch, ∀ block, call.block = some block → branchKnown block) ∧ branchKnown (thirdOf 1) ∧
      let before := performAll tagConfig forkStart oneBranch
      let bare := onProposal tagConfig before [] .background (bareProposal (thirdOf 1))
      bare.2 = .ok () ∧ ¬ KeptCertificates before.blockTree bare.1.blockTree := by
  obtain ⟨candidate, accepted, dropped, -⟩ := redelivery_evaluated
  refine ⟨branch_parent_bound, branch_known, by simp [branchKnown], accepted, fun kept => ?_⟩
  exact absurd ((kept.candidates _ candidate).symm.trans dropped) (by decide)

theorem same_redelivery_keeps_candidate : let before := performAll tagConfig forkStart oneBranch
    let again := onProposal tagConfig before [] .background (claimingProposal (thirdOf 1))
    again.2 = .ok () ∧ KeptCertificates before.blockTree again.1.blockTree := by
  obtain ⟨-, -, -, accepted, heights⟩ := redelivery_evaluated
  refine ⟨accepted, (redelivery_keeps_iff tagConfig branchKnown branch_parent_bound ⟨[plainValidator]⟩ oneBranch branch_known []
    .background (claimingProposal (thirdOf 1)) (by simp [branchKnown, claimingProposal]) accepted).mpr ?_⟩
  intro node found
  have height := heights
  rw [show (performAll tagConfig forkStart oneBranch).blockTree.get (tagHash (thirdOf 1)) = some node from found] at height
  exact of_decide_eq_true height

end Vexo.Consensus
