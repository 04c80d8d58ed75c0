import VexoConsensus.Consensus.StateMachine

namespace Vexo.Consensus

open Finality Checks OrderedMap AList TimeoutCollector

section Decisions

def BlockTree.decision (tree : BlockTree) (blockHash : Hash) : Option CommitDecision :=
  (tree.commitCandidate blockHash).bind fun candidate => (ThreeChainCommitRule.decide candidate).toOption

def BlockTree.decisions (tree : BlockTree) (hashes : List Hash) : List CommitDecision := hashes.filterMap tree.decision

variable (machine : StateMachine) (decision : CommitDecision)

def StateMachine.recording : StateMachine :=
  let committed := (machine.committed ++ [decision]).insertionSort fun left right => left.committedHeight ≤ right.committedHeight
  { machine with
    committed := committed
    committedSet := decision.committedBlockHash :: machine.committedSet
    commitIndex := machine.commitIndex.insert decision.committedHeight decision.committedBlockHash
    status := { machine.status with lastFinalized := (committed.getLast?.map CommitDecision.committedBlockHash).getD zeroHash } }

def Blocked : Prop :=
  ∃ existing, machine.commitIndex.lookup decision.committedHeight = some existing ∧ existing ≠ decision.committedBlockHash

instance (machine : StateMachine) (decision : CommitDecision) : Decidable (Blocked machine decision) :=
  decidable_of_iff ((machine.commitIndex.lookup decision.committedHeight).any (· ≠ decision.committedBlockHash) = true) (by
    rw [Option.any_eq_true]
    exact exists_congr fun existing => and_congr_right fun _ => decide_eq_true_iff)

-- The loop of applyKnownCommitRules over the decisions instead of the blocks.
def commitAll : StateMachine → List CommitDecision → Outcome Unit
  | machine, [] => (machine, .ok ())
  | machine, decision :: rest =>
    if decision.committedBlockHash ∈ machine.committedSet then commitAll machine rest
    else if Blocked machine decision then (machine, .error .conflictingCommit)
    else commitAll (machine.recording decision) rest

variable {candidate : CommitCandidate}

theorem decide_error {reason : Err} (rejected : ThreeChainCommitRule.decide candidate = .error reason) :
    reason = .commitRuleNotSatisfied := by
  simp only [ThreeChainCommitRule.decide, bind_error_iff, require_error_iff] at rejected
  rcases rejected with ⟨-, rfl⟩ | ⟨-, -, ⟨-, rfl⟩ | ⟨-, -, ⟨-, rfl⟩ | ⟨-, -, ⟨-, rfl⟩ | ⟨-, -, ⟨-, rfl⟩ | ⟨-, -, returned⟩⟩⟩⟩⟩
  · rfl
  · rfl
  · rfl
  · rfl
  · rfl
  · contradiction

theorem apply_commit_rule_decided {machine : StateMachine} {decision : CommitDecision}
    (decides : ThreeChainCommitRule.decide candidate = .ok decision) :
    applyCommitRule machine candidate = if decision.committedBlockHash ∈ machine.committedSet then (machine, .ok decision)
      else if Blocked machine decision then (machine, .error .conflictingCommit)
      else (machine.recording decision, .ok decision) := by
  simp only [applyCommitRule, decides]
  by_cases known : decision.committedBlockHash ∈ machine.committedSet
  · rw [if_pos known, if_pos known]
  · rw [if_neg known, if_neg known, CommitIndex.record]
    cases found : machine.commitIndex.lookup decision.committedHeight with
    | none =>
      rw [if_neg (by rintro ⟨existing, taken, -⟩; rw [found] at taken; cases taken)]
      rfl
    | some existing =>
      by_cases same : existing = decision.committedBlockHash
      · rw [if_neg (by rintro ⟨other, taken, different⟩; rw [found] at taken; cases taken; exact different same)]
        simp only [same, ne_eq, not_true_eq_false, if_false]
        rfl
      · rw [if_pos ⟨existing, found, same⟩]
        simp only [ne_eq, same, not_false_eq_true, if_true]

theorem apply_commit_rules_eq (hashes : List Hash) (machine : StateMachine) :
    applyCommitRules machine hashes = commitAll machine (machine.blockTree.decisions hashes) := by
  induction hashes generalizing machine with
  | nil => rfl
  | cons blockHash rest ih =>
    rw [BlockTree.decisions, List.filterMap_cons, BlockTree.decision]
    cases found : machine.blockTree.commitCandidate blockHash with
    | none =>
      simp only [applyCommitRules, found, Option.bind_none]
      exact ih machine
    | some candidate =>
      simp only [applyCommitRules, found, Option.bind_some]
      cases decides : ThreeChainCommitRule.decide candidate with
      | error reason =>
        cases decide_error decides
        simp only [applyCommitRule, decides, Except.toOption]
        exact ih machine
      | ok decision =>
        rw [apply_commit_rule_decided decides]
        simp only [Except.toOption, commitAll]
        by_cases known : decision.committedBlockHash ∈ machine.committedSet
        · simp only [known, if_true]
          exact ih machine
        · by_cases blocked : Blocked machine decision
          · simp only [known, blocked, if_false, if_true]
          · simp only [known, blocked, if_false]
            exact ih (machine.recording decision)

theorem recording_mem (machine : StateMachine) (decision other : CommitDecision) :
    other ∈ (machine.recording decision).committed ↔ other ∈ machine.committed ∨ other = decision := by
  simp only [StateMachine.recording, (List.perm_insertionSort _ _).mem_iff, List.mem_append, List.mem_singleton]

theorem known_rules_eq (order : List Hash) :
    applyKnownCommitRules machine order = commitAll machine (machine.blockTree.decisions (visit machine.blockTree.blocks order)) :=
  apply_commit_rules_eq _ machine

theorem commit_all_keeps (Holds : StateMachine → Prop) (decisions : List CommitDecision)
    (step : ∀ machine, ∀ decision ∈ decisions, decision.committedBlockHash ∉ machine.committedSet → ¬ Blocked machine decision →
      Holds machine → Holds (machine.recording decision)) (machine : StateMachine) (start : Holds machine) :
    Holds (commitAll machine decisions).1 := by
  induction decisions generalizing machine with
  | nil => exact start
  | cons decision rest ih =>
    obtain ⟨head, tail⟩ := List.forall_mem_cons.mp fun decision member machine => step machine decision member
    have later := ih fun machine decision member => tail decision member machine
    rw [commitAll]
    split
    · exact later machine start
    · next known =>
      split
      · exact start
      · next blocked =>
        exact later _ (head machine known blocked start)

theorem commit_all_status (decisions : List CommitDecision) (machine : StateMachine) :
    (commitAll machine decisions).1.status.height = machine.status.height ∧ (commitAll machine decisions).1.status.round = machine.status.round :=
  commit_all_keeps (fun next => next.status.height = machine.status.height ∧ next.status.round = machine.status.round)
    decisions (fun _ _ _ _ _ same => same) machine ⟨rfl, rfl⟩

end Decisions

section Outcomes

variable (config : StateMachineConfig) (machine : StateMachine) (proposal : Proposal)

def Certified : Prop :=
  ((machine.blockTree.get (config.hashBlock proposal.block)).any fun known => known.quorumCert.height > 0) = true

def Behind : Prop :=
  proposal.block.header.height < machine.status.height ∨
    (proposal.block.header.height = machine.status.height ∧ proposal.round < machine.status.round)

instance (proposal : Proposal) : Decidable (Certified config machine proposal) := inferInstanceAs (Decidable (_ = true))

instance (proposal : Proposal) : Decidable (Behind machine proposal) := inferInstanceAs (Decidable (_ ∨ _))

-- The machine the commit rules run on: a certified block is not inserted again.
def proposalBase : StateMachine :=
  if Certified config machine proposal then machine else insertBlock config machine proposal

inductive ProposalOutcome (order : List Hash) (ctx : Context) (proposal : Proposal) : Outcome Unit → Prop where
  | refused (reason : Err) (checked : checkProposal config machine ctx proposal = .error reason) :
      ProposalOutcome order ctx proposal (machine, .error reason)
  | unsafeRefused (checked : checkProposal config machine ctx proposal = .ok ()) (uncertified : ¬ Certified config machine proposal)
      (current : ¬ Behind machine proposal) (refused : isSafeProposal machine proposal = false) :
      ProposalOutcome order ctx proposal (machine, .error .unsafeProposal)
  | conflicting (checked : checkProposal config machine ctx proposal = .ok ())
      (safe : Certified config machine proposal ∨ Behind machine proposal ∨ isSafeProposal machine proposal = true) (next : StateMachine)
      (reason : Err) (applied : applyKnownCommitRules (proposalBase config machine proposal) order = (next, .error reason)) :
      ProposalOutcome order ctx proposal (next, .error reason)
  | outdated (checked : checkProposal config machine ctx proposal = .ok ())
      (late : Certified config machine proposal ∨ Behind machine proposal) (next : StateMachine)
      (applied : applyKnownCommitRules (proposalBase config machine proposal) order = (next, .ok ())) :
      ProposalOutcome order ctx proposal (next, .error .staleProposal)
  | accepted (checked : checkProposal config machine ctx proposal = .ok ()) (uncertified : ¬ Certified config machine proposal)
      (current : ¬ Behind machine proposal) (safe : isSafeProposal machine proposal = true) (next : StateMachine)
      (applied : applyKnownCommitRules (insertBlock config machine proposal) order = (next, .ok ())) :
      ProposalOutcome order ctx proposal
        ({ next with
            status := { next.status with height := proposal.block.header.height, round := proposal.round, phase := .vote } }, .ok ())

theorem on_proposal_outcome (order : List Hash) (ctx : Context) (proposal : Proposal) :
    ProposalOutcome config machine order ctx proposal (onProposal config machine order ctx proposal) := by
  cases checked : checkProposal config machine ctx proposal with
  | error reason =>
    simp only [onProposal, checked]
    exact .refused reason checked
  | ok done =>
    cases done
    simp only [onProposal, checked]
    by_cases certified : Certified config machine proposal
    · have base : proposalBase config machine proposal = machine := if_pos certified
      rw [if_pos (show _ = true from certified)]
      cases applied : applyKnownCommitRules machine order with
      | mk next result =>
        cases result with
        | error reason => exact .conflicting checked (.inl certified) next reason (by rw [base, applied])
        | ok done => exact .outdated checked (.inl certified) next (by rw [base, applied])
    · have base : proposalBase config machine proposal = insertBlock config machine proposal := if_neg certified
      rw [if_neg (show ¬ _ = true from certified)]
      by_cases late : Behind machine proposal
      · rw [if_pos (show _ ∨ _ from late)]
        cases applied : applyKnownCommitRules (insertBlock config machine proposal) order with
        | mk next result =>
          cases result with
          | error reason => exact .conflicting checked (.inr (.inl late)) next reason (base ▸ applied)
          | ok done => exact .outdated checked (.inr late) next (base ▸ applied)
      · rw [if_neg (show ¬ (_ ∨ _) from late)]
        cases safe : isSafeProposal machine proposal with
        | false => exact .unsafeRefused checked certified late safe
        | true =>
          simp only [if_true]
          cases applied : applyKnownCommitRules (insertBlock config machine proposal) order with
          | mk next result =>
            cases result with
            | error reason => exact .conflicting checked (.inr (.inr safe)) next reason (base ▸ applied)
            | ok done => exact .accepted checked certified late safe next applied

end Outcomes

structure CommitsFrom (base next : StateMachine) : Prop where
  validatorSet : next.validatorSet = base.validatorSet
  blockTree : next.blockTree = base.blockTree
  lockedQC : next.lockedQC = base.lockedQC
  votes : next.votes = base.votes
  timeouts : next.timeouts = base.timeouts
  kept : ∀ decision ∈ base.committed, decision ∈ next.committed
  decided : ∀ decision ∈ next.committed, decision ∈ base.committed ∨ ∃ blockHash candidate,
    base.blockTree.commitCandidate blockHash = some candidate ∧ ThreeChainCommitRule.decide candidate = .ok decision

variable (config : StateMachineConfig) (machine : StateMachine)

theorem CommitsFrom.refl : CommitsFrom machine machine :=
  ⟨rfl, rfl, rfl, rfl, rfl, fun _ member => member, fun _ member => .inl member⟩

theorem CommitsFrom.trans {first second third : StateMachine} (earlier : CommitsFrom first second)
    (later : CommitsFrom second third) : CommitsFrom first third := by
  refine ⟨later.validatorSet.trans earlier.validatorSet, later.blockTree.trans earlier.blockTree,
    later.lockedQC.trans earlier.lockedQC, later.votes.trans earlier.votes, later.timeouts.trans earlier.timeouts,
    fun decision member => later.kept decision (earlier.kept decision member), ?_⟩
  intro decision member
  rcases later.decided decision member with known | ⟨blockHash, candidate, found, decides⟩
  · exact earlier.decided decision known
  · exact .inr ⟨blockHash, candidate, earlier.blockTree ▸ found, decides⟩

structure DecisionRecorded (machine : StateMachine) (decision : CommitDecision) (next : StateMachine) : Prop where
  validatorSet : next.validatorSet = machine.validatorSet
  blockTree : next.blockTree = machine.blockTree
  lockedQC : next.lockedQC = machine.lockedQC
  votes : next.votes = machine.votes
  timeouts : next.timeouts = machine.timeouts
  committed : ∀ other, other ∈ next.committed ↔ other ∈ machine.committed ∨ other = decision
  committedSet : next.committedSet = decision.committedBlockHash :: machine.committedSet
  commitIndex : next.commitIndex = machine.commitIndex.insert decision.committedHeight decision.committedBlockHash

inductive RuleOutcome (machine : StateMachine) (candidate : CommitCandidate) : Outcome CommitDecision → Prop
  | unsatisfied (never : ∀ decision, ThreeChainCommitRule.decide candidate ≠ .ok decision) :
      RuleOutcome machine candidate (machine, .error .commitRuleNotSatisfied)
  | known (decision : CommitDecision) (decides : ThreeChainCommitRule.decide candidate = .ok decision)
      (member : decision.committedBlockHash ∈ machine.committedSet) : RuleOutcome machine candidate (machine, .ok decision)
  | conflict (decision : CommitDecision) (decides : ThreeChainCommitRule.decide candidate = .ok decision) (existing : Hash)
      (found : machine.commitIndex.lookup decision.committedHeight = some existing)
      (different : existing ≠ decision.committedBlockHash) : RuleOutcome machine candidate (machine, .error .conflictingCommit)
  | recorded (decision : CommitDecision) (decides : ThreeChainCommitRule.decide candidate = .ok decision) (next : StateMachine)
      (effect : DecisionRecorded machine decision next) : RuleOutcome machine candidate (next, .ok decision)

theorem recording_recorded (decision : CommitDecision) : DecisionRecorded machine decision (machine.recording decision) :=
  ⟨rfl, rfl, rfl, rfl, rfl, fun other => recording_mem machine decision other, rfl, rfl⟩

theorem apply_commit_rule_outcome (candidate : CommitCandidate) : RuleOutcome machine candidate (applyCommitRule machine candidate) := by
  cases decides : ThreeChainCommitRule.decide candidate with
  | error reason =>
    cases decide_error decides
    simp only [applyCommitRule, decides]
    exact .unsatisfied fun decision decided => by rw [decides] at decided; contradiction
  | ok decision =>
    rw [apply_commit_rule_decided decides]
    split
    · next known => exact .known decision decides known
    · split
      · next blocked =>
        obtain ⟨existing, found, different⟩ := blocked
        exact .conflict decision decides existing found different
      · exact .recorded decision decides _ (recording_recorded machine decision)

theorem decisions_iff {tree : BlockTree} {hashes : List Hash} {decision : CommitDecision} : decision ∈ tree.decisions hashes ↔
    ∃ blockHash ∈ hashes, ∃ candidate, tree.commitCandidate blockHash = some candidate ∧ ThreeChainCommitRule.decide candidate = .ok decision := by
  simp only [BlockTree.decisions, BlockTree.decision, List.mem_filterMap, Option.bind_eq_some_iff, to_option_iff]

theorem apply_commit_rules_from (hashes : List Hash) : CommitsFrom machine (applyCommitRules machine hashes).1 := by
  rw [apply_commit_rules_eq]
  refine commit_all_keeps (CommitsFrom machine) _ (fun base decision listed _ _ held => held.trans ?_) machine (.refl machine)
  obtain ⟨blockHash, -, decides⟩ := decisions_iff.mp listed
  have effect := recording_recorded base decision
  refine ⟨rfl, rfl, rfl, rfl, rfl, fun other member => (effect.committed other).mpr (.inl member), fun other member => ?_⟩
  rcases (effect.committed other).mp member with old | rfl
  · exact .inl old
  · exact .inr ⟨blockHash, held.blockTree ▸ decides⟩

theorem known_rules_from (order : List Hash) : CommitsFrom machine (applyKnownCommitRules machine order).1 :=
  apply_commit_rules_from machine _

structure SameDecisions (machine next : StateMachine) : Prop where
  committed : next.committed = machine.committed
  committedSet : next.committedSet = machine.committedSet
  commitIndex : next.commitIndex = machine.commitIndex

theorem SameDecisions.refl : SameDecisions machine machine := ⟨rfl, rfl, rfl⟩

theorem SameDecisions.trans {first second third : StateMachine} (earlier : SameDecisions first second)
    (later : SameDecisions second third) : SameDecisions first third :=
  ⟨later.committed.trans earlier.committed, later.committedSet.trans earlier.committedSet, later.commitIndex.trans earlier.commitIndex⟩

theorem on_proposal_effect (order : List Hash) (ctx : Context) (proposal : Proposal) : (onProposal config machine order ctx proposal).1 = machine ∨
      (checkProposal config machine ctx proposal = .ok () ∧ ∃ base, (base = machine ∨ base = insertBlock config machine proposal) ∧
          CommitsFrom base (onProposal config machine order ctx proposal).1 ∧
          SameDecisions (applyKnownCommitRules base order).1 (onProposal config machine order ctx proposal).1) := by
  have stay := known_rules_from (proposalBase config machine proposal) order
  have insert := known_rules_from (insertBlock config machine proposal) order
  have base : proposalBase config machine proposal = machine ∨ proposalBase config machine proposal = insertBlock config machine proposal := by
    unfold proposalBase
    split
    · exact .inl rfl
    · exact .inr rfl
  have outcome := on_proposal_outcome config machine order ctx proposal
  generalize onProposal config machine order ctx proposal = result at outcome ⊢
  cases outcome with
  | refused reason checked => exact .inl rfl
  | unsafeRefused checked uncertified current refused => exact .inl rfl
  | conflicting checked _ next reason applied | outdated checked _ next applied =>
    rw [applied] at stay
    exact .inr ⟨checked, _, base, stay, by rw [applied]; exact .refl next⟩
  | accepted checked uncertified current safe next applied =>
    rw [applied] at insert
    refine .inr ⟨checked, _, .inr rfl, ⟨insert.validatorSet, insert.blockTree, insert.lockedQC, insert.votes, insert.timeouts,
      insert.kept, insert.decided⟩, ?_⟩
    rw [applied]
    exact ⟨rfl, rfl, rfl⟩

-- Everything a delivered vote may change. The certificate, if one forms, is built from the votes the step leaves behind.
structure VoteEffect (config : StateMachineConfig) (machine : StateMachine) (vote : Vote) (next : StateMachine) : Prop where
  validatorSet : next.validatorSet = machine.validatorSet
  decisions : SameDecisions machine next
  timeouts : next.timeouts = machine.timeouts
  recorded : next.votes = machine.votes ∨ (validateVote config machine (ensureVoteSignature config vote) = .ok () ∧
      (machine.validatorSet.get vote.validatorID).isSome ∧
      next.votes = machine.votes.insert (vote.height, vote.round, vote.blockHash)
        ((votesForBlock machine vote.height vote.round vote.blockHash).insert vote.validatorID (ensureVoteSignature config vote)))
  certified : (next.blockTree = machine.blockTree ∧ next.lockedQC = machine.lockedQC) ∨
    ∃ qc, buildQuorumCert config next vote.height vote.round vote.blockHash = .ok qc ∧
      machine.blockTree.setQuorumCert qc = .ok next.blockTree ∧ (next.lockedQC = machine.lockedQC ∨ next.lockedQC = qc)

variable (vote : Vote)

theorem VoteEffect.unchanged : VoteEffect config machine vote machine :=
  ⟨rfl, .refl machine, rfl, .inl rfl, .inl ⟨rfl, rfl⟩⟩

@[simp] theorem ensure_vote_fields : (ensureVoteSignature config vote).height = vote.height ∧ (ensureVoteSignature config vote).round = vote.round ∧
      (ensureVoteSignature config vote).blockHash = vote.blockHash ∧
      (ensureVoteSignature config vote).validatorID = vote.validatorID := by
  unfold ensureVoteSignature
  split <;> simp

theorem update_locked_cases (qc : QuorumCert) :
    updateLockedQC machine qc = machine ∨ updateLockedQC machine qc = { machine with lockedQC := qc } := by
  unfold updateLockedQC
  split
  · exact .inl rfl
  · split
    · exact .inr rfl
    · exact .inl rfl

theorem certify_votes_effect (config : StateMachineConfig) (machine : StateMachine) (vote : Vote) : let next := (certifyVotes config machine vote).1
    next.validatorSet = machine.validatorSet ∧ SameDecisions machine next ∧ next.timeouts = machine.timeouts ∧
      next.votes = machine.votes ∧ ((next.blockTree = machine.blockTree ∧ next.lockedQC = machine.lockedQC) ∨
        ∃ qc, buildQuorumCert config machine vote.height vote.round vote.blockHash = .ok qc ∧
          machine.blockTree.setQuorumCert qc = .ok next.blockTree ∧ (next.lockedQC = machine.lockedQC ∨ next.lockedQC = qc)) := by
  unfold certifyVotes
  cases built : buildQuorumCert config machine vote.height vote.round vote.blockHash with
  | error reason => exact ⟨rfl, .refl machine, rfl, rfl, .inl ⟨rfl, rfl⟩⟩
  | ok qc =>
    cases set : machine.blockTree.setQuorumCert qc with
    | error reason =>
      simp only [set]
      split
      · contradiction
      · exact ⟨rfl, ⟨rfl, rfl, rfl⟩, rfl, rfl, .inl ⟨rfl, rfl⟩⟩
      · exact ⟨rfl, ⟨rfl, rfl, rfl⟩, rfl, rfl, .inl ⟨rfl, rfl⟩⟩
    | ok tree =>
      rcases update_locked_cases { machine with blockTree := tree } qc with kept | raised
      · simp only [set, kept]
        exact ⟨trivial, ⟨rfl, rfl, rfl⟩, trivial, trivial, .inr ⟨qc, rfl, set, .inl trivial⟩⟩
      · simp only [set, raised]
        exact ⟨trivial, ⟨rfl, rfl, rfl⟩, trivial, trivial, .inr ⟨qc, rfl, set, .inr rfl⟩⟩

theorem build_quorum_cert_congr {machine other : StateMachine}
    (sets : machine.validatorSet = other.validatorSet) (votes : machine.votes = other.votes) (height : Height) (round : Round)
    (blockHash : Hash) :
    buildQuorumCert config machine height round blockHash = buildQuorumCert config other height round blockHash := by
  unfold buildQuorumCert votesForBlock
  rw [sets, votes]

structure VoteRecorded (machine : StateMachine) (vote : Vote) (next : StateMachine) : Prop where
  validatorSet : next.validatorSet = machine.validatorSet
  decisions : SameDecisions machine next
  timeouts : next.timeouts = machine.timeouts
  blockTree : next.blockTree = machine.blockTree
  lockedQC : next.lockedQC = machine.lockedQC
  votes : next.votes = machine.votes.insert (vote.height, vote.round, vote.blockHash)
    ((votesForBlock machine vote.height vote.round vote.blockHash).insert vote.validatorID vote)

theorem record_vote_cases : (∃ earlier, recordVote machine vote =
        ({ machine with evidence := machine.evidence ++ [.votes earlier vote] }, .error .conflictingVote)) ∨
      ∃ next, recordVote machine vote = (next, .ok ()) ∧ VoteRecorded machine vote next := by
  unfold recordVote
  simp only
  split
  · rename_i earlier _
    exact .inl ⟨earlier, rfl⟩
  · exact .inr ⟨_, rfl, rfl, ⟨rfl, rfl, rfl⟩, rfl, rfl, rfl, rfl⟩

theorem recorded_lookup {machine next : StateMachine} {vote stored : Vote}
    (recorded : next.votes = machine.votes.insert (vote.height, vote.round, vote.blockHash)
      ((votesForBlock machine vote.height vote.round vote.blockHash).insert vote.validatorID stored))
    {height : Height} {round : Round} {blockHash : Hash} {id : ValidatorID} {found : Vote}
    (present : (votesForBlock next height round blockHash).lookup id = some found) :
    (votesForBlock machine height round blockHash).lookup id = some found ∨
      (height = vote.height ∧ round = vote.round ∧ blockHash = vote.blockHash ∧ id = vote.validatorID ∧ found = stored) := by
  by_cases same : (height, round, blockHash) = (vote.height, vote.round, vote.blockHash)
  · obtain ⟨rfl, rest⟩ := Prod.mk.inj same
    obtain ⟨rfl, rfl⟩ := Prod.mk.inj rest
    simp only [votesForBlock, recorded, lookup_insert, Option.getD_some] at present
    rcases lookup_insert_cases present with ⟨rfl, rfl⟩ | ⟨-, earlier⟩
    · exact .inr ⟨rfl, rfl, rfl, rfl, rfl⟩
    · exact .inl earlier
  · simp only [votesForBlock, recorded, lookup_insert_ne same] at present
    exact .inl present

theorem on_vote_effect (ctx : Context) (vote : Vote) : VoteEffect config machine vote (onVote config machine ctx vote).1 := by
  obtain ⟨height, round, blockHash, validatorID⟩ := ensure_vote_fields config vote
  unfold onVote
  cases done : ctx.done with
  | true => exact .unchanged config machine vote
  | false =>
    cases found : machine.validatorSet.get vote.validatorID with
    | none => exact .unchanged config machine vote
    | some validator =>
      simp only [Bool.false_eq_true, if_false, Option.isNone_some]
      cases valid : validateVote config machine (ensureVoteSignature config vote) with
      | error reason => exact .unchanged config machine vote
      | ok checked =>
        rcases record_vote_cases machine (ensureVoteSignature config vote) with ⟨earlier, recorded⟩ | ⟨base, recorded, kept⟩
        · simp only [recorded]
          exact ⟨rfl, ⟨rfl, rfl, rfl⟩, rfl, .inl rfl, .inl ⟨rfl, rfl⟩⟩
        · simp only [recorded]
          obtain ⟨sets, decisions, timeouts, votes, certified⟩ :=
            certify_votes_effect config base (ensureVoteSignature config vote)
          have stored := votes.trans kept.votes
          simp only [height, round, blockHash, validatorID] at stored certified
          refine ⟨sets.trans kept.validatorSet, kept.decisions.trans decisions, timeouts.trans kept.timeouts,
            .inr ⟨valid, by rw [found]; rfl, stored⟩, ?_⟩
          rw [kept.blockTree, kept.lockedQC] at certified
          rcases certified with same | ⟨qc, built, set, locked⟩
          · exact .inl same
          · exact .inr ⟨qc, (build_quorum_cert_congr config sets votes _ _ _).trans built, set, locked⟩

structure TimeoutEffect (machine : StateMachine) (vote : TimeoutVote) (next : StateMachine) : Prop where
  validatorSet : next.validatorSet = machine.validatorSet
  decisions : SameDecisions machine next
  votes : next.votes = machine.votes
  lockedQC : next.lockedQC = machine.lockedQC
  blocks : next.blockTree.blocks = machine.blockTree.blocks
  collected : ∀ height round id stored, (next.timeouts.votesForRound height round).lookup id = some stored →
    (machine.timeouts.votesForRound height round).lookup id = some stored ∨ stored.highQC = vote.highQC
  highQC : next.blockTree.highQC = machine.blockTree.highQC ∨
    ∃ height round id stored, (next.timeouts.votesForRound height round).lookup id = some stored ∧ next.blockTree.highQC = stored.highQC

@[simp] theorem ensure_timeout_high_qc (vote : TimeoutVote) : (ensureTimeoutVoteSignature config vote).highQC = vote.highQC := by
  unfold ensureTimeoutVoteSignature
  split <;> rfl

theorem add_vote_collected {collector next : TimeoutCollector} {vote : TimeoutVote} (added : collector.addVote vote = .ok next)
    (height : Height) (round : Round) (id : ValidatorID) (stored : TimeoutVote)
    (found : (next.votesForRound height round).lookup id = some stored) :
    (collector.votesForRound height round).lookup id = some stored ∨ stored = vote := by
  simp only [addVote, ok_iff] at added
  obtain ⟨-, added⟩ := added
  split at added
  · simp only [ok_iff] at added
    obtain ⟨-, rfl⟩ : _ ∧ collector = next := ⟨added.1, Except.ok.inj added.2⟩
    exact .inl found
  · cases added
    by_cases sameRound : (height, round) = (vote.height, vote.round)
    · obtain ⟨rfl, rfl⟩ := Prod.mk.inj sameRound
      simp only [votesForRound, lookup_insert, Option.getD_some] at found
      rcases lookup_insert_cases found with ⟨-, rfl⟩ | ⟨-, earlier⟩
      · exact .inr rfl
      · exact .inl earlier
    · simp only [votesForRound, lookup_insert_ne sameRound] at found
      exact .inl found

theorem build_timeout_cert_high_qc {collector : TimeoutCollector} {order : List ValidatorID} {height : Height} {round : Round}
    {cert : TimeoutCert} (built : collector.buildTimeoutCert order height round = .ok cert) :
    cert.highQC = zeroQC ∨ ∃ id stored, (collector.votesForRound height round).lookup id = some stored ∧ cert.highQC = stored.highQC := by
  simp only [buildTimeoutCert, ok_iff] at built
  obtain ⟨-, ⟨power, members⟩, -, -, signature, -, returned⟩ := built
  cases returned
  rcases best_high_qc_from (members.filterMap fun id => (collector.votesForRound height round).lookup id) zeroQC with
    none | ⟨vote, member, chosen⟩
  · exact .inl none
  · obtain ⟨id, -, found⟩ := List.mem_filterMap.mp member
    exact .inr ⟨id, vote, found, chosen⟩

theorem on_timeout_effect (order : List ValidatorID) (ctx : Context)
    (vote : TimeoutVote) : TimeoutEffect machine vote (onTimeoutVote config machine order ctx vote).1 := by
  have unchanged : TimeoutEffect machine vote machine :=
    ⟨rfl, .refl machine, rfl, rfl, rfl, fun _ _ _ _ found => .inl found, .inl rfl⟩
  unfold onTimeoutVote
  by_cases done : ctx.done = true
  · simp only [done, if_true]
    exact unchanged
  · simp only [done]
    cases verifyTimeoutVoteSignature config machine (ensureTimeoutVoteSignature config vote) with
    | error reason => exact unchanged
    | ok checked =>
      cases added : machine.timeouts.addVote (ensureTimeoutVoteSignature config vote) with
      | error reason => exact ⟨rfl, ⟨rfl, rfl, rfl⟩, rfl, rfl, rfl, fun _ _ _ _ found => .inl found, .inl rfl⟩
      | ok timeouts =>
        have collected : ∀ height round id stored, (timeouts.votesForRound height round).lookup id = some stored →
            (machine.timeouts.votesForRound height round).lookup id = some stored ∨ stored.highQC = vote.highQC := by
          intro height round id stored found
          rcases add_vote_collected added height round id stored found with earlier | rfl
          · exact .inl earlier
          · exact .inr (ensure_timeout_high_qc config vote)
        simp only
        cases built : timeouts.buildTimeoutCert order (ensureTimeoutVoteSignature config vote).height
            (ensureTimeoutVoteSignature config vote).round with
        | error reason => exact ⟨rfl, ⟨rfl, rfl, rfl⟩, rfl, rfl, rfl, collected, .inl rfl⟩
        | ok cert =>
          simp only
          cases machine.pacemaker.advanceRound cert with
          | error reason => exact ⟨rfl, ⟨rfl, rfl, rfl⟩, rfl, rfl, rfl, collected, .inl rfl⟩
          | ok pacemaker =>
            refine ⟨rfl, ⟨rfl, rfl, rfl⟩, rfl, rfl, observe_blocks _ _, collected, ?_⟩
            rcases observe_high_qc machine.blockTree cert.highQC with kept | ⟨raised, present⟩
            · exact .inl kept
            · rcases build_timeout_cert_high_qc built with zero | ⟨id, stored, found, chosen⟩
              · exact absurd (congrArg QuorumCert.height zero) present
              · exact .inr ⟨_, _, id, stored, found, raised.trans chosen⟩

structure ObserveEffect (config : StateMachineConfig) (machine : StateMachine) (block : Block) (quorumCert : QuorumCert)
    (next : StateMachine) : Prop where
  validatorSet : next.validatorSet = machine.validatorSet
  decisions : SameDecisions machine next
  votes : next.votes = machine.votes
  timeouts : next.timeouts = machine.timeouts
  tree : ∃ base, (base = machine.blockTree ∨ (machine.blockTree.get (config.hashBlock block) = none ∧
      base = machine.blockTree.insert block (config.hashBlock block) zeroQC)) ∧
    (next.blockTree = base ∨ base.setQuorumCert quorumCert = .ok next.blockTree)
  lockedQC : next.lockedQC = machine.lockedQC ∨ next.lockedQC = quorumCert

theorem observe_committed_effect (block : Block) (quorumCert : QuorumCert) :
    ObserveEffect config machine block quorumCert (observeCommittedBlock config machine block quorumCert).1 := by
  unfold observeCommittedBlock
  simp only
  split
  · exact ⟨rfl, ⟨rfl, rfl, rfl⟩, rfl, rfl, ⟨_, .inl rfl, .inl rfl⟩, .inl rfl⟩
  · have inserted : ∀ tree, tree = (if (machine.blockTree.get (config.hashBlock block)).isSome then machine.blockTree
        else machine.blockTree.insert block (config.hashBlock block) zeroQC) →
        tree = machine.blockTree ∨ (machine.blockTree.get (config.hashBlock block) = none ∧
          tree = machine.blockTree.insert block (config.hashBlock block) zeroQC) := by
      rintro tree rfl
      cases machine.blockTree.get (config.hashBlock block) with
      | none => exact .inr ⟨rfl, rfl⟩
      | some node => exact .inl rfl
    generalize chosen : (if (machine.blockTree.get (config.hashBlock block)).isSome then machine.blockTree
        else machine.blockTree.insert block (config.hashBlock block) zeroQC) = tree
    have base := inserted tree chosen.symm
    cases set : tree.setQuorumCert quorumCert with
    | error reason => exact ⟨rfl, ⟨rfl, rfl, rfl⟩, rfl, rfl, ⟨tree, base, .inl rfl⟩, .inl rfl⟩
    | ok blockTree =>
      rcases update_locked_cases { machine with blockTree := blockTree } quorumCert with kept | raised
      · simp only [kept]
        exact ⟨rfl, ⟨rfl, rfl, rfl⟩, rfl, rfl, ⟨tree, base, .inr set⟩, .inl rfl⟩
      · simp only [raised]
        exact ⟨rfl, ⟨rfl, rfl, rfl⟩, rfl, rfl, ⟨tree, base, .inr set⟩, .inr rfl⟩

end Vexo.Consensus
