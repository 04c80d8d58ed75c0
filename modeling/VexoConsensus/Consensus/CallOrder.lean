import VexoConsensus.Consensus.ProposalTraces

namespace Vexo.Consensus

open OrderedMap List AList Finality

section

variable (machine : StateMachine)

structure LedgerSound : Prop where
  sorted : machine.committed.Pairwise fun left right => left.committedHeight < right.committedHeight
  hashes : ∀ first ∈ machine.committed, ∀ second ∈ machine.committed, first.committedBlockHash = second.committedBlockHash → first = second
  set : ∀ blockHash, blockHash ∈ machine.committedSet ↔ ∃ decision ∈ machine.committed, decision.committedBlockHash = blockHash
  index : ∀ height blockHash, machine.commitIndex.lookup height = some blockHash ↔
    ∃ decision ∈ machine.committed, decision.committedHeight = height ∧ decision.committedBlockHash = blockHash
  lastFinalized : machine.status.lastFinalized = (machine.committed.getLast?.map CommitDecision.committedBlockHash).getD zeroHash

structure SameState (other : StateMachine) : Prop where
  rest : other = { machine with committedSet := other.committedSet, commitIndex := other.commitIndex }
  set : ∀ blockHash, blockHash ∈ other.committedSet ↔ blockHash ∈ machine.committedSet
  index : ∀ height, other.commitIndex.lookup height = machine.commitIndex.lookup height

structure SameOutcome (outcome other : Outcome Unit) : Prop where
  state : SameState outcome.1 other.1
  result : other.2 = outcome.2

def Pending (decision : CommitDecision) : Prop :=
  Possible machine.blockTree decision ∧ decision.committedBlockHash ∉ machine.committedSet

def Clash (first second : CommitDecision) : Prop :=
  first ≠ second ∧ (first.committedHeight = second.committedHeight ∨ first.committedBlockHash = second.committedBlockHash)

-- Everything pending can be recorded side by side, or nothing of it can be recorded at all.
def Confluent : Prop :=
  ((∀ decision, Pending machine decision → ¬ Blocked machine decision) ∧
      ∀ first second, Pending machine first → Pending machine second → ¬ Clash first second) ∨
    ∀ decision, Pending machine decision → Blocked machine decision

def StateMachine.undecided : StateMachine :=
  { machine with
    committed := []
    committedSet := []
    commitIndex := ∅
    status := { machine.status with lastFinalized := zeroHash } }

variable (decisions : List CommitDecision)

section Ledger

variable {machine : StateMachine} {decision : CommitDecision}

theorem ledger_new (config : StateMachineConfig) (set : SetSnapshot) : LedgerSound (newStateMachine config set) := by
  refine ⟨Pairwise.nil, ?_, ?_, ?_, rfl⟩
  · intro first member
    cases member
  · intro blockHash
    simp [newStateMachine]
  · intro height blockHash
    simp [newStateMachine]

theorem LedgerSound.heights (sound : LedgerSound machine) {first second : CommitDecision} (member : first ∈ machine.committed)
    (member' : second ∈ machine.committed) (same : first.committedHeight = second.committedHeight) : first = second := by
  have taken := (sound.index _ _).mpr ⟨first, member, rfl, rfl⟩
  have taken' := (sound.index _ _).mpr ⟨second, member', same.symm, rfl⟩
  exact sound.hashes first member second member' (Option.some.inj (taken.symm.trans taken'))

theorem free_height (sound : LedgerSound machine) (fresh : decision.committedBlockHash ∉ machine.committedSet)
    (free : ¬ Blocked machine decision) : machine.commitIndex.lookup decision.committedHeight = none := by
  cases found : machine.commitIndex.lookup decision.committedHeight with
  | none => rfl
  | some existing =>
    by_cases same : existing = decision.committedBlockHash
    · obtain ⟨old, member, -, named⟩ := (sound.index _ _).mp found
      exact absurd ((sound.set _).mpr ⟨old, member, named.trans same⟩) fresh
    · exact absurd ⟨existing, found, same⟩ free

theorem recording_sound (sound : LedgerSound machine) (fresh : decision.committedBlockHash ∉ machine.committedSet)
    (free : ¬ Blocked machine decision) : LedgerSound (machine.recording decision) := by
  have unused := free_height sound fresh free
  have newHash : ∀ old ∈ machine.committed, old.committedBlockHash ≠ decision.committedBlockHash :=
    fun old member same => fresh ((sound.set _).mpr ⟨old, member, same⟩)
  have newHeight : ∀ old ∈ machine.committed, old.committedHeight ≠ decision.committedHeight := by
    intro old member same
    rw [(sound.index _ _).mpr ⟨old, member, same, rfl⟩] at unused
    cases unused
  refine ⟨?_, ?_, ?_, ?_, rfl⟩
  · have distinct : (machine.committed ++ [decision]).Pairwise fun left right => left.committedHeight ≠ right.committedHeight := by
      refine pairwise_append.mpr ⟨sound.sorted.imp fun lower same => ?_, pairwise_singleton .., ?_⟩
      · exact absurd (same ▸ lower) (UInt64.lt_irrefl _)
      · intro old member new last
        rw [mem_singleton.mp last]
        exact newHeight old member
    have spread := (perm_insertionSort (fun left right : CommitDecision => left.committedHeight ≤ right.committedHeight)
      (machine.committed ++ [decision])).symm.pairwise distinct fun apart => apart.symm
    have ordered := pairwise_insertionSort (fun left right : CommitDecision => left.committedHeight ≤ right.committedHeight)
      (machine.committed ++ [decision])
    exact ordered.imp₂ (fun _ _ lower apart => UInt64.lt_of_le_of_ne lower apart) spread
  · intro first member second member' same
    rcases (recording_mem ..).mp member with old | rfl <;> rcases (recording_mem ..).mp member' with old' | rfl
    · exact sound.hashes first old second old' same
    · exact absurd same (newHash first old)
    · exact absurd same.symm (newHash second old')
    · rfl
  · intro blockHash
    simp only [recording_mem]
    rw [show (machine.recording decision).committedSet = decision.committedBlockHash :: machine.committedSet from rfl, mem_cons, sound.set]
    constructor
    · rintro (rfl | ⟨old, member, named⟩)
      · exact ⟨decision, .inr rfl, rfl⟩
      · exact ⟨old, .inl member, named⟩
    · rintro ⟨old, member | rfl, named⟩
      · exact .inr ⟨old, member, named⟩
      · exact .inl named.symm
  · intro height blockHash
    simp only [recording_mem]
    rw [show (machine.recording decision).commitIndex = machine.commitIndex.insert decision.committedHeight decision.committedBlockHash from rfl]
    by_cases same : height = decision.committedHeight
    · rw [same, lookup_insert]
      constructor
      · intro named
        exact ⟨decision, .inr rfl, rfl, Option.some.inj named⟩
      · rintro ⟨old, member | rfl, level, named⟩
        · exact absurd level (newHeight old member)
        · exact congrArg some named
    · rw [lookup_insert_ne same, sound.index]
      constructor
      · rintro ⟨old, member, placed⟩
        exact ⟨old, .inl member, placed⟩
      · rintro ⟨old, member | rfl, level, named⟩
        · exact ⟨old, member, level, named⟩
        · exact absurd level.symm same

theorem commit_all_sound (machine : StateMachine) (sound : LedgerSound machine) : LedgerSound (commitAll machine decisions).1 :=
  commit_all_keeps LedgerSound decisions (fun _ _ _ fresh free sound => recording_sound sound fresh free) machine sound

theorem commit_all_undecided (machine : StateMachine) : (commitAll machine decisions).1.undecided = machine.undecided :=
  commit_all_keeps (fun next => next.undecided = machine.undecided) decisions (fun _ _ _ _ _ same => same) machine rfl

theorem commit_all_kept (machine : StateMachine) {decision : CommitDecision}
    (member : decision ∈ machine.committed) : decision ∈ (commitAll machine decisions).1.committed :=
  commit_all_keeps (fun next => decision ∈ next.committed) decisions (fun _ _ _ _ _ kept => (recording_mem ..).mpr (.inl kept)) machine member

theorem commit_all_records (machine : StateMachine)
    (free : ∀ decision ∈ decisions, decision.committedBlockHash ∉ machine.committedSet → ¬ Blocked machine decision)
    (apart : ∀ first ∈ decisions, ∀ second ∈ decisions, first.committedBlockHash ∉ machine.committedSet →
      second.committedBlockHash ∉ machine.committedSet → ¬ Clash first second) :
    (commitAll machine decisions).2 = .ok () ∧ ∀ decision, decision ∈ (commitAll machine decisions).1.committed ↔
      decision ∈ machine.committed ∨ (decision ∈ decisions ∧ decision.committedBlockHash ∉ machine.committedSet) := by
  induction decisions generalizing machine with
  | nil => exact ⟨rfl, fun decision => by simp [commitAll]⟩
  | cons head rest ih =>
    have restFree := fun decision member => free decision (mem_cons_of_mem head member)
    have restApart := fun first member second member' =>
      apart first (mem_cons_of_mem head member) second (mem_cons_of_mem head member')
    rw [commitAll]
    split
    · next known =>
      obtain ⟨passed, members⟩ := ih machine restFree restApart
      refine ⟨passed, fun decision => (members decision).trans (or_congr_right ?_)⟩
      rw [mem_cons]
      constructor
      · rintro ⟨later, fresh⟩
        exact ⟨.inr later, fresh⟩
      · rintro ⟨rfl | later, fresh⟩
        · exact absurd known fresh
        · exact ⟨later, fresh⟩
    · next known =>
      rw [if_neg (free head mem_cons_self known)]
      have same : ∀ decision ∈ rest, decision.committedBlockHash ∉ machine.committedSet →
          (decision.committedHeight = head.committedHeight ∨ decision.committedBlockHash = head.committedBlockHash) →
          decision = head := by
        intro decision member fresh shared
        by_contra different
        exact apart decision (mem_cons_of_mem head member) head mem_cons_self fresh known ⟨different, shared⟩
      have fresher : ∀ decision : CommitDecision, decision.committedBlockHash ∉ (machine.recording head).committedSet ↔
          decision.committedBlockHash ≠ head.committedBlockHash ∧ decision.committedBlockHash ∉ machine.committedSet := by
        intro decision
        rw [show (machine.recording head).committedSet = head.committedBlockHash :: machine.committedSet from rfl, mem_cons, not_or]
      have nowFree : ∀ decision ∈ rest, decision.committedBlockHash ∉ (machine.recording head).committedSet →
          ¬ Blocked (machine.recording head) decision := by
        rintro decision member fresh ⟨existing, found, different⟩
        obtain ⟨other, fresh⟩ := (fresher decision).mp fresh
        rcases lookup_insert_cases found with ⟨level, -⟩ | ⟨-, earlier⟩
        · exact other (congrArg _ (same decision member fresh (.inl level)))
        · exact restFree decision member fresh ⟨existing, earlier, different⟩
      obtain ⟨passed, members⟩ := ih (machine.recording head) nowFree fun first member second member' fresh fresh' =>
        restApart first member second member' ((fresher first).mp fresh).2 ((fresher second).mp fresh').2
      refine ⟨passed, fun decision => (members decision).trans ?_⟩
      rw [recording_mem, fresher, mem_cons]
      constructor
      · rintro ((old | rfl) | ⟨later, -, fresh⟩)
        · exact .inl old
        · exact .inr ⟨.inl rfl, known⟩
        · exact .inr ⟨.inr later, fresh⟩
      · rintro (old | ⟨rfl | later, fresh⟩)
        · exact .inl (.inl old)
        · exact .inl (.inr rfl)
        · by_cases named : decision.committedBlockHash = head.committedBlockHash
          · exact .inl (.inr (same decision later fresh (.inr named)))
          · exact .inr ⟨later, named, fresh⟩

theorem commit_all_blocked (machine : StateMachine)
    (blocked : ∀ decision ∈ decisions, decision.committedBlockHash ∉ machine.committedSet → Blocked machine decision) :
    commitAll machine decisions = (machine, if ∃ decision ∈ decisions, decision.committedBlockHash ∉ machine.committedSet
      then .error .conflictingCommit else .ok ()) := by
  induction decisions with
  | nil => simp [commitAll]
  | cons head rest ih =>
    rw [commitAll]
    by_cases known : head.committedBlockHash ∈ machine.committedSet
    · rw [if_pos known, ih fun decision member => blocked decision (mem_cons_of_mem head member)]
      simp [known]
    · rw [if_neg known, if_pos (blocked head mem_cons_self known), if_pos ⟨head, mem_cons_self, known⟩]

end Ledger

section Confluence

variable {machine other : StateMachine}

theorem SameState.refl (machine : StateMachine) : SameState machine machine := ⟨rfl, fun _ => Iff.rfl, fun _ => rfl⟩

theorem SameState.committed (same : SameState machine other) : other.committed = machine.committed := by rw [same.rest]

theorem SameState.blocked (same : SameState machine other) (decision : CommitDecision) : Blocked other decision ↔ Blocked machine decision := by
  unfold Blocked
  rw [same.index]

theorem mem_decisions (tree : BlockTree) (order : List Hash) (decision : CommitDecision) :
    decision ∈ tree.decisions (visit tree.blocks order) ↔ Possible tree decision := by
  rw [decisions_iff]
  constructor
  · rintro ⟨blockHash, -, possible⟩
    exact ⟨blockHash, possible⟩
  · rintro ⟨blockHash, candidate, found, decides⟩
    refine ⟨blockHash, (visit_perm ..).mem_iff.mpr ?_, candidate, found, decides⟩
    unfold BlockTree.commitCandidate BlockTree.get at found
    cases stored : tree.blocks.lookup blockHash with
    | none =>
      rw [stored] at found
      cases found
    | some node => exact AList.mem_keys.mp (lookup_isSome.mp (Option.isSome_iff_exists.mpr ⟨node, stored⟩))

-- The decisions determine the set, the index and the last finalized block.
theorem same_state_of_members {next next' : StateMachine} (sound : LedgerSound next) (sound' : LedgerSound next')
    (rest : next'.undecided = next.undecided)
    (members : ∀ decision, decision ∈ next'.committed ↔ decision ∈ next.committed) : SameState next next' := by
  have irreflexive : Std.Irrefl fun left right : CommitDecision => left.committedHeight < right.committedHeight :=
    ⟨fun decision => UInt64.lt_irrefl _⟩
  have asymmetric : Std.Antisymm fun left right : CommitDecision => left.committedHeight < right.committedHeight :=
    ⟨fun left right lower higher => absurd (UInt64.lt_trans lower higher) (UInt64.lt_irrefl _)⟩
  have committed : next'.committed = next.committed := sound'.sorted.eq_of_mem_iff sound.sorted members
  have lastFinalized : next'.status.lastFinalized = next.status.lastFinalized := by
    rw [sound'.lastFinalized, sound.lastFinalized, committed]
  refine ⟨?_, ?_, ?_⟩
  · rcases next with ⟨_, ⟨_, _, _, _, _, _⟩, _, _, _, _, _, _, _, _, _, _⟩
    rcases next' with ⟨_, ⟨_, _, _, _, _, _⟩, _, _, _, _, _, _, _, _, _, _⟩
    simp only [StateMachine.undecided, StateMachine.mk.injEq, Status.mk.injEq] at rest committed lastFinalized ⊢
    grind
  · intro blockHash
    rw [sound'.set, sound.set, committed]
  · intro height
    refine Option.ext fun blockHash => ?_
    rw [sound'.index, sound.index, committed]

theorem confluent_same_outcome (sound : LedgerSound machine) (sound' : LedgerSound other) (same : SameState machine other)
    (confluent : Confluent machine) (order order' : List Hash) :
    SameOutcome (applyKnownCommitRules machine order) (applyKnownCommitRules other order') := by
  have tree : other.blockTree = machine.blockTree := by rw [same.rest]
  rw [known_rules_eq, known_rules_eq, tree]
  have first := fun decision => mem_decisions machine.blockTree order decision
  have second := fun decision => mem_decisions machine.blockTree order' decision
  generalize machine.blockTree.decisions (visit machine.blockTree.blocks order) = decisions at first ⊢
  generalize machine.blockTree.decisions (visit machine.blockTree.blocks order') = decisions' at second ⊢
  rcases confluent with ⟨free, apart⟩ | blocked
  · obtain ⟨passed, members⟩ := commit_all_records decisions machine
      (fun decision member fresh => free decision ⟨(first _).mp member, fresh⟩)
      fun left member right member' fresh fresh' => apart left right ⟨(first _).mp member, fresh⟩ ⟨(first _).mp member', fresh'⟩
    obtain ⟨passed', members'⟩ := commit_all_records decisions' other
      (fun decision member fresh => (same.blocked decision).not.mpr
        (free decision ⟨(second _).mp member, (same.set _).not.mp fresh⟩))
      fun left member right member' fresh fresh' => apart left right ⟨(second _).mp member, (same.set _).not.mp fresh⟩
        ⟨(second _).mp member', (same.set _).not.mp fresh'⟩
    refine ⟨same_state_of_members (commit_all_sound _ _ sound) (commit_all_sound _ _ sound') ?_ fun decision => ?_, passed'.trans passed.symm⟩
    · rw [commit_all_undecided, commit_all_undecided, same.rest]
      rfl
    · rw [members, members', first, second, same.committed, same.set]
  · rw [commit_all_blocked decisions machine fun decision member fresh => blocked decision ⟨(first _).mp member, fresh⟩,
      commit_all_blocked decisions' other fun decision member fresh => (same.blocked decision).mpr
        (blocked decision ⟨(second _).mp member, (same.set _).not.mp fresh⟩)]
    refine ⟨same, if_congr (exists_congr fun decision => ?_) rfl rfl⟩
    rw [first, second, same.set]

theorem order_with_first {tree : BlockTree} {decision : CommitDecision} (possible : Possible tree decision) :
    ∃ order rest, tree.decisions (visit tree.blocks order) = decision :: rest := by
  obtain ⟨blockHash, listed, decided⟩ := mem_filterMap.mp ((mem_decisions tree [] decision).mpr possible)
  have stored := (visit_perm tree.blocks []).mem_iff.mp listed
  refine ⟨blockHash :: tree.blocks.keys.erase blockHash, tree.decisions (tree.blocks.keys.erase blockHash), ?_⟩
  rw [visit, if_pos (perm_cons_erase stored).symm, BlockTree.decisions, filterMap_cons_some decided]
  rfl

theorem pending_apart (sound : LedgerSound machine)
    (same : ∀ order order', SameOutcome (applyKnownCommitRules machine order) (applyKnownCommitRules machine order'))
    {first second : CommitDecision} (pending : Pending machine first) (pending' : Pending machine second)
    (free : ¬ Blocked machine first) : ¬ Blocked machine second ∧ ¬ Clash first second := by
  obtain ⟨order, rest, ahead⟩ := order_with_first pending.1
  obtain ⟨order', rest', ahead'⟩ := order_with_first pending'.1
  have taken : first ∈ (applyKnownCommitRules machine order).1.committed := by
    rw [known_rules_eq, ahead, commitAll, if_neg pending.2, if_neg free]
    exact commit_all_kept rest _ ((recording_mem ..).mpr (.inr rfl))
  have agreed := (same order order').state.committed
  have free' : ¬ Blocked machine second := by
    intro blocked
    rw [← agreed, known_rules_eq, ahead', commitAll, if_neg pending'.2, if_pos blocked] at taken
    exact pending.2 ((sound.set _).mpr ⟨first, taken, rfl⟩)
  refine ⟨free', fun clash => ?_⟩
  have taken' : second ∈ (applyKnownCommitRules machine order).1.committed := by
    rw [← agreed, known_rules_eq, ahead', commitAll, if_neg pending'.2, if_neg free']
    exact commit_all_kept rest' _ ((recording_mem ..).mpr (.inr rfl))
  rw [known_rules_eq] at taken taken'
  have kept := commit_all_sound (machine.blockTree.decisions (visit machine.blockTree.blocks order)) machine sound
  rcases clash with ⟨different, level | named⟩
  · exact different (kept.heights taken taken' level)
  · exact different (kept.hashes first taken second taken' named)

theorem confluent_iff (sound : LedgerSound machine) :
    (∀ order order', SameOutcome (applyKnownCommitRules machine order) (applyKnownCommitRules machine order')) ↔ Confluent machine := by
  refine ⟨fun same => ?_, fun confluent order order' => confluent_same_outcome sound sound (.refl machine) confluent order order'⟩
  by_cases blocked : ∀ decision, Pending machine decision → Blocked machine decision
  · exact .inr blocked
  · push Not at blocked
    obtain ⟨first, pending, free⟩ := blocked
    have others := fun decision (pending' : Pending machine decision) => (pending_apart sound same pending pending' free).1
    exact .inl ⟨others, fun left right leftPending rightPending =>
      (pending_apart sound same leftPending rightPending (others left leftPending)).2⟩

end Confluence

end

theorem is_better_qc_iff (candidate current : QuorumCert) : isBetterQC candidate current = true ↔
    current.height < candidate.height ∨ (candidate.height = current.height ∧ current.round < candidate.round) := by
  unfold isBetterQC
  by_cases same : candidate.height = current.height <;> simp [same]

def betterVote (best : QuorumCert) (vote : TimeoutVote) : QuorumCert := if isBetterQC vote.highQC best then vote.highQC else best

theorem best_high_qc_eq (votes : List TimeoutVote) (start : QuorumCert) : bestHighQC votes start = votes.foldl betterVote start := by
  induction votes generalizing start with
  | nil => rfl
  | cons vote rest ih => exact ih _

theorem better_vote_comm {first second : TimeoutVote}
    (tieFree : first.highQC.height = second.highQC.height → first.highQC.round = second.highQC.round → first.highQC = second.highQC)
    (best : QuorumCert) : betterVote (betterVote best first) second = betterVote (betterVote best second) first := by
  simp only [betterVote]
  grind [is_better_qc_iff]

theorem tally_members_eq (set : SetSnapshot) (ids : List ValidatorID) (start : VotingPower) : tallyMembers set ids start =
      let members := ids.filter fun id => (set.get id).isSome
      if start.toNat + (members.map set.powerOf).sum < 2 ^ 64
      then .ok (UInt64.ofNat (start.toNat + (members.map set.powerOf).sum), members) else .error .votingPowerOverflow := by
  induction ids generalizing start with
  | nil => simp [tallyMembers, UInt64.toNat_lt start]
  | cons id rest ih =>
    cases found : set.get id with
    | none =>
      rw [tallyMembers]
      simp only [found, filter_cons, Option.isSome_none, Bool.false_eq_true, if_false]
      exact ih start
    | some validator =>
      simp only [tallyMembers, found, filter_cons, Option.isSome_some, if_true, map_cons, sum_cons, power_of_get found]
      by_cases fits : start.toNat + validator.votingPower.toNat < 2 ^ 64
      · rw [add_voting_power_fits fits]
        have sum := add_voting_power_ok (add_voting_power_fits fits)
        simp only [bind, Except.bind, ih, sum, Nat.add_assoc]
        by_cases whole : start.toNat + (validator.votingPower.toNat +
            ((rest.filter fun id => (set.get id).isSome).map set.powerOf).sum) < 2 ^ 64
        · rw [if_pos whole, if_pos whole]
          rfl
        · rw [if_neg whole, if_neg whole]
      · have overflows : addVotingPower start validator.votingPower = .error .votingPowerOverflow := if_neg fits
        rw [overflows, if_neg (by omega)]
        rfl

theorem sorted_ids_perm {ids ids' : List ValidatorID} (perm : ids.Perm ids') : sortedIDs ids = sortedIDs ids' := by
  unfold sortedIDs
  have antisymmetric : Std.Antisymm fun left right : ValidatorID => left ≤ right := ⟨fun _ _ => List.le_antisymm⟩
  have total : Std.Total fun left right : ValidatorID => left ≤ right := ⟨List.le_total⟩
  have transitive : IsTrans ValidatorID fun left right => left ≤ right := ⟨fun _ _ _ => List.le_trans⟩
  refine Perm.eq_of_pairwise' (pairwise_insertionSort _ _) (pairwise_insertionSort _ _) ?_
  exact (perm_insertionSort _ ids).trans (perm.trans (perm_insertionSort _ ids').symm)

theorem build_timeout_cert_order (collector : TimeoutCollector) (height : Height) (round : Round)
    (tieFree : ∀ id id' first second, (collector.votesForRound height round).lookup id = some first →
      (collector.votesForRound height round).lookup id' = some second → first.highQC.height = second.highQC.height →
      first.highQC.round = second.highQC.round → first.highQC = second.highQC) (order order' : List ValidatorID) :
    collector.buildTimeoutCert order height round = collector.buildTimeoutCert order' height round := by
  unfold TimeoutCollector.buildTimeoutCert
  generalize collector.votesForRound height round = roundVotes at tieFree ⊢
  have visited : (visit roundVotes order).Perm (visit roundVotes order') :=
    (visit_perm roundVotes order).trans (visit_perm roundVotes order').symm
  have members := visited.filter fun id => (collector.validatorSet.get id).isSome
  have sums := (members.map collector.validatorSet.powerOf).sum_eq
  have collected := members.filterMap fun id => roundVotes.lookup id
  have highest := fun start => collected.foldl_eq' (f := betterVote) (fun first listed second listed' best => by
    obtain ⟨id, -, found⟩ := mem_filterMap.mp listed
    obtain ⟨id', -, found'⟩ := mem_filterMap.mp listed'
    exact better_vote_comm (tieFree id id' first second found found') best) start
  simp only [tally_members_eq, best_high_qc_eq]
  rw [sums]
  split
  · simp only [bind, Except.bind, highest, sorted_ids_perm members]
  · rfl

-- Of the certificates a round's timeout votes carry, those of one height and round are the same.
def TieFree (machine : StateMachine) (vote : TimeoutVote) : Prop :=
  let carried := fun qc : QuorumCert => qc = vote.highQC ∨ ∃ id collected,
    (machine.timeouts.votesForRound vote.height vote.round).lookup id = some collected ∧ collected.highQC = qc
  ∀ first second, carried first → carried second → first.height = second.height → first.round = second.round → first = second

theorem on_timeout_order (config : StateMachineConfig) {machine : StateMachine} {vote : TimeoutVote} (tieFree : TieFree machine vote)
    (order order' : List ValidatorID) (ctx : Context) :
    onTimeoutVote config machine order ctx vote = onTimeoutVote config machine order' ctx vote := by
  have kept : (ensureTimeoutVoteSignature config vote).height = vote.height ∧ (ensureTimeoutVoteSignature config vote).round = vote.round ∧
      (ensureTimeoutVoteSignature config vote).highQC = vote.highQC := by
    unfold ensureTimeoutVoteSignature
    split <;> exact ⟨rfl, rfl, rfl⟩
  unfold onTimeoutVote
  generalize ensureTimeoutVoteSignature config vote = signed at kept ⊢
  obtain ⟨height, round, highQC⟩ := kept
  cases added : machine.timeouts.addVote signed with
  | error reason => simp only [added]
  | ok timeouts =>
    have carried : ∀ id collected, (timeouts.votesForRound signed.height signed.round).lookup id = some collected →
        collected.highQC = vote.highQC ∨ ∃ id earlier,
          (machine.timeouts.votesForRound vote.height vote.round).lookup id = some earlier ∧ earlier.highQC = collected.highQC := by
      intro id collected found
      rcases add_vote_collected added _ _ _ _ found with earlier | same
      · exact .inr ⟨id, collected, height ▸ round ▸ earlier, rfl⟩
      · exact .inl (same ▸ highQC)
    have built := build_timeout_cert_order timeouts signed.height signed.round (fun id id' first second found found' =>
      tieFree _ _ (carried id first found) (carried id' second found')) order order'
    simp only [added, built]

section Ledger

variable (config : StateMachineConfig)

def StateMachine.withLedger (machine source : StateMachine) : StateMachine :=
  { machine with
    committed := source.committed
    committedSet := source.committedSet
    commitIndex := source.commitIndex
    status := { machine.status with lastFinalized := source.status.lastFinalized } }

section

variable (machine source : StateMachine)
include machine source

theorem update_locked_ledger (qc : QuorumCert) : updateLockedQC (machine.withLedger source) qc = (updateLockedQC machine qc).withLedger source := by
  unfold updateLockedQC
  split
  · rfl
  · by_cases better : isBetterQC qc machine.lockedQC = true
    · rw [if_pos better, if_pos (show isBetterQC qc (machine.withLedger source).lockedQC = true from better)]
      rfl
    · rw [if_neg better, if_neg (show ¬ isBetterQC qc (machine.withLedger source).lockedQC = true from better)]

theorem certify_votes_ledger (vote : Vote) : certifyVotes config (machine.withLedger source) vote =
      ((certifyVotes config machine vote).1.withLedger source, (certifyVotes config machine vote).2) := by
  have built : buildQuorumCert config (machine.withLedger source) = buildQuorumCert config machine := rfl
  unfold certifyVotes
  rw [built]
  cases buildQuorumCert config machine vote.height vote.round vote.blockHash with
  | error reason => rfl
  | ok qc =>
    simp only [show (machine.withLedger source).blockTree = machine.blockTree from rfl]
    cases machine.blockTree.setQuorumCert qc with
    | error reason => cases reason <;> rfl
    | ok tree =>
      have locked := update_locked_ledger { machine with blockTree := tree } source qc
      simp only
      rw [show ({ machine.withLedger source with blockTree := tree } : StateMachine) =
        ({ machine with blockTree := tree } : StateMachine).withLedger source from rfl, locked]
      rfl

theorem on_vote_ledger (ctx : Context) (vote : Vote) : onVote config (machine.withLedger source) ctx vote =
      ((onVote config machine ctx vote).1.withLedger source, (onVote config machine ctx vote).2) := by
  have checked : validateVote config (machine.withLedger source) = validateVote config machine := rfl
  have members : (machine.withLedger source).validatorSet = machine.validatorSet := rfl
  unfold onVote
  rw [checked, members]
  split
  · rfl
  · split
    · rfl
    · simp only
      cases validateVote config machine (ensureVoteSignature config vote) with
      | error reason => rfl
      | ok done =>
        simp only
        have recorded : recordVote (machine.withLedger source) (ensureVoteSignature config vote) =
            ((recordVote machine (ensureVoteSignature config vote)).1.withLedger source,
              (recordVote machine (ensureVoteSignature config vote)).2) := by
          unfold recordVote
          rw [show (machine.withLedger source).votedVotes = machine.votedVotes from rfl]
          simp only
          split <;> rfl
        rw [recorded]
        cases recordVote machine (ensureVoteSignature config vote) with
        | mk next result =>
          cases result with
          | error reason => rfl
          | ok done => exact certify_votes_ledger config next source _

theorem on_timeout_ledger (order : List ValidatorID) (ctx : Context) (vote : TimeoutVote) :
    onTimeoutVote config (machine.withLedger source) order ctx vote =
      ((onTimeoutVote config machine order ctx vote).1.withLedger source, (onTimeoutVote config machine order ctx vote).2) := by
  have checked : verifyTimeoutVoteSignature config (machine.withLedger source) = verifyTimeoutVoteSignature config machine := rfl
  have collector : (machine.withLedger source).timeouts = machine.timeouts := rfl
  unfold onTimeoutVote
  simp only [checked, collector]
  generalize ensureTimeoutVoteSignature config vote = signed
  split
  · rfl
  · cases verifyTimeoutVoteSignature config machine signed with
    | error reason => rfl
    | ok done =>
      simp only
      cases machine.timeouts.addVote signed with
      | error reason => rfl
      | ok timeouts =>
        simp only
        cases timeouts.buildTimeoutCert order signed.height signed.round with
        | error reason => rfl
        | ok timeoutCert =>
          simp only [show (machine.withLedger source).pacemaker = machine.pacemaker from rfl]
          cases machine.pacemaker.advanceRound timeoutCert with
          | error reason | ok pacemaker => rfl

theorem observe_ledger (block : Block) (quorumCert : QuorumCert) : observeCommittedBlock config (machine.withLedger source) block quorumCert =
      ((observeCommittedBlock config machine block quorumCert).1.withLedger source, (observeCommittedBlock config machine block quorumCert).2) := by
  unfold observeCommittedBlock
  simp only [show (machine.withLedger source).blockTree = machine.blockTree from rfl]
  split
  · rfl
  · generalize (if (machine.blockTree.get (config.hashBlock block)).isSome = true then machine.blockTree
      else machine.blockTree.insert block (config.hashBlock block) zeroQC) = tree
    cases tree.setQuorumCert quorumCert with
    | error reason => rfl
    | ok blockTree => exact Prod.ext (update_locked_ledger { machine with blockTree := blockTree } source quorumCert) rfl

end

def Call.Proposes : Call → Prop
  | .deliver (.proposal _ _ _) => True
  | _ => False

theorem perform_ledger (machine source : StateMachine) {call : Call} (other : ¬ call.Proposes) :
    perform config (machine.withLedger source) call = (perform config machine call).withLedger source := by
  cases call with
  | deliver event =>
    cases event with
    | proposal order ctx proposal => exact absurd trivial other
    | vote ctx vote => exact congrArg Prod.fst (on_vote_ledger config machine source ctx vote)
    | timeoutVote order ctx vote => exact congrArg Prod.fst (on_timeout_ledger config machine source order ctx vote)
  | observeCommittedBlock block quorumCert => exact congrArg Prod.fst (observe_ledger config machine source block quorumCert)
  | updateValidatorSet set | startRound height round => rfl

end Ledger

section Proposals

variable (config : StateMachineConfig) (machine : StateMachine)

def Applies (ctx : Context) (proposal : Proposal) : Prop :=
  checkProposal config machine ctx proposal = .ok () ∧
    (Certified config machine proposal ∨ Behind machine proposal ∨ isSafeProposal machine proposal = true)

def afterRules (proposal : Proposal) (applied : Outcome Unit) : Outcome Unit :=
  match applied with
  | (next, .error reason) => (next, .error reason)
  | (next, .ok _) =>
    if Certified config machine proposal ∨ Behind machine proposal then (next, .error .staleProposal)
    else ({ next with
      status := { next.status with height := proposal.block.header.height, round := proposal.round, phase := .vote } }, .ok ())

variable {proposal : Proposal} {ctx : Context}

theorem on_proposal_applies (applies : Applies config machine ctx proposal) (order : List Hash) : onProposal config machine order ctx proposal =
      afterRules config machine proposal (applyKnownCommitRules (proposalBase config machine proposal) order) := by
  have outcome := on_proposal_outcome config machine order ctx proposal
  generalize onProposal config machine order ctx proposal = result at outcome ⊢
  cases outcome with
  | refused reason checked =>
    rw [applies.1] at checked
    cases checked
  | unsafeRefused checked uncertified current refused =>
    rcases applies.2 with certified | late | safe
    · exact absurd certified uncertified
    · exact absurd late current
    · rw [refused] at safe
      cases safe
  | conflicting checked safe next reason applied => rw [applied, afterRules]
  | outdated checked late next applied => rw [applied, afterRules, if_pos late]
  | accepted checked uncertified current safe next applied =>
    rw [show proposalBase config machine proposal = insertBlock config machine proposal from if_neg uncertified, applied, afterRules,
      if_neg (not_or.mpr ⟨uncertified, current⟩)]

theorem on_proposal_stays (refused : ¬ Applies config machine ctx proposal) (order : List Hash) :
    (onProposal config machine order ctx proposal).1 = machine := by
  have outcome := on_proposal_outcome config machine order ctx proposal
  generalize onProposal config machine order ctx proposal = result at outcome ⊢
  cases outcome with
  | refused reason checked | unsafeRefused checked uncertified current unsafeTarget => rfl
  | conflicting checked safe next reason applied => exact absurd ⟨checked, safe⟩ refused
  | outdated checked late next applied => exact absurd ⟨checked, late.imp_right .inl⟩ refused
  | accepted checked uncertified current safe next applied => exact absurd ⟨checked, .inr (.inr safe)⟩ refused

variable {config machine} {other : StateMachine}

section

variable (sound : LedgerSound machine)
include sound

theorem known_rules_sound (order : List Hash) : LedgerSound (applyKnownCommitRules machine order).1 := by
  rw [known_rules_eq]
  exact commit_all_sound _ machine sound

theorem proposal_base_sound (proposal : Proposal) : LedgerSound (proposalBase config machine proposal) := by
  unfold proposalBase
  split
  · exact sound
  · exact ⟨sound.sorted, sound.hashes, sound.set, sound.index, sound.lastFinalized⟩

theorem on_proposal_sound (order : List Hash) (ctx : Context) (proposal : Proposal) :
    LedgerSound (onProposal config machine order ctx proposal).1 := by
  by_cases applies : Applies config machine ctx proposal
  · rw [on_proposal_applies config machine applies]
    have kept : LedgerSound (applyKnownCommitRules (proposalBase config machine proposal) order).1 :=
      known_rules_sound (proposal_base_sound sound proposal) order
    generalize applyKnownCommitRules (proposalBase config machine proposal) order = applied at kept ⊢
    obtain ⟨next, result⟩ := applied
    cases result with
    | error reason => exact kept
    | ok done =>
      rw [afterRules]
      split
      · exact kept
      · exact ⟨kept.sorted, kept.hashes, kept.set, kept.index, kept.lastFinalized⟩
  · rw [on_proposal_stays config machine applies]
    exact sound

end

theorem after_rules_same {applied applied' : Outcome Unit} (same : SameOutcome applied applied') :
    SameState (afterRules config machine proposal applied).1 (afterRules config machine proposal applied').1 := by
  obtain ⟨next, result⟩ := applied
  obtain ⟨next', result'⟩ := applied'
  cases (show result' = result from same.result)
  have state : SameState next next' := same.state
  cases result with
  | error reason => exact state
  | ok done =>
    simp only [afterRules]
    split
    · exact state
    · refine ⟨?_, state.set, state.index⟩
      rw [state.rest]

theorem on_proposal_same (sound : LedgerSound machine) (sound' : LedgerSound other) (same : SameState machine other) (confluent : Applies config machine ctx proposal → Confluent (proposalBase config machine proposal))
    (order order' : List Hash) :
    SameState (onProposal config machine order ctx proposal).1 (onProposal config other order' ctx proposal).1 := by
  have rest := same.rest
  have applies : Applies config other ctx proposal ↔ Applies config machine ctx proposal := by
    rw [rest]
    exact Iff.rfl
  by_cases applied : Applies config machine ctx proposal
  · rw [on_proposal_applies config machine applied, on_proposal_applies config other (applies.mpr applied)]
    have after : afterRules config other proposal = afterRules config machine proposal := by
      rw [rest]
      rfl
    have base : SameState (proposalBase config machine proposal) (proposalBase config other proposal) := by
      have certified : Certified config other proposal ↔ Certified config machine proposal := by
        rw [rest]
        exact Iff.rfl
      unfold proposalBase
      split
      · next held =>
        rw [if_pos (certified.mpr held)]
        exact same
      · next held =>
        rw [if_neg (certified.not.mpr held)]
        refine ⟨?_, same.set, same.index⟩
        unfold insertBlock
        rw [rest]
    rw [after]
    exact after_rules_same (confluent_same_outcome (proposal_base_sound sound proposal) (proposal_base_sound sound' proposal) base
      (confluent applied) order order')
  · rw [on_proposal_stays config machine applied, on_proposal_stays config other (applies.not.mpr applied)]
    exact same

end Proposals

section Runs

inductive SameCall : Call → Call → Prop where
  | proposal (order order' : List Hash) (ctx : Context) (delivered : Proposal) :
      SameCall (.deliver (.proposal order ctx delivered)) (.deliver (.proposal order' ctx delivered))
  | timeoutVote (order order' : List ValidatorID) (ctx : Context) (delivered : TimeoutVote) :
      SameCall (.deliver (.timeoutVote order ctx delivered)) (.deliver (.timeoutVote order' ctx delivered))
  | same (call : Call) : SameCall call call

variable (config : StateMachineConfig)

def Orderless (machine : StateMachine) : Call → Prop
  | .deliver (.proposal _ ctx proposal) => Applies config machine ctx proposal → Confluent (proposalBase config machine proposal)
  | .deliver (.timeoutVote _ _ vote) => TieFree machine vote
  | _ => True

def AllOrderless : StateMachine → List Call → Prop
  | _, [] => True
  | machine, call :: rest => Orderless config machine call ∧ AllOrderless (perform config machine call) rest

variable {config} {machine other : StateMachine}

theorem perform_sound (sound : LedgerSound machine) (call : Call) : LedgerSound (perform config machine call) := by
  by_cases proposes : call.Proposes
  · match call, proposes with
    | .deliver (.proposal order ctx proposal), _ => exact on_proposal_sound sound order ctx proposal
  · have own : perform config machine call = (perform config machine call).withLedger machine := perform_ledger config machine machine proposes
    rw [own]
    exact ⟨sound.sorted, sound.hashes, sound.set, sound.index, sound.lastFinalized⟩

theorem perform_all_sound (calls : List Call) (sound : LedgerSound machine) : LedgerSound (performAll config machine calls) := by
  induction calls generalizing machine with
  | nil => exact sound
  | cons call rest ih => exact ih (perform_sound sound call)

theorem perform_frame (same : SameState machine other) {call : Call} (noProposal : ¬ call.Proposes) :
    SameState (perform config machine call) (perform config other call) := by
  have own : perform config machine call = (perform config machine call).withLedger machine := perform_ledger config machine machine noProposal
  have moved : perform config other call = (perform config machine call).withLedger other := by
    have given : other = machine.withLedger other := by
      conv_lhs => rw [same.rest]
      rw [StateMachine.withLedger, same.rest]
    conv_lhs => rw [given]
    exact perform_ledger config machine other noProposal
  rw [moved, own]
  refine ⟨?_, same.set, same.index⟩
  rw [same.rest]
  rfl

theorem perform_same (sound : LedgerSound machine) (sound' : LedgerSound other) (same : SameState machine other) {call call' : Call}
    (alike : SameCall call call') (orderless : Orderless config machine call) :
    SameState (perform config machine call) (perform config other call') := by
  cases alike with
  | proposal order order' ctx delivered => exact on_proposal_same sound sound' same orderless order order'
  | timeoutVote order order' ctx delivered =>
    rw [perform, step, on_timeout_order config orderless order order']
    have noProposal : ¬ (Call.deliver (.timeoutVote order' ctx delivered)).Proposes := id
    exact perform_frame same noProposal
  | same call =>
    by_cases proposes : call.Proposes
    · cases call with
      | deliver event =>
        cases event with
        | proposal order ctx delivered => exact on_proposal_same sound sound' same orderless order order
        | _ => cases proposes
      | _ => cases proposes
    · exact perform_frame same proposes

theorem perform_all_same (sound : LedgerSound machine) (sound' : LedgerSound other) (same : SameState machine other)
    {calls calls' : List Call} (alike : Forall₂ SameCall calls calls') (orderless : AllOrderless config machine calls) :
    SameState (performAll config machine calls) (performAll config other calls') := by
  induction alike generalizing machine other with
  | nil => exact same
  | cons first _ ih =>
    exact ih (perform_sound sound _) (perform_sound sound' _) (perform_same sound sound' same first orderless.1) orderless.2

end Runs

-- Which decisions a pass takes is independent of the map's order exactly when the pending ones do not compete.
theorem commit_order_immaterial_iff (config : StateMachineConfig) (set : SetSnapshot) (calls : List Call) :
    let machine := performAll config (newStateMachine config set) calls
    (∀ base, (base = machine ∨ ∃ proposal, base = insertBlock config machine proposal) →
      ((∀ order order', SameOutcome (applyKnownCommitRules base order) (applyKnownCommitRules base order')) ↔ Confluent base)) ∧
    ∀ calls', List.Forall₂ SameCall calls calls' → AllOrderless config (newStateMachine config set) calls →
      SameState machine (performAll config (newStateMachine config set) calls') := by
  intro machine
  have start := ledger_new config set
  have sound : LedgerSound machine := perform_all_sound calls start
  refine ⟨?_, fun calls' alike orderless => perform_all_same start start (.refl _) alike orderless⟩
  rintro base (rfl | ⟨proposal, rfl⟩)
  · exact confluent_iff sound
  · exact confluent_iff ⟨sound.sorted, sound.hashes, sound.set, sound.index, sound.lastFinalized⟩

def forkKeys : List Hash := [fourthOf 1, secondOf 1, thirdOf 1, secondOf 2, thirdOf 2].map tagHash

def visiting (order : List Hash) (block : Block) : Call := .deliver (.proposal order Context.background (claimingProposal block))

-- Both branches are in the tree: one has a block to commit, the other a block whose height is taken.
def contested : StateMachine := performAll tagConfig forkStart (twoBranches ++ [proposes (thirdOf 2)])

theorem contested_evaluated : (perform tagConfig contested (visiting forkKeys (fourthOf 1))).committed.length = 2 ∧
      (perform tagConfig contested (visiting forkKeys.reverse (fourthOf 1))).committed.length = 1 ∧
      (applyKnownCommitRules (insertBlock tagConfig contested (claimingProposal (fourthOf 1))) forkKeys).1.committed.length = 2 ∧
      (applyKnownCommitRules (insertBlock tagConfig contested (claimingProposal (fourthOf 1))) forkKeys.reverse).1.committed.length = 1 := by
  decide +kernel

theorem commit_order_matters : ¬ SameOutcome (applyKnownCommitRules (insertBlock tagConfig contested (claimingProposal (fourthOf 1))) forkKeys)
        (applyKnownCommitRules (insertBlock tagConfig contested (claimingProposal (fourthOf 1))) forkKeys.reverse) ∧
      SameCall (visiting forkKeys (fourthOf 1)) (visiting forkKeys.reverse (fourthOf 1)) ∧
      ¬ SameState (perform tagConfig contested (visiting forkKeys (fourthOf 1)))
        (perform tagConfig contested (visiting forkKeys.reverse (fourthOf 1))) := by
  obtain ⟨two, one, twoTaken, oneTaken⟩ := contested_evaluated
  refine ⟨fun same => ?_, .proposal _ _ _ _, fun same => ?_⟩
  · rw [same.state.committed, twoTaken] at oneTaken
    cases oneTaken
  · rw [same.committed, two] at one
    cases one

theorem confluent_of_single {machine : StateMachine} (single : (machine.blockTree.decisions (visit machine.blockTree.blocks [])).length ≤ 1)
    (free : ∀ decision ∈ machine.blockTree.decisions (visit machine.blockTree.blocks []), ¬ Blocked machine decision) :
    Confluent machine := by
  refine .inl ⟨fun decision pending => free decision ((mem_decisions _ _ _).mpr pending.1), fun first second pending pending' clash => ?_⟩
  have listed := (mem_decisions _ [] _).mpr pending.1
  have listed' := (mem_decisions _ [] _).mpr pending'.1
  match given : machine.blockTree.decisions (visit machine.blockTree.blocks []) with
  | [] =>
    rw [given] at listed
    cases listed
  | [decision] =>
    rw [given, mem_singleton] at listed listed'
    exact clash.1 (listed.trans listed'.symm)
  | _ :: _ :: rest =>
    rw [given] at single
    simp at single

def oneBranchReversed : List Call := [visiting [] (secondOf 1), visiting [tagHash (thirdOf 1), tagHash (secondOf 1)] (thirdOf 1)]

theorem branch_single_evaluated : let first := proposalBase tagConfig forkStart (claimingProposal (secondOf 1))
    let second := proposalBase tagConfig (perform tagConfig forkStart (proposes (secondOf 1))) (claimingProposal (thirdOf 1))
    (first.blockTree.decisions (visit first.blockTree.blocks [])).length ≤ 1 ∧
      (∀ decision ∈ first.blockTree.decisions (visit first.blockTree.blocks []), ¬ Blocked first decision) ∧
      (second.blockTree.decisions (visit second.blockTree.blocks [])).length = 1 ∧
      ∀ decision ∈ second.blockTree.decisions (visit second.blockTree.blocks []), ¬ Blocked second decision := by
  decide +kernel

theorem one_branch_any_order : SameState (performAll tagConfig forkStart oneBranch) (performAll tagConfig forkStart oneBranchReversed) := by
  obtain ⟨short, free, single, free'⟩ := branch_single_evaluated
  refine (commit_order_immaterial_iff tagConfig ⟨[plainValidator]⟩ oneBranch).2 oneBranchReversed ?_ ?_
  · exact .cons (.proposal _ _ _ _) (.cons (.proposal _ _ _ _) .nil)
  · exact ⟨fun _ => confluent_of_single short free, fun _ => confluent_of_single (Nat.le_of_eq single) free', trivial⟩

end Vexo.Consensus
