import VexoConsensus.Consensus.Certificates

namespace Vexo.Node

open Consensus OrderedMap AList Finality WeightedQuorum List

section

-- The parts of autoVoteReactor that decide what a validator signs. Held-back votes reach the machine as later deliveries.
structure Reactor where
  machine : StateMachine
  localVotes : Table (Height × Round) Vote

structure Voter where
  validatorID : ValidatorID
  sign : ByteCodec.Bytes → Except Err Signature

variable (config : StateMachineConfig) (voter : Voter)

def newReactor (validatorSet : SetSnapshot) : Reactor := ⟨newStateMachine config validatorSet, ∅⟩

def Voter.signLocalVote (height : Height) (round : Round) (blockHash : Hash) : Except Err Vote := do
  let message ← Crypto.domainMessage Crypto.domainConsensusVote (Signbytes.vote height round blockHash)
  let signature ← voter.sign message
  return ⟨height, round, blockHash, voter.validatorID, signature⟩

variable (reactor : Reactor)

-- A running validator's log holds what its cache holds, so the lookup in the log is left to the log's own model.
def localVote (height : Height) (round : Round) (blockHash : Hash) : Reactor × Except Err (Vote × Bool) :=
  match reactor.localVotes.lookup (height, round) with
  | some vote => (reactor, .ok (vote, vote.blockHash = blockHash))
  | none =>
    match voter.signLocalVote height round blockHash with
    | .error reason => (reactor, .error reason)
    | .ok vote => ({ reactor with localVotes := reactor.localVotes.insert (height, round) vote }, .ok (vote, true))

variable (ctx : Context)

def deliverOwnVote (reactor : Reactor) (vote : Vote) : Reactor × Except Err Unit :=
  match Consensus.onVote config reactor.machine ctx vote with
  | (machine, .error .staleVote) => ({ reactor with machine := machine }, .ok ())
  | (machine, result) => ({ reactor with machine := machine }, result)

def voteOnProposal (reactor : Reactor) (proposal : Proposal) : Reactor × Except Err Unit :=
  match localVote voter reactor proposal.block.header.height proposal.round (hashBlock proposal.block) with
  | (reactor, .error reason) => (reactor, .error reason)
  | (reactor, .ok (vote, selected)) => if selected then deliverOwnVote config ctx reactor vote else (reactor, .ok ())

def onProposal (config : StateMachineConfig) (voter : Voter) (reactor : Reactor) (order : List Hash) (ctx : Context)
    (proposal : Proposal) : Reactor × Except Err Unit :=
  match Consensus.onProposal config reactor.machine order ctx proposal with
  | (machine, .error reason) => ({ reactor with machine := machine }, if reason = .staleProposal then .ok () else .error reason)
  | (machine, .ok _) => voteOnProposal config voter ctx { reactor with machine := machine } proposal

-- Whether delivering the proposal makes the validator sign a vote it had not signed before.
def signsNow (order : List Hash) (ctx : Context) (proposal : Proposal) : Bool :=
  (Consensus.onProposal config reactor.machine order ctx proposal).2.isOk &&
    (reactor.localVotes.lookup (proposal.block.header.height, proposal.round)).isNone &&
    (voter.signLocalVote proposal.block.header.height proposal.round (hashBlock proposal.block)).isOk

theorem sign_local_vote_ok {voter : Voter} {height : Height} {round : Round} {blockHash : Hash} {vote : Vote}
    (signed : voter.signLocalVote height round blockHash = .ok vote) : vote.blockHash = blockHash := by
  simp only [Voter.signLocalVote, Checks.bind_ok_iff] at signed
  obtain ⟨_, _, _, _, returned⟩ := signed
  cases returned
  rfl

theorem deliver_own_vote_reactor (reactor : Reactor) (vote : Vote) : (deliverOwnVote config ctx reactor vote).1 =
      { reactor with machine := (Consensus.onVote config reactor.machine ctx vote).1 } := by
  unfold deliverOwnVote
  cases outcome : Consensus.onVote config reactor.machine ctx vote with
  | mk machine result =>
    simp only
    split
    all_goals
      rename_i same
      cases same
      rfl

structure ProposalEffect (config : StateMachineConfig) (voter : Voter) (reactor : Reactor) (order : List Hash) (ctx : Context)
    (proposal : Proposal) (next : Reactor) : Prop where
  machine : next.machine = (Consensus.onProposal config reactor.machine order ctx proposal).1 ∨ ∃ vote,
    next.machine = (Consensus.onVote config (Consensus.onProposal config reactor.machine order ctx proposal).1 ctx vote).1
  kept : ∀ key vote, reactor.localVotes.lookup key = some vote → next.localVotes.lookup key = some vote
  signed : signsNow config voter reactor order ctx proposal = true →
    reactor.localVotes.lookup (proposal.block.header.height, proposal.round) = none ∧ ∃ vote,
      next.localVotes.lookup (proposal.block.header.height, proposal.round) = some vote ∧ vote.blockHash = hashBlock proposal.block

theorem on_proposal_effect (order : List Hash) (ctx : Context) (proposal : Proposal) :
    ProposalEffect config voter reactor order ctx proposal (onProposal config voter reactor order ctx proposal).1 := by
  cases outcome : Consensus.onProposal config reactor.machine order ctx proposal with
  | mk machine result =>
    cases result with
    | error reason =>
      have silent : signsNow config voter reactor order ctx proposal = false := by
        simp [signsNow, outcome, Except.isOk, Except.toBool]
      simp only [onProposal, outcome]
      exact ⟨.inl (by rw [outcome]), fun _ _ found => found, by simp [silent]⟩
    | ok done =>
      cases cached : reactor.localVotes.lookup (proposal.block.header.height, proposal.round) with
      | some vote =>
        have silent : signsNow config voter reactor order ctx proposal = false := by
          simp [signsNow, cached]
        simp only [onProposal, outcome, voteOnProposal, localVote, cached]
        split
        · rw [deliver_own_vote_reactor]
          exact ⟨.inr ⟨vote, by rw [outcome]⟩, fun _ _ found => found, by simp [silent]⟩
        · exact ⟨.inl (by rw [outcome]), fun _ _ found => found, by simp [silent]⟩
      | none =>
        cases made : voter.signLocalVote proposal.block.header.height proposal.round (hashBlock proposal.block) with
        | error reason =>
          have silent : signsNow config voter reactor order ctx proposal = false := by
            simp [signsNow, made, Except.isOk, Except.toBool]
          simp only [onProposal, outcome, voteOnProposal, localVote, cached, made]
          exact ⟨.inl (by rw [outcome]), fun _ _ found => found, by simp [silent]⟩
        | ok vote =>
          simp only [onProposal, outcome, voteOnProposal, localVote, cached, made, if_true, deliver_own_vote_reactor]
          refine ⟨.inr ⟨vote, by rw [outcome]⟩, ?_, ?_⟩
          · intro key earlier found
            have different : key ≠ (proposal.block.header.height, proposal.round) := by
              rintro rfl
              simp [cached] at found
            rwa [lookup_insert_ne different]
          · intro _
            exact ⟨cached, vote, lookup_insert _, sign_local_vote_ok made⟩

end

structure Ballot where
  voter : ValidatorID
  round : Round
  block : Block
deriving DecidableEq

structure World where
  reactors : ValidatorID → Reactor
  ballots : List Ballot

inductive Action where
  | proposal (node : ValidatorID) (order : List Hash) (ctx : Context) (delivered : Proposal)
  | vote (node : ValidatorID) (ctx : Context) (delivered : Vote)
  | timeoutVote (node : ValidatorID) (order : List ValidatorID) (ctx : Context) (delivered : TimeoutVote)

structure Setting where
  config : StateMachineConfig
  validatorSet : SetSnapshot
  sign : ValidatorID → ByteCodec.Bytes → Except Err Signature
  honest : ValidatorID → Bool

variable (setting : Setting)

def Setting.voter (node : ValidatorID) : Voter := ⟨node, setting.sign node⟩

def newWorld : World := ⟨fun _ => newReactor setting.config setting.validatorSet, []⟩

variable (world : World)

def World.setMachine (node : ValidatorID) (machine : StateMachine) : World :=
  { world with reactors := Function.update world.reactors node { world.reactors node with machine := machine } }

def World.act : Action → World
  | .proposal node order ctx delivered =>
    { reactors := Function.update world.reactors node
        (onProposal setting.config (setting.voter node) (world.reactors node) order ctx delivered).1
      ballots := if signsNow setting.config (setting.voter node) (world.reactors node) order ctx delivered
        then ⟨node, delivered.round, delivered.block⟩ :: world.ballots else world.ballots }
  | .vote node ctx delivered =>
    world.setMachine node (Consensus.onVote setting.config (world.reactors node).machine ctx delivered).1
  | .timeoutVote node order ctx delivered =>
    world.setMachine node (Consensus.onTimeoutVote setting.config (world.reactors node).machine order ctx delivered).1

def Ballot.supports (ballot : Ballot) (voter : ValidatorID) (qc : QuorumCert) : Prop :=
  ballot.voter = voter ∧ ballot.round = qc.round ∧ ballot.block.header.height = qc.height ∧ hashBlock ballot.block = qc.blockHash

-- Two thirds of the power in distinct members, of whom the honest ones did sign. The others may sign anything.
def Genuine (ballots : List Ballot) (qc : QuorumCert) : Prop :=
  ∃ signers : List ValidatorID, signers.Nodup ∧ (∀ signer ∈ signers, (setting.validatorSet.get signer).isSome) ∧
    2 * setting.validatorSet.totalVotingPower.toNat ≤ 3 * (signers.map setting.validatorSet.powerOf).sum ∧
    ∀ signer ∈ signers, setting.honest signer = true → ∃ ballot ∈ ballots, ballot.supports signer qc

def Admissible : Action → Prop
  | .proposal _ _ _ delivered => delivered.justifyQC.height ≠ 0 → Genuine setting world.ballots delivered.justifyQC
  | .vote _ _ _ => True
  | .timeoutVote _ _ _ _ => True

-- A validator that voted at a height is offered, in another round of it, only blocks with the parent it voted on.
def KeepsParent : Action → Prop
  | .proposal node _ _ delivered => ∀ ballot ∈ world.ballots, ballot.voter = node →
      ballot.block.header.height = delivered.block.header.height → ballot.round ≠ delivered.round →
      ballot.block.header.previousBlockHash = delivered.block.header.previousBlockHash
  | .vote _ _ _ => True
  | .timeoutVote _ _ _ _ => True

def Action.delivers : Action → Block → Prop
  | .proposal _ _ _ delivered, block => delivered.block = block
  | _, _ => False

inductive Reached (Allowed : World → Action → Prop) (Known : Block → Prop) : World → Prop
  | start : Reached Allowed Known (newWorld setting)
  | next {world : World} (reached : Reached Allowed Known world) (action : Action)
      (admissible : Admissible setting world action) (allowed : Allowed world action)
      (known : ∀ block, action.delivers block → Known block) : Reached Allowed Known (world.act setting action)

structure WorldSound (Known : Block → Prop) (world : World) : Prop where
  chains : ∀ node, ChainSound setting.config Known (Genuine setting world.ballots) (world.reactors node).machine
  known : ∀ ballot ∈ world.ballots, Known ballot.block
  cached : ∀ ballot ∈ world.ballots, ∃ vote, (world.reactors ballot.voter).localVotes.lookup (ballot.block.header.height, ballot.round) = some vote ∧
      vote.blockHash = hashBlock ballot.block
  parents : ∀ first ∈ world.ballots, ∀ second ∈ world.ballots, first.voter = second.voter →
    first.block.header.height = second.block.header.height → first.round ≠ second.round →
    first.block.header.previousBlockHash = second.block.header.previousBlockHash

variable {setting} {Known : Block → Prop}

theorem genuine_mono {earlier later : List Ballot} (grown : earlier ⊆ later) {qc : QuorumCert}
    (genuine : Genuine setting earlier qc) : Genuine setting later qc := by
  obtain ⟨signers, distinct, members, quorum, signed⟩ := genuine
  refine ⟨signers, distinct, members, quorum, fun signer listed honest => ?_⟩
  obtain ⟨ballot, cast, supports⟩ := signed signer listed honest
  exact ⟨ballot, grown cast, supports⟩

theorem world_sound_new : WorldSound setting Known (newWorld setting) := by
  refine ⟨fun node => chain_sound_new setting.validatorSet, ?_, ?_, ?_⟩ <;> simp [newWorld]

variable {world : World}

theorem set_machine_sound (sound : WorldSound setting Known world) (node : ValidatorID) (machine : StateMachine)
    (chain : ChainSound setting.config Known (Genuine setting world.ballots) machine) :
    WorldSound setting Known (world.setMachine node machine) := by
  refine ⟨?_, sound.known, ?_, sound.parents⟩
  · intro other
    by_cases same : other = node
    · subst same
      simpa [World.setMachine] using chain
    · simpa [World.setMachine, Function.update_of_ne same] using sound.chains other
  · intro ballot cast
    obtain ⟨vote, found, hash⟩ := sound.cached ballot cast
    refine ⟨vote, ?_, hash⟩
    by_cases same : ballot.voter = node
    · rw [← same]
      simpa [World.setMachine] using found
    · simpa [World.setMachine, Function.update_of_ne same] using found

theorem proposal_ballots {node : ValidatorID} {order : List Hash} {ctx : Context} {delivered : Proposal} {ballot : Ballot} :
    ballot ∈ (world.act setting (.proposal node order ctx delivered)).ballots ↔ ballot ∈ world.ballots ∨
      (ballot = ⟨node, delivered.round, delivered.block⟩ ∧
        signsNow setting.config (setting.voter node) (world.reactors node) order ctx delivered = true) := by
  simp only [World.act]
  split
  · next signs => simp [signs, or_comm]
  · next idle => simp [idle]

theorem act_ballots_grow (world : World) (action : Action) : world.ballots ⊆ (world.act setting action).ballots := by
  cases action with
  | proposal node order ctx delivered => exact fun ballot cast => proposal_ballots.mpr (.inl cast)
  | vote node ctx delivered | timeoutVote node order ctx delivered => exact List.Subset.refl _

theorem deliver_proposal_sound (sound : WorldSound setting Known world) (node : ValidatorID) (order : List Hash)
    (ctx : Context) (delivered : Proposal) (known : Known delivered.block)
    (admissible : delivered.justifyQC.height ≠ 0 → Genuine setting world.ballots delivered.justifyQC)
    (keeps : KeepsParent world (.proposal node order ctx delivered)) :
    WorldSound setting Known (world.act setting (.proposal node order ctx delivered)) := by
  have effect := on_proposal_effect setting.config (setting.voter node) (world.reactors node) order ctx delivered
  have grown := @act_ballots_grow setting world (.proposal node order ctx delivered)
  -- A ballot is cast only for an empty cache entry, so the voter has no other ballot in this round.
  have otherRound : signsNow setting.config (setting.voter node) (world.reactors node) order ctx delivered = true →
      ∀ ballot ∈ world.ballots, ballot.voter = node → ballot.block.header.height = delivered.block.header.height →
        ballot.round ≠ delivered.round := by
    intro signs ballot earlier voter height round
    obtain ⟨empty, -⟩ := effect.signed signs
    obtain ⟨vote, found, -⟩ := sound.cached ballot earlier
    rw [voter, height, round, empty] at found
    contradiction
  refine ⟨?_, ?_, ?_, ?_⟩
  · intro other
    refine ChainSound.mono ?_ fun qc genuine => genuine_mono grown genuine
    by_cases same : other = node
    · subst same
      have accepted := Consensus.on_proposal_chain_sound (sound.chains other) order ctx delivered known admissible
      simp only [World.act, Function.update_self]
      rcases effect.machine with machine | ⟨vote, machine⟩
      · rw [machine]
        exact accepted
      · rw [machine]
        exact on_vote_chain_sound accepted ctx vote
    · simpa [World.act, Function.update_of_ne same] using sound.chains other
  · intro ballot member
    rcases proposal_ballots.mp member with earlier | ⟨rfl, -⟩
    · exact sound.known ballot earlier
    · exact known
  · intro ballot member
    rcases proposal_ballots.mp member with earlier | ⟨rfl, signs⟩
    · obtain ⟨vote, found, hash⟩ := sound.cached ballot earlier
      refine ⟨vote, ?_, hash⟩
      by_cases same : ballot.voter = node
      · rw [same] at found ⊢
        simpa [World.act] using effect.kept _ _ found
      · simpa [World.act, Function.update_of_ne same] using found
    · obtain ⟨-, vote, found, hash⟩ := effect.signed signs
      exact ⟨vote, by simpa [World.act] using found, hash⟩
  · intro first firstCast second secondCast voter height round
    rcases proposal_ballots.mp firstCast with firstOld | ⟨rfl, firstSigns⟩
    · rcases proposal_ballots.mp secondCast with secondOld | ⟨rfl, secondSigns⟩
      · exact sound.parents first firstOld second secondOld voter height round
      · exact keeps first firstOld voter height round
    · rcases proposal_ballots.mp secondCast with secondOld | ⟨rfl, secondSigns⟩
      · exact (keeps second secondOld voter.symm height.symm round.symm).symm
      · exact absurd rfl round

theorem reached_sound (reached : Reached setting KeepsParent Known world) : WorldSound setting Known world := by
  induction reached with
  | start => exact world_sound_new
  | next _ action admissible allowed known sound =>
    cases action with
    | proposal node order ctx delivered =>
      exact deliver_proposal_sound sound node order ctx delivered (known _ rfl) admissible allowed
    | vote node ctx delivered =>
      exact set_machine_sound sound node _ (on_vote_chain_sound (sound.chains node) ctx delivered)
    | timeoutVote node order ctx delivered =>
      exact set_machine_sound sound node _ (on_timeout_chain_sound (sound.chains node) order ctx delivered)

def Setting.faulty (setting : Setting) : Finset ValidatorID :=
  setting.validatorSet.members.filter fun id => setting.honest id = false

variable {ballots : List Ballot}

theorem genuine_share_voter (fits : setting.validatorSet.powerSum < 2 ^ 64)
    (faultBound : 3 * weight setting.validatorSet.powerOf setting.faulty < setting.validatorSet.totalVotingPower.toNat) {first second : QuorumCert} (firstGenuine : Genuine setting ballots first)
    (secondGenuine : Genuine setting ballots second) :
    ∃ voter, (∃ ballot ∈ ballots, ballot.supports voter first) ∧ ∃ ballot ∈ ballots, ballot.supports voter second := by
  obtain ⟨firstSigners, firstDistinct, firstMembers, firstQuorum, firstSigned⟩ := firstGenuine
  obtain ⟨secondSigners, secondDistinct, secondMembers, secondQuorum, secondSigned⟩ := secondGenuine
  have inSet : ∀ signers : List ValidatorID, (∀ signer ∈ signers, (setting.validatorSet.get signer).isSome) →
      signers.toFinset ⊆ setting.validatorSet.members := by
    intro signers members signer listed
    obtain ⟨validator, found⟩ := Option.isSome_iff_exists.mp (members signer (mem_toFinset.mp listed))
    exact get_member found
  rw [← weight_of_nodup _ _ firstDistinct] at firstQuorum
  rw [← weight_of_nodup _ _ secondDistinct] at secondQuorum
  have bounded := members_weight setting.validatorSet
  rw [← total_of_fits fits] at bounded
  obtain ⟨voter, inFirst, inSecond, correct⟩ := quorums_share_correct setting.validatorSet.powerOf
    (inSet _ firstMembers) (inSet _ secondMembers) bounded firstQuorum secondQuorum faultBound
  have honest : setting.honest voter = true := by
    by_contra dishonest
    exact correct (Finset.mem_filter.mpr ⟨inSet _ firstMembers inFirst, Bool.eq_false_iff.mpr dishonest⟩)
  exact ⟨voter, firstSigned voter (mem_toFinset.mp inFirst) honest, secondSigned voter (mem_toFinset.mp inSecond) honest⟩

theorem same_hash_same_parent (collisionFree : Sha256.CollisionFree (Set.image (fun block => headerPreimage (sealedHeader block))
      {block | Known block})) {first second : Block} (firstKnown : Known first) (secondKnown : Known second)
    (same : hashBlock first = hashBlock second) : first.header.previousBlockHash = second.header.previousBlockHash := by
  have headers := same_hash_same_header collisionFree firstKnown secondKnown same
  simpa using congrArg Header.previousBlockHash headers

theorem ballots_same_parent (sound : WorldSound setting Known world)
    (collisionFree : Sha256.CollisionFree (Set.image (fun block => headerPreimage (sealedHeader block)) {block | Known block}))
    {first second : Ballot} (firstCast : first ∈ world.ballots) (secondCast : second ∈ world.ballots)
    (voter : first.voter = second.voter) (height : first.block.header.height = second.block.header.height) :
    first.block.header.previousBlockHash = second.block.header.previousBlockHash := by
  by_cases round : first.round = second.round
  · obtain ⟨vote, found, hash⟩ := sound.cached first firstCast
    obtain ⟨vote', found', hash'⟩ := sound.cached second secondCast
    rw [voter, height, round, found'] at found
    cases found
    exact same_hash_same_parent collisionFree (sound.known first firstCast) (sound.known second secondCast) (hash.symm.trans hash')
  · exact sound.parents first firstCast second secondCast voter height round

-- A commit at a height rests on a quorum for a child one height above, and two such quorums share an honest voter.
theorem honest_commits_agree (setting : Setting) (Known : Block → Prop) (hashing : setting.config.hashBlock = hashBlock)
    (fits : setting.validatorSet.powerSum < 2 ^ 64)
    (faultBound : 3 * weight setting.validatorSet.powerOf setting.faulty < setting.validatorSet.totalVotingPower.toNat)
    (collisionFree : Sha256.CollisionFree (Set.image (fun block => headerPreimage (sealedHeader block)) {block | Known block}))
    (world : World) (reached : Reached setting KeepsParent Known world) (left right : ValidatorID)
    (first second : CommitDecision) (firstDecided : first ∈ (world.reactors left).machine.committed)
    (secondDecided : second ∈ (world.reactors right).machine.committed)
    (heights : first.committedHeight = second.committedHeight) :
    first.committedBlockHash = second.committedBlockHash := by
  have sound := reached_sound reached
  obtain ⟨child, childQC, childKnown, childGenuine, childHash, childHeight, -, childParent⟩ :=
    ((sound.chains left).decisions first firstDecided).child
  obtain ⟨child', childQC', childKnown', childGenuine', childHash', childHeight', -, childParent'⟩ :=
    ((sound.chains right).decisions second secondDecided).child
  rw [hashing] at childHash childHash'
  obtain ⟨voter, ⟨ballot, cast, castBy, -, ballotHeight, ballotHash⟩, ballot', cast', castBy', -, ballotHeight', ballotHash'⟩ :=
    genuine_share_voter fits faultBound childGenuine childGenuine'
  have sameHeight : ballot.block.header.height = ballot'.block.header.height := by
    rw [ballotHeight, ballotHeight', childHeight, childHeight', heights]
  calc first.committedBlockHash = child.header.previousBlockHash := childParent.symm
    _ = ballot.block.header.previousBlockHash :=
        same_hash_same_parent collisionFree childKnown (sound.known ballot cast) (childHash.trans ballotHash.symm)
    _ = ballot'.block.header.previousBlockHash :=
        ballots_same_parent sound collisionFree cast cast' (castBy.trans castBy'.symm) sameHeight
    _ = child'.header.previousBlockHash :=
        same_hash_same_parent collisionFree (sound.known ballot' cast') childKnown' (ballotHash'.trans childHash'.symm)
    _ = second.committedBlockHash := childParent'

abbrev Delivery := ValidatorID × Proposal

def World.deliver (setting : Setting) (world : World) (batch : List Delivery) : World :=
  batch.foldl (fun world sent => world.act setting (.proposal sent.1 [] Context.background sent.2)) world

def Delivery.ballot (sent : Delivery) : Ballot := ⟨sent.1, sent.2.round, sent.2.block⟩

theorem deliver_ballot_source (world : World) (sent : Delivery) {ballot : Ballot}
    (cast : ballot ∈ (world.act setting (.proposal sent.1 [] .background sent.2)).ballots) :
    ballot ∈ world.ballots ∨ ballot = Delivery.ballot sent := by
  exact (proposal_ballots.mp cast).imp_right And.left

theorem reached_batch {Allowed : World → Action → Prop} (reached : Reached setting Allowed Known world)
    (batch : List Delivery) (known : ∀ sent ∈ batch, Known sent.2.block)
    (genuine : ∀ sent ∈ batch, sent.2.justifyQC.height ≠ 0 → Genuine setting world.ballots sent.2.justifyQC)
    (allowed : ∀ later, ∀ sent ∈ batch, (∀ ballot ∈ later.ballots, ballot ∈ world.ballots ∨ ballot ∈ batch.map Delivery.ballot) →
      Allowed later (.proposal sent.1 [] .background sent.2)) :
    Reached setting Allowed Known (world.deliver setting batch) := by
  have extend : ∀ (rest : List Delivery) (later : World), rest ⊆ batch → Reached setting Allowed Known later →
      world.ballots ⊆ later.ballots → (∀ ballot ∈ later.ballots, ballot ∈ world.ballots ∨ ballot ∈ batch.map Delivery.ballot) →
      Reached setting Allowed Known (later.deliver setting rest) := by
    intro rest
    induction rest with
    | nil => exact fun later _ reached _ _ => reached
    | cons sent rest ih =>
      intro later within reached grown sources
      obtain ⟨member, restWithin⟩ := cons_subset.mp within
      have stepped : Reached setting Allowed Known (later.act setting (.proposal sent.1 [] .background sent.2)) :=
        .next reached _ (fun present => genuine_mono grown (genuine sent member present)) (allowed later sent member sources)
          (by rintro block rfl; exact known sent member)
      refine ih _ restWithin stepped (List.Subset.trans grown (act_ballots_grow later _)) ?_
      intro ballot cast
      rcases deliver_ballot_source later sent cast with earlier | rfl
      · exact sources ballot earlier
      · exact .inr (mem_map_of_mem member)
  exact extend batch world (List.Subset.refl _) reached (List.Subset.refl _) fun ballot cast => .inl cast

variable {block : Block}

theorem genuine_of_cast {qc : QuorumCert} (signers : List ValidatorID) (distinct : signers.Nodup)
    (members : ∀ signer ∈ signers, (setting.validatorSet.get signer).isSome)
    (quorum : 2 * setting.validatorSet.totalVotingPower.toNat ≤ 3 * (signers.map setting.validatorSet.powerOf).sum) (height : block.header.height = qc.height) (hash : hashBlock block = qc.blockHash)
    (cast : ∀ signer ∈ signers, setting.honest signer = true → ⟨signer, qc.round, block⟩ ∈ ballots) :
    Genuine setting ballots qc :=
  ⟨signers, distinct, members, quorum, fun signer listed honest => ⟨_, cast signer listed honest, rfl, rfl, height, hash⟩⟩

section TwoForks

open ByteCodec

def ownKeySigned : VerifySignature := fun publicKey _ signature => signature = publicKey

def fourSetting (honest : ValidatorID → Bool) : Setting :=
  ⟨⟨utf8 "vexo", hashBlock, some ownKeySigned, none, false, id⟩, fourValidators, fun id _ => .ok (id ++ utf8 "-pub"), honest⟩

def blockAt (height : Height) (branch : Int64) (previous : Hash) : Block :=
  ⟨⟨utf8 "vexo", height, branch, previous, zeroHash, fourValidators.hash, zeroHash, zeroHash⟩, []⟩

def firstBlock (branch : Int64) : Block := blockAt 1 branch zeroHash
def secondBlock (branch : Int64) : Block := blockAt 2 branch (hashBlock (firstBlock branch))
def thirdBlock (branch : Int64) : Block := blockAt 3 branch (hashBlock (secondBlock branch))

def certFor (signers : String) (round : Round) (block : Block) : QuorumCert :=
  ⟨block.header.height, round, hashBlock block, utf8 signers, utf8 "aggregate", 3⟩

def proposalOf (round : Round) (justifyQC : QuorumCert) (block : Block) : Proposal :=
  ⟨block, round, utf8 "d", justifyQC, utf8 "d-pub"⟩

variable (nodes : List ValidatorID)

def toAll (proposal : Proposal) : List Delivery := nodes.map fun node => (node, proposal)

def threeNodes : List ValidatorID := [utf8 "a", utf8 "b", utf8 "c"]

def firstHeight : List Delivery :=
  toAll threeNodes (proposalOf 0 zeroQC (firstBlock 0)) ++ toAll threeNodes (proposalOf 1 zeroQC (firstBlock 1))

def secondHeight : List Delivery :=
  toAll threeNodes (proposalOf 0 (certFor "a,b,c" 0 (firstBlock 0)) (secondBlock 0)) ++
    toAll threeNodes (proposalOf 1 (certFor "a,b,c" 1 (firstBlock 1)) (secondBlock 1))

def thirdHeight : List Delivery :=
  [(utf8 "a", proposalOf 0 (certFor "a,b,c" 0 (secondBlock 0)) (thirdBlock 0)),
    (utf8 "b", proposalOf 0 (certFor "a,b,c" 1 (secondBlock 1)) (thirdBlock 1))]

def forkBlocks : List Block :=
  [firstBlock 0, firstBlock 1, secondBlock 0, secondBlock 1, thirdBlock 0, thirdBlock 1]

def allHonest : Setting := fourSetting fun _ => true
def forkedOnce : World := (newWorld allHonest).deliver allHonest firstHeight
def forkedTwice : World := forkedOnce.deliver allHonest secondHeight
def forked : World := forkedTwice.deliver allHonest thirdHeight

def World.commitsOf (world : World) (node : ValidatorID) : List (Height × Hash) :=
  (world.reactors node).machine.committed.map fun decision => (decision.committedHeight, decision.committedBlockHash)

def castBy (round : Round) (block : Block) : List Ballot := nodes.map fun node => ⟨node, round, block⟩

theorem fork_evaluated : (∀ first ∈ forkBlocks, ∀ second ∈ forkBlocks, hashBlock first = hashBlock second → first = second) ∧
    castBy threeNodes 0 (firstBlock 0) ++ castBy threeNodes 1 (firstBlock 1) ⊆ forkedOnce.ballots ∧
    castBy threeNodes 0 (secondBlock 0) ++ castBy threeNodes 1 (secondBlock 1) ⊆ forkedTwice.ballots ∧
    forked.commitsOf (utf8 "a") = [(1, hashBlock (firstBlock 0))] ∧
    forked.commitsOf (utf8 "b") = [(1, hashBlock (firstBlock 1))] ∧ hashBlock (firstBlock 0) ≠ hashBlock (firstBlock 1) := by
  decide +kernel

theorem three_certify {round : Round} (cast : castBy threeNodes round block ⊆ ballots) : Genuine allHonest ballots (certFor "a,b,c" round block) := by
  refine genuine_of_cast threeNodes (by with_unfolding_all decide) (by decide +kernel) (by decide +kernel) rfl rfl ?_
  intro signer listed _
  exact cast (mem_map_of_mem listed)

theorem forked_reached : Reached allHonest (fun _ _ => True) (· ∈ forkBlocks) forked := by
  obtain ⟨-, castOnce, castTwice, -⟩ := fork_evaluated
  obtain ⟨firstA, firstB⟩ := append_subset.mp castOnce
  obtain ⟨secondA, secondB⟩ := append_subset.mp castTwice
  have once : Reached allHonest (fun _ _ => True) (· ∈ forkBlocks) forkedOnce := by
    refine reached_batch .start firstHeight ?_ ?_ fun _ _ _ _ => trivial
    · simp [firstHeight, toAll, threeNodes, proposalOf, forkBlocks]
    · simp [firstHeight, toAll, threeNodes, proposalOf, zeroQC]
  have twice : Reached allHonest (fun _ _ => True) (· ∈ forkBlocks) forkedTwice := by
    refine reached_batch once secondHeight ?_ ?_ fun _ _ _ _ => trivial
    · simp [secondHeight, toAll, threeNodes, proposalOf, forkBlocks]
    · simp [secondHeight, toAll, threeNodes, proposalOf, three_certify firstA, three_certify firstB]
  refine reached_batch twice thirdHeight ?_ ?_ fun _ _ _ _ => trivial
  · simp [thirdHeight, proposalOf, forkBlocks]
  · simp [thirdHeight, proposalOf, three_certify secondA, three_certify secondB]

-- Nobody signs twice in a round, yet the two branches commit different blocks at height one.
theorem honest_machines_commit_two_blocks : allHonest.config.hashBlock = hashBlock ∧ allHonest.validatorSet.powerSum < 2 ^ 64 ∧
      3 * weight allHonest.validatorSet.powerOf allHonest.faulty < allHonest.validatorSet.totalVotingPower.toNat ∧
      Sha256.CollisionFree (Set.image (fun block => headerPreimage (sealedHeader block)) {block | block ∈ forkBlocks}) ∧
      ∃ world, Reached allHonest (fun _ _ => True) (· ∈ forkBlocks) world ∧
        ∃ first ∈ (world.reactors (utf8 "a")).machine.committed, ∃ second ∈ (world.reactors (utf8 "b")).machine.committed,
          first.committedHeight = second.committedHeight ∧ first.committedBlockHash ≠ second.committedBlockHash := by
  obtain ⟨distinct, -, -, commitsA, commitsB, different⟩ := fork_evaluated
  obtain ⟨first, firstDecided, firstIs⟩ := mem_map.mp (commitsA ▸ mem_singleton_self _)
  obtain ⟨second, secondDecided, secondIs⟩ := mem_map.mp (commitsB ▸ mem_singleton_self _)
  obtain ⟨firstHeight, firstHash⟩ := Prod.mk.inj firstIs
  obtain ⟨secondHeight, secondHash⟩ := Prod.mk.inj secondIs
  refine ⟨rfl, by decide, by with_unfolding_all decide, collision_free_blocks distinct, forked, forked_reached,
    first, firstDecided, second, secondDecided, firstHeight.trans secondHeight.symm, ?_⟩
  rw [firstHash, secondHash]
  exact different

def oneFaulty : Setting := fourSetting fun id => id ≠ utf8 "d"

def twoNodes : List ValidatorID := [utf8 "a", utf8 "b"]
def branchBlocks : List Block := [firstBlock 0, secondBlock 0, thirdBlock 0]

def branchOne : List Delivery := toAll twoNodes (proposalOf 0 zeroQC (firstBlock 0))
def branchTwo : List Delivery := toAll twoNodes (proposalOf 0 (certFor "a,b,d" 0 (firstBlock 0)) (secondBlock 0))
def branchThree : List Delivery := toAll twoNodes (proposalOf 0 (certFor "a,b,d" 0 (secondBlock 0)) (thirdBlock 0))

def grownOnce : World := (newWorld oneFaulty).deliver oneFaulty branchOne
def grownTwice : World := grownOnce.deliver oneFaulty branchTwo
def grown : World := grownTwice.deliver oneFaulty branchThree

theorem branch_evaluated : (∀ first ∈ branchBlocks, ∀ second ∈ branchBlocks, hashBlock first = hashBlock second → first = second) ∧
    castBy twoNodes 0 (firstBlock 0) ⊆ grownOnce.ballots ∧ castBy twoNodes 0 (secondBlock 0) ⊆ grownTwice.ballots ∧
    (∀ ballot ∈ grownOnce.ballots, ballot.round = 0) ∧ (∀ ballot ∈ grownTwice.ballots, ballot.round = 0) ∧
    grown.commitsOf (utf8 "a") = [(1, hashBlock (firstBlock 0))] ∧ grown.commitsOf (utf8 "b") = [(1, hashBlock (firstBlock 0))] := by
  decide +kernel

theorem two_and_faulty_certify (cast : castBy twoNodes 0 block ⊆ ballots) : Genuine oneFaulty ballots (certFor "a,b,d" 0 block) := by
  refine genuine_of_cast [utf8 "a", utf8 "b", utf8 "d"] (by with_unfolding_all decide) (by with_unfolding_all decide) (by decide +kernel) rfl rfl ?_
  intro signer listed honest
  have correct : ∀ signer ∈ [utf8 "a", utf8 "b", utf8 "d"], oneFaulty.honest signer = true → signer ∈ twoNodes := by with_unfolding_all decide
  exact cast (mem_map_of_mem (correct signer listed honest))

theorem one_round_keeps_parent {earlier later : World} {batch : List Delivery} (zero : ∀ ballot ∈ earlier.ballots, ballot.round = 0)
    (batchZero : ∀ sent ∈ batch, sent.2.round = 0) (sent : Delivery) (member : sent ∈ batch)
    (sources : ∀ ballot ∈ later.ballots, ballot ∈ earlier.ballots ∨ ballot ∈ batch.map Delivery.ballot) :
    KeepsParent later (.proposal sent.1 [] .background sent.2) := by
  intro ballot cast _ _ otherRound
  refine absurd ?_ otherRound
  rw [batchZero sent member]
  rcases sources ballot cast with old | new
  · exact zero ballot old
  · obtain ⟨source, sourceMember, rfl⟩ := mem_map.mp new
    exact batchZero source sourceMember

theorem grown_reached : Reached oneFaulty KeepsParent (· ∈ branchBlocks) grown := by
  obtain ⟨-, castOnce, castTwice, zeroOnce, zeroTwice, -⟩ := branch_evaluated
  have once : Reached oneFaulty KeepsParent (· ∈ branchBlocks) grownOnce := by
    refine reached_batch .start branchOne ?_ ?_ fun later => one_round_keeps_parent ?_ ?_
    · simp [branchOne, toAll, twoNodes, proposalOf, branchBlocks]
    · simp [branchOne, toAll, twoNodes, proposalOf, zeroQC]
    · simp [newWorld]
    · simp [branchOne, toAll, twoNodes, proposalOf]
  have twice : Reached oneFaulty KeepsParent (· ∈ branchBlocks) grownTwice := by
    refine reached_batch once branchTwo ?_ ?_ fun later => one_round_keeps_parent zeroOnce ?_
    · simp [branchTwo, toAll, twoNodes, proposalOf, branchBlocks]
    · simp [branchTwo, toAll, twoNodes, proposalOf, two_and_faulty_certify castOnce]
    · simp [branchTwo, toAll, twoNodes, proposalOf]
  refine reached_batch twice branchThree ?_ ?_ fun later => one_round_keeps_parent zeroTwice ?_
  · simp [branchThree, toAll, twoNodes, proposalOf, branchBlocks]
  · simp [branchThree, toAll, twoNodes, proposalOf, two_and_faulty_certify castTwice]
  · simp [branchThree, toAll, twoNodes, proposalOf]

theorem commits_along_one_branch_agree :
    ∃ first ∈ (grown.reactors (utf8 "a")).machine.committed, ∃ second ∈ (grown.reactors (utf8 "b")).machine.committed,
      first.committedHeight = 1 ∧ second.committedHeight = 1 ∧ first.committedBlockHash = second.committedBlockHash := by
  obtain ⟨distinct, -, -, -, -, commitsA, commitsB⟩ := branch_evaluated
  obtain ⟨first, firstDecided, firstIs⟩ := mem_map.mp (commitsA ▸ mem_singleton_self _)
  obtain ⟨second, secondDecided, secondIs⟩ := mem_map.mp (commitsB ▸ mem_singleton_self _)
  have firstHeight := (Prod.mk.inj firstIs).1
  have secondHeight := (Prod.mk.inj secondIs).1
  exact ⟨first, firstDecided, second, secondDecided, firstHeight, secondHeight,
    honest_commits_agree oneFaulty (· ∈ branchBlocks) rfl (by decide +kernel) (by decide +kernel) (collision_free_blocks distinct)
      grown grown_reached (utf8 "a") (utf8 "b") first second firstDecided secondDecided (firstHeight.trans secondHeight.symm)⟩

end TwoForks

end Vexo.Node
