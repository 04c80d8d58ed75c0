import VexoConsensus.Consensus.Certificates

namespace Vexo.Consensus

open Checks Finality OrderedMap

variable (machine : StateMachine)

def UpTo (height : Height) (round : Round) : Prop :=
  machine.status.height < height ∨ (machine.status.height = height ∧ machine.status.round ≤ round)

def NoFurther (first second : StateMachine) : Prop := UpTo first second.status.height second.status.round

theorem no_further_refl : NoFurther machine machine := Or.inr ⟨rfl, UInt64.le_refl _⟩

theorem no_further_trans {first second third : StateMachine} (earlier : NoFurther first second) (later : NoFurther second third) :
    NoFurther first third := by
  unfold NoFurther UpTo at *
  rcases earlier with less | ⟨same, rounds⟩
  · rcases later with less' | ⟨same', -⟩
    · exact .inl (UInt64.lt_trans less less')
    · exact .inl (same' ▸ less)
  · rcases later with less' | ⟨same', rounds'⟩
    · exact .inl (same ▸ less')
    · exact .inr ⟨same.trans same', UInt64.le_trans rounds rounds'⟩

theorem no_further_of_same {first second : StateMachine} (same : second.status.height = first.status.height ∧
    second.status.round = first.status.round) : NoFurther first second :=
  .inr ⟨same.1.symm, same.2 ▸ UInt64.le_refl _⟩

section Steps

variable (config : StateMachineConfig) (machine : StateMachine)

theorem on_proposal_progress (order : List Hash) (ctx : Context) (proposal : Proposal) :
    NoFurther machine (onProposal config machine order ctx proposal).1 := by
  have kept : ∀ {base next : StateMachine} {result : Except Err Unit}, base.status = machine.status →
      applyKnownCommitRules base order = (next, result) →
      next.status.height = machine.status.height ∧ next.status.round = machine.status.round := by
    intro base next result same applied
    have status := commit_all_status (base.blockTree.decisions (visit base.blockTree.blocks order)) base
    rw [← known_rules_eq, applied, same] at status
    exact status
  have based : (proposalBase config machine proposal).status = machine.status := by
    unfold proposalBase
    split <;> rfl
  have outcome := on_proposal_outcome config machine order ctx proposal
  generalize onProposal config machine order ctx proposal = result at outcome ⊢
  cases outcome with
  | refused reason checked | unsafeRefused checked uncertified current refused => exact no_further_refl machine
  | conflicting checked safe next reason applied | outdated checked late next applied => exact no_further_of_same (kept based applied)
  | accepted checked uncertified current safe next applied =>
    -- A proposal behind the status never gets here.
    unfold Behind at current
    unfold NoFurther UpTo
    simp only
    by_cases same : machine.status.height = proposal.block.header.height
    · exact .inr ⟨same, UInt64.not_lt.mp fun earlier => current (.inr ⟨same.symm, earlier⟩)⟩
    · exact .inl (UInt64.lt_of_le_of_ne (UInt64.not_lt.mp fun below => current (.inl below)) same)

theorem certify_votes_status (vote : Vote) : (certifyVotes config machine vote).1.status.height = machine.status.height ∧
    (certifyVotes config machine vote).1.status.round = machine.status.round := by
  unfold certifyVotes
  cases buildQuorumCert config machine vote.height vote.round vote.blockHash with
  | error reason => exact ⟨rfl, rfl⟩
  | ok qc =>
    cases set : machine.blockTree.setQuorumCert qc with
    | error reason =>
      simp only [set]
      split
      · contradiction
      · exact ⟨rfl, rfl⟩
      · exact ⟨rfl, rfl⟩
    | ok tree =>
      rcases update_locked_cases { machine with blockTree := tree } qc with same | same <;> simp [set, same]

theorem on_vote_progress (ctx : Context) (vote : Vote) : NoFurther machine (onVote config machine ctx vote).1 := by
  unfold onVote
  split
  · exact no_further_refl machine
  · next done =>
    split
    · exact no_further_refl machine
    · cases valid : validateVote config machine (ensureVoteSignature config vote) with
      | error reason =>
        simp only [valid]
        exact no_further_refl machine
      | ok checked =>
        simp only [valid]
        have recorded : (recordVote machine (ensureVoteSignature config vote)).1.status = machine.status := by
          simp only [recordVote]
          split <;> rfl
        cases outcome : recordVote machine (ensureVoteSignature config vote) with
        | mk next result =>
          rw [outcome] at recorded
          cases result with
          | error reason => exact no_further_of_same ⟨congrArg Status.height recorded, congrArg Status.round recorded⟩
          | ok done =>
            have certified := certify_votes_status config next (ensureVoteSignature config vote)
            rw [recorded] at certified
            exact no_further_of_same certified

theorem advance_round_ok {pacemaker next : Pacemaker} {cert : TimeoutCert} (advanced : pacemaker.advanceRound cert = .ok next) :
    next = ⟨cert.height, cert.round + 1⟩ := by
  unfold Pacemaker.advanceRound at advanced
  split at advanced
  · cases advanced
  · next below =>
    split at advanced
    · cases advanced
      rfl
    · next above =>
      have same : pacemaker.height = cert.height := UInt64.le_antisymm (UInt64.not_lt.mp below) (UInt64.not_lt.mp above)
      split at advanced
      · cases advanced
      · cases advanced
        rw [same]

theorem build_timeout_cert_place {collector : TimeoutCollector} {order : List ValidatorID} {height : Height} {round : Round}
    {cert : TimeoutCert} (built : collector.buildTimeoutCert order height round = .ok cert) : cert.height = height ∧ cert.round = round := by
  simp only [TimeoutCollector.buildTimeoutCert, ok_iff] at built
  obtain ⟨-, ⟨power, members⟩, -, -, signature, -, returned⟩ := built
  cases returned
  exact ⟨rfl, rfl⟩

@[simp] theorem ensure_timeout_place (vote : TimeoutVote) : (ensureTimeoutVoteSignature config vote).height = vote.height ∧
    (ensureTimeoutVoteSignature config vote).round = vote.round := by
  unfold ensureTimeoutVoteSignature
  split <;> exact ⟨rfl, rfl⟩

theorem on_timeout_status (order : List ValidatorID) (ctx : Context) (vote : TimeoutVote) :
    let next := (onTimeoutVote config machine order ctx vote).1
    next.status = machine.status ∨ (next.status.height = vote.height ∧ next.status.round = vote.round + 1) := by
  unfold onTimeoutVote
  by_cases done : ctx.done = true
  · rw [if_pos done]
    exact .inl rfl
  · rw [if_neg done]
    simp only
    cases verifyTimeoutVoteSignature config machine (ensureTimeoutVoteSignature config vote) with
    | error reason => exact .inl rfl
    | ok checked =>
      cases machine.timeouts.addVote (ensureTimeoutVoteSignature config vote) with
      | error reason => exact .inl rfl
      | ok timeouts =>
        simp only
        cases built : timeouts.buildTimeoutCert order (ensureTimeoutVoteSignature config vote).height
            (ensureTimeoutVoteSignature config vote).round with
        | error reason => exact .inl rfl
        | ok cert =>
          simp only
          cases advanced : machine.pacemaker.advanceRound cert with
          | error reason => exact .inl rfl
          | ok pacemaker =>
            obtain ⟨height, round⟩ := build_timeout_cert_place built
            obtain ⟨voteHeight, voteRound⟩ := ensure_timeout_place config vote
            rw [advance_round_ok advanced, height, round, voteHeight, voteRound]
            exact .inr ⟨rfl, rfl⟩

end Steps

section Runs

variable (config : StateMachineConfig)

def Forward (machine : StateMachine) : Event → Prop
  | .timeoutVote _ _ vote => UpTo machine vote.height (vote.round + 1)
  | _ => True

def AllForward : StateMachine → List Event → Prop
  | _, [] => True
  | machine, event :: rest => Forward machine event ∧ AllForward (step config machine event) rest

theorem step_progress (machine : StateMachine) (event : Event) (forward : Forward machine event) : NoFurther machine (step config machine event) := by
  cases event with
  | proposal order ctx proposal => exact on_proposal_progress config machine order ctx proposal
  | vote ctx vote => exact on_vote_progress config machine ctx vote
  | timeoutVote order ctx vote =>
    rcases on_timeout_status config machine order ctx vote with same | ⟨height, round⟩
    · exact no_further_of_same ⟨congrArg Status.height same, congrArg Status.round same⟩
    · unfold NoFurther step
      rw [height, round]
      exact forward

theorem run_progress (events : List Event) (machine : StateMachine) (forward : AllForward config machine events) :
    NoFurther machine (run config machine events) := by
  induction events generalizing machine with
  | nil => exact no_further_refl machine
  | cons event rest ih => exact no_further_trans (step_progress config machine event forward.1) (ih _ forward.2)

theorem all_forward_append {earlier later : List Event} {machine : StateMachine} (forward : AllForward config machine (earlier ++ later)) :
    AllForward config (run config machine earlier) later := by
  induction earlier generalizing machine with
  | nil => exact forward
  | cons event rest ih => exact ih forward.2

theorem progress_never_reversed (machine : StateMachine) (earlier later : List Event) (forward : AllForward config machine (earlier ++ later)) :
    NoFurther (run config machine earlier) (run config machine (earlier ++ later)) := by
  have rest := run_progress config later _ (all_forward_append config forward)
  rwa [run, run, ← List.foldl_append] at rest

end Runs

def soleStart : StateMachine := newStateMachine echoConfig ⟨[plainValidator]⟩

def fifthBlock : Block := { soleBlock ⟨[plainValidator]⟩ with header := { (soleBlock ⟨[plainValidator]⟩).header with height := 5 } }

def fifthProposal (round : Round) : Event := .proposal [] Context.background ⟨fifthBlock, round, plainValidator.id, zeroQC, plainValidator.publicKey⟩

def timeoutAt (height : Height) (round : Round) : Event :=
  .timeoutVote [] Context.background ⟨height, round, plainValidator.id, zeroQC, plainValidator.publicKey⟩

def place : Height × Round := (machine.status.height, machine.status.round)

theorem sole_evaluated :
    place (run echoConfig soleStart [fifthProposal 3]) = (5, 3) ∧ place (run echoConfig soleStart [fifthProposal 3, timeoutAt 1 0]) = (1, 1) ∧
      place (run echoConfig soleStart [fifthProposal 3, timeoutAt 5 (-1)]) = (5, 0) ∧
      place (run echoConfig soleStart [fifthProposal 3, timeoutAt 5 3]) = (5, 4) := by
  decide +kernel

theorem sole_place {events : List Event} {height : Height} {round : Round} (at' : place (run echoConfig soleStart events) = (height, round)) :
    (run echoConfig soleStart events).status.height = height ∧ (run echoConfig soleStart events).status.round = round :=
  Prod.mk.inj at'

-- A timeout certificate of an earlier height, or of the last round of the current one, takes the status back.
theorem timeouts_take_status_back :
    ¬ NoFurther (run echoConfig soleStart [fifthProposal 3]) (run echoConfig soleStart [fifthProposal 3, timeoutAt 1 0]) ∧
      ¬ NoFurther (run echoConfig soleStart [fifthProposal 3]) (run echoConfig soleStart [fifthProposal 3, timeoutAt 5 (-1)]) := by
  obtain ⟨before, lower, wrapped, -⟩ := sole_evaluated
  obtain ⟨height, round⟩ := sole_place before
  obtain ⟨lowerHeight, lowerRound⟩ := sole_place lower
  obtain ⟨wrappedHeight, wrappedRound⟩ := sole_place wrapped
  unfold NoFurther UpTo
  rw [height, round, lowerHeight, lowerRound, wrappedHeight, wrappedRound]
  decide

theorem timeout_moves_on : place (run echoConfig soleStart [fifthProposal 3, timeoutAt 5 3]) = (5, 4) ∧
      NoFurther (run echoConfig soleStart [fifthProposal 3]) (run echoConfig soleStart ([fifthProposal 3] ++ [timeoutAt 5 3])) := by
  obtain ⟨before, -, -, moved⟩ := sole_evaluated
  obtain ⟨height, round⟩ := sole_place before
  have forward : AllForward echoConfig soleStart ([fifthProposal 3] ++ [timeoutAt 5 3]) := by
    refine ⟨trivial, ?_, trivial⟩
    change UpTo (run echoConfig soleStart [fifthProposal 3]) 5 4
    unfold UpTo
    rw [height, round]
    decide
  exact ⟨moved, progress_never_reversed echoConfig soleStart [fifthProposal 3] [timeoutAt 5 3] forward⟩

end Vexo.Consensus
