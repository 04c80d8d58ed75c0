import VexoConsensus.Governance
import VexoConsensus.Lib.Transitions

namespace Vexo.Governance

open ByteCodec Checks App OrderedMap AList

variable {policy : TallyPolicy}

section Proposals

variable {call : Call} {proposalID : UInt64} {old new : ProposalState}

inductive Progress (policy : TallyPolicy) (now : UInt64) (spell : Address → Address) (call : Call) (proposalID : UInt64)
    (old new : ProposalState) : Prop where
  | kept (votes : ∀ voter, new.votes.lookup voter = old.votes.lookup voter) (executed : new.executed = old.executed)
  | voted {voter : Address} {option : GoString} {choice : VoteOption} {power : VotingPower} (asked : call = .vote proposalID voter option)
      (parsed : VoteOption.parse option = some choice)
      (votes : ∀ key record, new.votes.lookup key = some record →
        old.votes.lookup key = some record ∨ key = spell voter ∧ record = ⟨spell voter, choice, power⟩)
      (executed : new.executed = old.executed)
  | executed (asked : call = .execute proposalID) (once : old.executed = false) (due : old.executableAt ≤ now)
      (passes : passesTally policy (tally old) = true) (votes : ∀ voter, new.votes.lookup voter = old.votes.lookup voter)
      (executed : new.executed = true)

structure SameTerms (old new : ProposalState) : Prop where
  ends : new.votingEndsAt = old.votingEndsAt
  executable : new.executableAt = old.executableAt

theorem effect_progress {document made : Document} (effect : Effect policy document call made)
    (unused : ∀ proposal, call = .submitProposal proposal → document.proposals.lookup document.nextID = none)
    (listed : document.proposals.lookup proposalID = some old) :
    ∃ new, made.proposals.lookup proposalID = some new ∧ SameTerms old new ∧ Progress policy document.now id call proposalID old new := by
  cases effect with
  | kept proposals =>
    rw [proposals]
    exact ⟨old, listed, ⟨rfl, rfl⟩, .kept (fun _ => rfl) rfl⟩
  | submitted asked proposals =>
    have different : proposalID ≠ document.nextID := by
      rintro rfl
      cases (unused _ asked).symm.trans listed
    rw [proposals, lookup_insert_ne different]
    exact ⟨old, listed, ⟨rfl, rfl⟩, .kept (fun _ => rfl) rfl⟩
  | @voted votedID voter option choice power state asked found parsed fresh proposals =>
    rw [proposals]
    by_cases same : proposalID = votedID
    · cases same
      cases found.symm.trans listed
      rw [lookup_insert]
      have votes : ∀ key record, (old.votes.insert voter ⟨voter, choice, power⟩).lookup key = some record →
          old.votes.lookup key = some record ∨ key = voter ∧ record = ⟨voter, choice, power⟩ := by
        intro key record present
        rcases lookup_insert_cases present with ⟨rfl, rfl⟩ | ⟨-, present⟩
        · exact .inr ⟨rfl, rfl⟩
        · exact .inl present
      exact ⟨_, rfl, ⟨rfl, rfl⟩, .voted asked parsed votes rfl⟩
    · rw [lookup_insert_ne same]
      exact ⟨old, listed, ⟨rfl, rfl⟩, .kept (fun _ => rfl) rfl⟩
  | @rejected rejectedID state found proposals =>
    rw [proposals]
    by_cases same : proposalID = rejectedID
    · cases same
      cases found.symm.trans listed
      rw [lookup_insert]
      exact ⟨_, rfl, ⟨rfl, rfl⟩, .kept (fun _ => rfl) rfl⟩
    · rw [lookup_insert_ne same]
      exact ⟨old, listed, ⟨rfl, rfl⟩, .kept (fun _ => rfl) rfl⟩
  | @executed executedID state asked found once due passes proposals =>
    rw [proposals]
    by_cases same : proposalID = executedID
    · cases same
      cases found.symm.trans listed
      rw [lookup_insert]
      exact ⟨_, rfl, ⟨rfl, rfl⟩, .executed asked once due passes (fun _ => rfl) rfl⟩
    · rw [lookup_insert_ne same]
      exact ⟨old, listed, ⟨rfl, rfl⟩, .kept (fun _ => rfl) rfl⟩

theorem written_map_source {Value : Type} {write : Value → Value} {table : Table GoString Value} {key : GoString} {value : Value}
    (present : (writtenMap write table).lookup key = some value) :
    ∃ name original, table.lookup name = some original ∧ Utf8.toValid name = key ∧ write original = value := by
  have rebuilt : ∀ (entries : List (Σ _ : GoString, Value)) (base : Table GoString Value),
      (entries.foldl (fun written entry => written.insert (Utf8.toValid entry.1) (write entry.2)) base).lookup key = some value →
        base.lookup key = some value ∨ ∃ entry ∈ entries, Utf8.toValid entry.1 = key ∧ write entry.2 = value := by
    intro entries
    induction entries with
    | nil => exact fun base present => .inl present
    | cons entry later ih =>
      intro base present
      rcases ih _ present with present | ⟨found, listed, named⟩
      · rcases lookup_insert_cases present with ⟨rfl, rfl⟩ | ⟨-, present⟩
        · exact .inr ⟨entry, List.mem_cons_self .., rfl, rfl⟩
        · exact .inl present
      · exact .inr ⟨found, List.mem_cons_of_mem _ listed, named⟩
  rcases rebuilt _ ∅ present with absent | ⟨entry, listed, named, written⟩
  · rw [lookup_empty] at absent
    cases absent
  · have inside := (List.mergeSort_perm table.entries _).mem_iff.mp listed
    exact ⟨entry.1, entry.2, List.mem_dlookup table.nodupKeys inside, named, written⟩

theorem settled_same {left right : Table GoString VoteRecord} (settled : Settled VoteRecord.written left)
    (same : ∀ voter, right.lookup voter = left.lookup voter) (voter : Address) :
    (writtenMap VoteRecord.written right).lookup voter = left.lookup voter := by
  have kept : Settled VoteRecord.written right := fun key record present => settled key record ((same key).symm.trans present)
  rw [settled_lookup kept, same]

theorem Progress.written {now : UInt64} (progress : Progress policy now id call proposalID old new)
    (settled : Settled VoteRecord.written old.votes) : Progress policy now Utf8.toValid call proposalID old new.written := by
  cases progress with
  | kept votes executed => exact .kept (settled_same settled votes) executed
  | executed asked once due passes votes executed => exact .executed asked once due passes (settled_same settled votes) executed
  | @voted voter option choice power asked parsed votes executed =>
    have respelled : ∀ key record, new.written.votes.lookup key = some record →
        old.votes.lookup key = some record ∨ key = Utf8.toValid voter ∧ record = ⟨Utf8.toValid voter, choice, power⟩ := by
      intro key record present
      obtain ⟨name, original, found, named, rfl⟩ := written_map_source present
      rcases votes name original found with before | ⟨rfl, rfl⟩
      · obtain ⟨spelled, same⟩ := settled name original before
        rw [← named, spelled, same]
        exact .inl before
      · exact .inr ⟨named.symm, rfl⟩
    exact .voted asked parsed respelled executed

theorem reread_progress {document read : Document} {keeper next : Keeper} (reread : Reread call document keeper next read)
    (unused : ∀ proposal, call = .submitProposal proposal → document.proposals.lookup document.nextID = none)
    (listed : document.proposals.lookup proposalID = some old) :
    ∃ new, read.proposals.lookup proposalID = some new ∧ SameTerms old new ∧
      Progress keeper.policy document.now keeper.spelled call proposalID old new := by
  cases reread with
  | same => exact ⟨old, listed, ⟨rfl, rfl⟩, .kept (fun _ => rfl) rfl⟩
  | memory own effect =>
    cases own
    exact effect_progress effect unused listed
  | stored own policy saved effect settled =>
    cases own
    obtain ⟨new, found, terms, progress⟩ := effect_progress effect unused listed
    refine ⟨new.written, ?_, ⟨terms.ends, terms.executable⟩, progress.written (settled proposalID old listed)⟩
    rw [reread_proposal, found, Option.map_some]

end Proposals

section Runs

open Transitions

-- Time does not go back, votes come before the end of the period, and no number the code computes goes past 64 bits.
def FairOn (policy : TallyPolicy) (document : Document) : Call → Prop
  | .setTime now => document.now ≤ now
  | .setVotingPower _ _ => True
  | .submitProposal _ => document.proposals.lookup document.nextID = none ∧
      document.now.toNat + policy.votingPeriod.toNat + policy.timelock.toNat < 2 ^ 64
  | .vote proposalID _ _ => ∀ state, document.proposals.lookup proposalID = some state → document.now < state.votingEndsAt
  | .execute proposalID => ∀ state, document.proposals.lookup proposalID = some state → state.power (fun _ => true) < 2 ^ 64

def Fair (keeper : Keeper) (call : Call) : Prop := ∀ document, keeper.view = some document → FairOn keeper.policy document call

variable {keeper next first last : Keeper} {call : Call} {calls : List Call} {document : Document} {proposalID : UInt64} {old new : ProposalState}

structure Ballot (keeper : Keeper) (proposalID : UInt64) (document : Document) (state : ProposalState) : Prop where
  view : keeper.view = some document
  listed : document.proposals.lookup proposalID = some state
  named : ∀ voter record, state.votes.lookup voter = some record → record.voter = voter

structure SameKeeper (keeper next : Keeper) : Prop where
  policy : next.policy = keeper.policy
  spelled : next.spelled = keeper.spelled

theorem reread_keeper {read : Document} (reread : Reread call document keeper next read) : SameKeeper keeper next := by
  cases reread with
  | same => exact ⟨rfl, rfl⟩
  | memory own =>
    cases own
    exact ⟨rfl, rfl⟩
  | stored own policy =>
    cases own
    exact ⟨policy, rfl⟩

theorem reread_clock {read : Document} (reread : Reread call document keeper next read) (fair : FairOn keeper.policy document call) :
    document.now ≤ read.now := by
  have later {now : UInt64} (clock : now = document.now ∨ call = .setTime now) : document.now ≤ now := by
    rcases clock with rfl | rfl
    · exact UInt64.le_refl _
    · exact fair
  cases reread with
  | same => exact UInt64.le_refl _
  | memory own effect clock | stored own policy saved effect settled clock => exact later clock

theorem Progress.named {now : UInt64} {spell : Address → Address} (progress : Progress policy now spell call proposalID old new)
    (named : ∀ voter record, old.votes.lookup voter = some record → record.voter = voter) :
    ∀ voter record, new.votes.lookup voter = some record → record.voter = voter := by
  intro voter record present
  cases progress with
  | kept votes | executed asked once due passes votes => exact named voter record ((votes voter).symm.trans present)
  | voted asked parsed votes =>
    rcases votes voter record present with before | ⟨rfl, rfl⟩
    · exact named voter record before
    · rfl

theorem step_progress (ballot : Ballot keeper proposalID document old) (fair : Fair keeper call) (step : Step keeper call next) :
    ∃ read new, Ballot next proposalID read new ∧ SameTerms old new ∧ SameKeeper keeper next ∧ document.now ≤ read.now ∧
      Progress keeper.policy document.now keeper.spelled call proposalID old new := by
  cases step
  have fair := fair document ballot.view
  obtain ⟨read, reread⟩ := after_reread ballot.view call
  have unused : ∀ proposal, call = .submitProposal proposal → document.proposals.lookup document.nextID = none := by
    rintro proposal rfl
    exact fair.1
  obtain ⟨new, listed, terms, progress⟩ := reread_progress reread unused ballot.listed
  exact ⟨read, new, ⟨reread.view, listed, progress.named ballot.named⟩, terms, reread_keeper reread, reread_clock reread fair, progress⟩

-- The record comes from a vote of the run that was cast before the end.
def CastEarly (first : Keeper) (calls : List Call) (proposalID ends : UInt64) (record : VoteRecord) : Prop :=
  ∃ earlier later voter option keeper document, calls = earlier ++ .vote proposalID voter option :: later ∧ Run Step Fair first earlier keeper ∧
    keeper.view = some document ∧ document.now < ends ∧ record.voter = first.spelled voter ∧ VoteOption.parse option = some record.option

structure Course (first : Keeper) (calls : List Call) (proposalID now : UInt64) (old new : ProposalState) : Prop where
  closed : old.votingEndsAt ≤ now → ∀ voter, new.votes.lookup voter = old.votes.lookup voter
  cast : ∀ voter record, new.votes.lookup voter = some record →
    old.votes.lookup voter = some record ∨ CastEarly first calls proposalID old.votingEndsAt record
  executed : old.executed = true → new.executed = true

theorem cast_later {ends : UInt64} {record : VoteRecord} (fair : Fair first call) (step : Step first call next) (same : SameKeeper first next)
    (cast : CastEarly next calls proposalID ends record) : CastEarly first (call :: calls) proposalID ends record := by
  obtain ⟨earlier, later, voter, option, keeper, document, rfl, run, view, early, named, parsed⟩ := cast
  exact ⟨call :: earlier, later, voter, option, keeper, document, rfl, .step fair step run, view, early, same.spelled ▸ named, parsed⟩

theorem step_course (ballot : Ballot keeper proposalID document old) (fair : Fair keeper call)
    (progress : Progress keeper.policy document.now keeper.spelled call proposalID old new) :
    Course keeper [call] proposalID document.now old new := by
  cases progress with
  | kept votes executed =>
    exact ⟨fun _ => votes, fun voter record present => .inl ((votes voter).symm.trans present), fun done => executed.trans done⟩
  | executed asked once due passes votes executed =>
    exact ⟨fun _ => votes, fun voter record present => .inl ((votes voter).symm.trans present), fun _ => executed⟩
  | @voted voter option choice power asked parsed votes executed =>
    cases asked
    have early : document.now < old.votingEndsAt := fair document ballot.view old ballot.listed
    refine ⟨fun reached => absurd early (UInt64.not_lt.mpr reached), fun key record present => ?_, fun done => executed.trans done⟩
    rcases votes key record present with before | ⟨rfl, rfl⟩
    · exact .inl before
    · exact .inr ⟨[], [], voter, option, keeper, document, rfl, .stop keeper, ballot.view, early, rfl, parsed⟩

theorem run_course (run : Run Step Fair first calls last) (ballot : Ballot first proposalID document old) :
    ∃ read new, Ballot last proposalID read new ∧ SameTerms old new ∧ SameKeeper first last ∧ document.now ≤ read.now ∧
      Course first calls proposalID document.now old new := by
  induction run generalizing document old with
  | stop keeper =>
    exact ⟨document, old, ballot, ⟨rfl, rfl⟩, ⟨rfl, rfl⟩, UInt64.le_refl _, fun _ _ => rfl, fun _ _ => .inl, id⟩
  | step fair step rest ih =>
    obtain ⟨middle, between, reached, terms, same, clock, progress⟩ := step_progress ballot fair step
    have first := step_course ballot fair progress
    obtain ⟨read, new, arrived, laterTerms, laterSame, laterClock, course⟩ := ih reached
    refine ⟨read, new, arrived, ⟨laterTerms.ends.trans terms.ends, laterTerms.executable.trans terms.executable⟩,
      ⟨laterSame.policy.trans same.policy, laterSame.spelled.trans same.spelled⟩, UInt64.le_trans clock laterClock, ?_, ?_, ?_⟩
    · intro closed voter
      have still : between.votingEndsAt ≤ middle.now := terms.ends ▸ UInt64.le_trans closed clock
      rw [course.closed still, first.closed closed]
    · intro voter record present
      rcases course.cast voter record present with before | cast
      · rcases first.cast voter record before with before | ⟨earlier, later, name, option, keeper, seen, split, rest⟩
        · exact .inl before
        · cases earlier with
          | nil =>
            cases split
            exact .inr ⟨[], _, name, option, keeper, seen, rfl, rest⟩
          | cons head tail => exact absurd (congrArg List.length split) (by simp)
      · rw [terms.ends] at cast
        exact .inr (cast_later fair step same cast)
    · exact fun done => course.executed (first.executed done)

theorem execute_executed {copy made : Document} (done : copy.execute policy proposalID = .executed made) :
    ∃ state, copy.proposals.lookup proposalID = some state ∧ state.executed = false ∧ state.executableAt ≤ copy.now ∧
      passesTally policy (tally state) = true ∧
      made.proposals.lookup proposalID = some { state with executed := true, executedChanges := state.proposal.changes } := by
  rw [Document.execute] at done
  split at done
  · cases done
  · next state found =>
    split_ifs at done with executed rejected open_ locked passes
    cases done
    exact ⟨state, found, by simpa using executed, UInt64.not_lt.mp locked, passes, lookup_insert _⟩

theorem store_execute_executed {inner kept : StoreKeeper} (loaded : inner.load = .ok document) (done : inner.execute proposalID = .ok (true, kept)) :
    ∃ made, (inner.memory document).execute inner.policy proposalID = .executed made ∧ kept.state = .document made := by
  simp only [StoreKeeper.execute, bind_ok_iff] at done
  obtain ⟨_, read, done⟩ := done
  cases loaded.symm.trans read
  cases outcome : (inner.memory document).execute inner.policy proposalID with
  | failed reason | rejected made =>
    rw [outcome] at done
    cases done
  | executed made =>
    simp only [outcome, bind_ok_iff] at done
    obtain ⟨plans, -, done⟩ := done
    cases done
    exact ⟨made, rfl, rfl⟩

theorem executes_once (view : keeper.view = some document) (listed : document.proposals.lookup proposalID = some old)
    (executes : keeper.executes proposalID = true) :
    old.executed = false ∧ old.executableAt ≤ document.now ∧ passesTally keeper.policy (tally old) = true ∧
      ∃ read new, (keeper.after (.execute proposalID)).view = some read ∧ read.proposals.lookup proposalID = some new ∧ new.executed = true := by
  cases keeper with
  | memory policy own =>
    cases view
    cases outcome : document.execute policy proposalID with
    | failed reason | rejected made => simp [Keeper.executes, outcome] at executes
    | executed made =>
      obtain ⟨state, found, once, due, passes, stored⟩ := execute_executed outcome
      cases found.symm.trans listed
      refine ⟨once, due, passes, made, _, ?_, stored, rfl⟩
      simp only [Keeper.after, outcome, Keeper.view]
  | stored inner =>
    cases loaded : inner.load with
    | error reason =>
      rw [Keeper.view, loaded] at view
      cases view
    | ok own =>
      rw [Keeper.view, loaded] at view
      cases view
      cases done : inner.execute proposalID with
      | error reason => simp [Keeper.executes, done] at executes
      | ok made =>
        obtain ⟨flag, kept⟩ := made
        have flagged : flag = true := by simpa [Keeper.executes, done] using executes
        cases flagged
        obtain ⟨made, outcome, saved⟩ := store_execute_executed loaded done
        obtain ⟨state, found, once, due, passes, stored⟩ := execute_executed outcome
        cases found.symm.trans listed
        have view : ((Keeper.stored inner).after (.execute proposalID)).view = some made.reread := by
          rw [Keeper.after, done, Keeper.keptOn, Keeper.view, load_saved saved]
          rfl
        exact ⟨once, due, passes, made.reread, _, view, by rw [reread_proposal, stored, Option.map_some], rfl⟩

theorem submit_ballot {start submitted : Keeper} {proposal : Proposal} (view : start.view = some document)
    (submit : start.submitProposal proposal = .ok (proposalID, submitted)) :
    ∃ read state, Ballot submitted proposalID read state ∧ (∀ voter, state.votes.lookup voter = none) ∧ SameKeeper start submitted ∧
      state.votingEndsAt = document.now + start.policy.votingPeriod ∧
      state.executableAt = document.now + start.policy.votingPeriod + start.policy.timelock := by
  cases start with
  | memory policy own =>
    cases view
    cases done : document.submitProposal policy proposal with
    | error reason =>
      rw [Keeper.submitProposal, done] at submit
      cases submit
    | ok made =>
      rw [Keeper.submitProposal, done] at submit
      cases submit
      obtain ⟨-, -, -, state, listed, ends, executable, votes⟩ := submit_effect rfl rfl rfl done
      have none (voter : Address) : state.votes.lookup voter = none := by rw [votes, lookup_empty]
      refine ⟨_, state, ⟨rfl, listed, fun voter record present => ?_⟩, none, ⟨rfl, rfl⟩, ends, executable⟩
      cases (none voter).symm.trans present
  | stored inner =>
    cases done : inner.submitProposal proposal with
    | error reason =>
      rw [Keeper.submitProposal, done] at submit
      cases submit
    | ok made =>
      rw [Keeper.submitProposal, done] at submit
      cases submit
      simp only [StoreKeeper.submitProposal, bind_ok_iff] at done
      obtain ⟨own, loaded, ⟨id, copy⟩, made, done⟩ := done
      cases done
      rw [Keeper.view, loaded] at view
      cases view
      obtain ⟨-, -, -, state, listed, ends, executable, votes⟩ :=
        submit_effect (show (inner.memory document).proposals = document.proposals from rfl) rfl rfl made
      have none (voter : Address) : state.written.votes.lookup voter = none := by
        cases present : state.written.votes.lookup voter with
        | none => rfl
        | some record =>
          obtain ⟨name, original, found, -⟩ := written_map_source present
          rw [votes, lookup_empty] at found
          cases found
      refine ⟨copy.reread, state.written, ⟨?_, ?_, fun voter record present => ?_⟩, none, ⟨rfl, rfl⟩, ends, executable⟩
      · rfl
      · rw [reread_proposal, listed, Option.map_some]
      · cases (none voter).symm.trans present

-- The promise of the voting period for one proposal, from a keeper in the middle of its run on.
structure PeriodKept (policy : TallyPolicy) (submittedAt : UInt64) (submitted before : Keeper) (calls : List Call) (proposalID : UInt64)
    (seen : Document) (old new : ProposalState) : Prop where
  ends : old.votingEndsAt.toNat = submittedAt.toNat + policy.votingPeriod.toNat
  executable : old.executableAt.toNat = submittedAt.toNat + policy.votingPeriod.toNat + policy.timelock.toNat
  closed : old.votingEndsAt ≤ seen.now → tally new = tally old
  cast : ∀ voter record, new.votes.lookup voter = some record → record.voter = voter ∧ CastEarly submitted calls proposalID old.votingEndsAt record
  once : before.executes proposalID = true → Fair before (.execute proposalID) →
    old.executed = false ∧ old.executableAt ≤ seen.now ∧ PassesExactly policy old ∧
      ∀ rest last, Run Step Fair (before.after (.execute proposalID)) rest last → last.executes proposalID = false

theorem never_executes_again {rest : List Call} (ballot : Ballot first proposalID document old) (done : old.executed = true)
    (run : Run Step Fair first rest last) : last.executes proposalID = false := by
  obtain ⟨read, new, arrived, -, -, -, course⟩ := run_course run ballot
  cases executes : last.executes proposalID with
  | false => rfl
  | true =>
    obtain ⟨once, -⟩ := executes_once arrived.view arrived.listed executes
    cases once.symm.trans (course.executed done)

theorem votes_close_with_period {start submitted before after : Keeper} {proposal : Proposal} {more : List Call}
    (view : start.view = some document) (fair : Fair start (.submitProposal proposal))
    (submit : start.submitProposal proposal = .ok (proposalID, submitted)) (earlier : Run Step Fair submitted calls before)
    (later : Run Step Fair before more after) :
    ∃ seen read old new, Ballot before proposalID seen old ∧ Ballot after proposalID read new ∧
      PeriodKept start.policy document.now submitted before (calls ++ more) proposalID seen old new := by
  obtain ⟨-, fits⟩ := fair document view
  obtain ⟨_, fresh, submittedBallot, none, same, ends, executable⟩ := submit_ballot view submit
  obtain ⟨seen, old, ballot, terms, sameBefore, -, -⟩ := run_course earlier submittedBallot
  obtain ⟨read, new, arrived, -, -, -, course⟩ := run_course later ballot
  obtain ⟨_, _, final, -, -, -, whole⟩ := run_course (earlier.append later) submittedBallot
  cases arrived.view.symm.trans final.view
  cases arrived.listed.symm.trans final.listed
  refine ⟨seen, read, old, new, ballot, arrived, ?_, ?_, ?_, ?_, ?_⟩
  · rw [terms.ends, ends, UInt64.toNat_add, Nat.mod_eq_of_lt (by omega)]
  · rw [terms.executable, executable, UInt64.toNat_add, UInt64.toNat_add, Nat.mod_eq_of_lt (a := _ + _) (by omega), Nat.mod_eq_of_lt (by omega)]
  · exact fun closed => tally_congr (course.closed closed)
  · intro voter record present
    rcases whole.cast voter record present with before | cast
    · cases (none voter).symm.trans before
    · exact ⟨arrived.named voter record present, terms.ends ▸ cast⟩
  · intro executes counted
    obtain ⟨once, due, passes, made, executed, viewed, listed, done⟩ := executes_once ballot.view ballot.listed executes
    rw [sameBefore.policy, same.policy] at passes
    refine ⟨once, due, passes_exactly (counted seen ballot.view old ballot.listed) passes, fun rest last run => ?_⟩
    obtain ⟨_, _, next, -⟩ := step_progress ballot counted rfl
    cases next.view.symm.trans viewed
    cases next.listed.symm.trans listed
    exact never_executes_again next done run

def shortPolicy : TallyPolicy := ⟨1, 1, 0, 10, 5, false, [], [], [], []⟩

def quietKeeper : Keeper := .memory shortPolicy ⟨1, 0, ∅, (∅ : Table Address VotingPower).insert (utf8 "alice") 7, []⟩

def smallProposal : Proposal := ⟨0, utf8 "title", [], [], [⟨utf8 "m", utf8 "k", [1]⟩], utf8 "alice"⟩

def submittedKeeper : Keeper := quietKeeper.after (.submitProposal smallProposal)

def yesPower (keeper : Keeper) : Option VotingPower :=
  keeper.view.bind fun document => (document.proposals.lookup 1).map fun state => (tally state).yes

theorem quiet_submits : quietKeeper.submitProposal smallProposal = .ok (1, submittedKeeper) := by
  have succeeds : ((quietKeeper.submitProposal smallProposal).toOption.any fun made => made.1 = 1) = true := by with_unfolding_all decide
  obtain ⟨⟨id, made⟩, done, same⟩ := exists_ok_of_any succeeds
  cases of_decide_eq_true same
  have after : submittedKeeper = quietKeeper.keptOn Prod.snd (quietKeeper.submitProposal smallProposal) := rfl
  rw [after, done]
  rfl

-- A vote cast at time 20 on a proposal whose voting ended at time 10 is counted.
theorem late_vote_counts : quietKeeper.submitProposal smallProposal = .ok (1, submittedKeeper) ∧
      ((submittedKeeper.after (.setTime 20)).view.any fun document =>
        (document.proposals.lookup 1).any fun state => state.votingEndsAt ≤ document.now) = true ∧
      yesPower (submittedKeeper.after (.setTime 20)) = some 0 ∧
      yesPower ((submittedKeeper.after (.setTime 20)).after (.vote 1 (utf8 "alice") (utf8 "yes"))) = some 7 := by
  refine ⟨quiet_submits, ?_, ?_, ?_⟩ <;> with_unfolding_all decide

def votedKeeper : Keeper := submittedKeeper.after (.vote 1 (utf8 "alice") (utf8 "yes"))

theorem voted_evaluated :
    (submittedKeeper.view.all fun document => (document.proposals.lookup 1).all fun state => document.now < state.votingEndsAt) = true ∧
      (votedKeeper.view.all fun document => document.now ≤ 20) = true ∧
      ((votedKeeper.after (.setTime 20)).view.all fun document =>
        (document.proposals.lookup 1).all fun state => state.power (fun _ => true) < 2 ^ 64) = true ∧
      (votedKeeper.after (.setTime 20)).executes 1 = true := by
  with_unfolding_all decide

theorem voted_run : Run Step Fair submittedKeeper [.vote 1 (utf8 "alice") (utf8 "yes"), .setTime 20] (votedKeeper.after (.setTime 20)) := by
  obtain ⟨early, onward, -, -⟩ := voted_evaluated
  refine .step ?_ rfl (.step ?_ rfl (.stop _))
  · intro document view state listed
    rw [view, Option.all_some, listed, Option.all_some] at early
    exact of_decide_eq_true early
  · intro document view
    rw [show votedKeeper.view = some document from view, Option.all_some] at onward
    exact of_decide_eq_true (p := document.now ≤ 20) onward

theorem period_kept_after_vote :
    (votedKeeper.after (.setTime 20)).executes 1 = true ∧ ∃ seen read old new, Ballot (votedKeeper.after (.setTime 20)) 1 seen old ∧
      Ballot ((votedKeeper.after (.setTime 20)).after (.execute 1)) 1 read new ∧
      PeriodKept shortPolicy 0 submittedKeeper (votedKeeper.after (.setTime 20))
        ([.vote 1 (utf8 "alice") (utf8 "yes"), .setTime 20] ++ [.execute 1]) 1 seen old new := by
  obtain ⟨-, -, counted, executes⟩ := voted_evaluated
  have submitFair : Fair quietKeeper (.submitProposal smallProposal) := by
    intro document view
    cases view
    exact ⟨rfl, by decide⟩
  have executeFair : Fair (votedKeeper.after (.setTime 20)) (.execute 1) := by
    intro document view state listed
    rw [view, Option.all_some, listed, Option.all_some] at counted
    exact of_decide_eq_true counted
  have view : quietKeeper.view = some ⟨1, 0, ∅, (∅ : Table Address VotingPower).insert (utf8 "alice") 7, []⟩ := rfl
  exact ⟨executes, votes_close_with_period view submitFair quiet_submits voted_run (.step executeFair rfl (.stop _))⟩

end Runs

end Vexo.Governance
