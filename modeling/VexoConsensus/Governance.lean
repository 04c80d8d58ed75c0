import VexoConsensus.App.Store
import VexoConsensus.Lib.JsonText

namespace Vexo.Governance

open ByteCodec Checks App OrderedMap

section

structure ParameterChange where
  (module key : GoString)
  value : Bytes
deriving DecidableEq

structure Proposal where
  id : UInt64
  (title description deposit : GoString)
  changes : List ParameterChange
  submitter : Address
deriving DecidableEq

inductive VoteOption where
  | yes | no | abstain | veto
deriving DecidableEq

structure TallyPolicy where
  (quorumPower yesThresholdPower vetoPower : VotingPower)
  (votingPeriod timelock : UInt64)
  requireDeposit : Bool
  (minDeposit depositDenom : GoString)
  (depositEscrow rejectedDeposits : Address)

structure VoteRecord where
  voter : Address
  option : VoteOption
  power : VotingPower
deriving DecidableEq

structure ProposalState where
  proposal : Proposal
  (submittedAt votingEndsAt executableAt : UInt64)
  (executed rejected : Bool)
  votes : Table Address VoteRecord
  executedChanges : List ParameterChange

structure Document where
  (nextID now : UInt64)
  proposals : Table UInt64 ProposalState
  powers : Table Address VotingPower
  applied : List ParameterChange

-- json.Marshal puts the replacement character in place of bytes that are not UTF-8, in keys as well; a map is written in the order of
-- its keys and the last of two equal keys is the one that is read back.
def writtenMap {Value : Type} (write : Value → Value) (table : Table GoString Value) : Table GoString Value :=
  let entries := table.entries.mergeSort fun left right => left.1 ≤ right.1
  entries.foldl (fun written entry => written.insert (Utf8.toValid entry.1) (write entry.2)) ∅

variable (change : ParameterChange)

def ParameterChange.written : ParameterChange :=
  { change with module := Utf8.toValid change.module, key := Utf8.toValid change.key }

def Proposal.written (proposal : Proposal) : Proposal where
  id := proposal.id
  title := Utf8.toValid proposal.title
  description := Utf8.toValid proposal.description
  deposit := Utf8.toValid proposal.deposit
  changes := proposal.changes.map ParameterChange.written
  submitter := Utf8.toValid proposal.submitter

def VoteRecord.written (record : VoteRecord) : VoteRecord := { record with voter := Utf8.toValid record.voter }

def ProposalState.written (state : ProposalState) : ProposalState :=
  { state with
    proposal := state.proposal.written
    votes := writtenMap VoteRecord.written state.votes
    executedChanges := state.executedChanges.map ParameterChange.written }

def Document.written (document : Document) : Document where
  nextID := document.nextID
  now := document.now
  proposals := document.proposals.keys.foldl (fun written id =>
    match document.proposals.lookup id with
    | some state => written.insert id state.written
    | none => written) ∅
  powers := writtenMap id document.powers
  applied := document.applied.map ParameterChange.written

section Memory

def VoteOption.parse (option : GoString) : Option VoteOption :=
  if option = utf8 "yes" then some .yes
  else if option = utf8 "no" then some .no
  else if option = utf8 "abstain" then some .abstain
  else if option = utf8 "veto" then some .veto
  else none

variable (policy : TallyPolicy)

-- SubmitProposal of the keeper in memory.
def Document.submitProposal (document : Document) (proposal : Proposal) : Except AppErr (UInt64 × Document) := do
  require (proposal.title ≠ []) .missingProposalTitle
  require (proposal.submitter ≠ []) .missingSubmitter
  require (proposal.changes ≠ []) .noProposalChanges
  let id := document.nextID
  let state : ProposalState := {
    proposal := { proposal with id }
    submittedAt := document.now
    votingEndsAt := document.now + policy.votingPeriod
    executableAt := document.now + policy.votingPeriod + policy.timelock
    executed := false
    rejected := false
    votes := ∅
    executedChanges := [] }
  return (id, { document with nextID := id + 1, proposals := document.proposals.insert id state })

structure TallyResult where
  (yes no abstain veto total : VotingPower)

def TallyResult.add (result : TallyResult) (vote : VoteRecord) : TallyResult :=
  let result := { result with total := result.total + vote.power }
  match vote.option with
  | .yes => { result with yes := result.yes + vote.power }
  | .no => { result with no := result.no + vote.power }
  | .veto => { result with veto := result.veto + vote.power }
  | .abstain => { result with abstain := result.abstain + vote.power }

def tally (state : ProposalState) : TallyResult := state.votes.entries.foldl (fun result entry => result.add entry.2) ⟨0, 0, 0, 0, 0⟩

def passesTally (result : TallyResult) : Bool :=
  if policy.quorumPower > 0 ∧ result.total < policy.quorumPower then false
  else if policy.vetoPower > 0 ∧ result.veto ≥ policy.vetoPower then false
  else if policy.yesThresholdPower > 0 then result.yes ≥ policy.yesThresholdPower
  else result.yes > result.no

-- What Execute does with a proposal: a rejection is remembered.
inductive Execution where
  | failed (reason : AppErr)
  | rejected (document : Document)
  | executed (document : Document)

def Document.execute (document : Document) (proposalID : UInt64) : Execution :=
  match document.proposals.lookup proposalID with
  | none => .failed .proposalNotFound
  | some state =>
    if state.executed then .failed .proposalExecuted
    else if state.rejected then .rejected document
    else if document.now < state.votingEndsAt then .failed .votingPeriodOpen
    else if document.now < state.executableAt then .failed .timelockActive
    else if passesTally policy (tally state) then
      let state := { state with executed := true, executedChanges := state.proposal.changes }
      .executed { document with
        proposals := document.proposals.insert proposalID state
        applied := document.applied ++ state.proposal.changes }
    else .rejected { document with proposals := document.proposals.insert proposalID { state with rejected := true } }

end Memory

structure Plan where
  name : GoString
  height : Height
  binaryVersion : GoString
  (configSchemaFrom configSchemaTo storeSchemaFrom storeSchemaTo appStateSchemaFrom appStateSchemaTo : UInt64)
  (governanceProposal rollbackBinary : GoString)
  allowNoopMigrations : Bool
deriving DecidableEq

def planDecoder : Json.Decoder Plan :=
  Json.intoStruct
    [(utf8 "name", fun plan value => (Json.intoText plan.name value).map fun name => { plan with name }),
      (utf8 "height", fun plan value => (Json.intoUint64 plan.height value).map fun height => { plan with height }),
      (utf8 "binary_version", fun plan value => (Json.intoText plan.binaryVersion value).map fun binaryVersion => { plan with binaryVersion }),
      (utf8 "config_schema_from",
        fun plan value => (Json.intoUint64 plan.configSchemaFrom value).map fun configSchemaFrom => { plan with configSchemaFrom }),
      (utf8 "config_schema_to", fun plan value => (Json.intoUint64 plan.configSchemaTo value).map fun configSchemaTo => { plan with configSchemaTo }),
      (utf8 "store_schema_from",
        fun plan value => (Json.intoUint64 plan.storeSchemaFrom value).map fun storeSchemaFrom => { plan with storeSchemaFrom }),
      (utf8 "store_schema_to", fun plan value => (Json.intoUint64 plan.storeSchemaTo value).map fun storeSchemaTo => { plan with storeSchemaTo }),
      (utf8 "app_state_schema_from",
        fun plan value => (Json.intoUint64 plan.appStateSchemaFrom value).map fun appStateSchemaFrom => { plan with appStateSchemaFrom }),
      (utf8 "app_state_schema_to",
        fun plan value => (Json.intoUint64 plan.appStateSchemaTo value).map fun appStateSchemaTo => { plan with appStateSchemaTo }),
      (utf8 "governance_proposal",
        fun plan value => (Json.intoText plan.governanceProposal value).map fun governanceProposal => { plan with governanceProposal }),
      (utf8 "rollback_binary", fun plan value => (Json.intoText plan.rollbackBinary value).map fun rollbackBinary => { plan with rollbackBinary }),
      (utf8 "allow_noop_migrations",
        fun plan value => (Json.intoBool plan.allowNoopMigrations value).map fun allowNoopMigrations => { plan with allowNoopMigrations })]

def validatePlan (plan : Plan) : Except AppErr Unit := do
  require (plan.name ≠ []) .missingUpgradeName
  require (plan.height ≠ 0) .missingUpgradeHeight

def unmarshalled {Value : Type} (value : Option Value) : Except AppErr Value :=
  match value with
  | some value => .ok value
  | none => .error .jsonError

def planOfChange : Except AppErr (Option Plan) :=
  if change.module ≠ utf8 "upgrade" ∨ change.key ≠ utf8 "plan" then .ok none
  else do
    let plan ← unmarshalled (Json.unmarshal ⟨[], 0, [], 0, 0, 0, 0, 0, 0, [], [], false⟩ planDecoder change.value)
    validatePlan plan
    return some plan

def upgradePlansFromChanges (changes : List ParameterChange) : Except AppErr (List Plan) := do
  let plans ← changes.mapM planOfChange
  return plans.reduceOption

-- What the bound store holds under the key of the document: the document that was encoded, not yet as it is read back.
inductive StoredDocument where
  | missing
  | unreadable
  | document (document : Document)

-- The keeper reads and writes the store it was bound to; the powers are a copy of its own, and the plans are those it has saved.
structure StoreKeeper where
  policy : TallyPolicy
  powers : Table Address VotingPower
  state : StoredDocument
  plans : List Plan

namespace StoreKeeper

variable (keeper : StoreKeeper)

def load : Except AppErr Document :=
  match keeper.state with
  | .missing => .error .keyNotFound
  | .unreadable => .error .jsonError
  | .document saved =>
    let document := saved.written
    .ok { document with nextID := if document.nextID = 0 then 1 else document.nextID }

variable (document : Document)

def save : StoreKeeper := { keeper with state := .document document }

-- documentFromMemory of memory: the powers of the document with those of the keeper over them.
def memory : Document :=
  { document with powers := keeper.powers.entries.foldl (fun powers entry => powers.insert entry.1 entry.2) document.powers }

def setTime (now : UInt64) : Except AppErr StoreKeeper := do
  let document ← keeper.load
  return keeper.save { document with now }

def setVotingPower (voter : Address) (power : VotingPower) : Except AppErr StoreKeeper :=
  if voter = [] then .ok keeper
  else do
    let document ← keeper.load
    let keeper := { keeper with powers := keeper.powers.insert voter power }
    return keeper.save { document with powers := document.powers.insert voter power }

def submitProposal (proposal : Proposal) : Except AppErr (UInt64 × StoreKeeper) := do
  let document ← keeper.load
  let (id, document) ← (keeper.memory document).submitProposal keeper.policy proposal
  return (id, keeper.save document)

variable (proposalID : UInt64)

def recordVote (voter : Address) (option : GoString) : Except AppErr Document :=
  match document.proposals.lookup proposalID with
  | none => .error .proposalNotFound
  | some state => do
      require (voter ≠ []) .missingVoter
      match VoteOption.parse option with
      | none => .error .invalidVoteOption
      | some option => do
          require (state.votes.lookup voter = none) .duplicateVote
          let listed := (document.powers.lookup voter).getD 0
          let power := if listed = 0 then (keeper.powers.lookup voter).getD 0 else listed
          let state := { state with votes := state.votes.insert voter ⟨voter, option, power⟩ }
          return { document with proposals := document.proposals.insert proposalID state }

def vote (voter : Address) (option : GoString) : Except AppErr StoreKeeper := do
  let document ← keeper.load
  let document ← keeper.recordVote document proposalID voter option
  return keeper.save document

def proposal : Except AppErr (Option ProposalState) := do
  let document ← keeper.load
  return document.proposals.lookup proposalID

-- The bound store takes the plans in the write that saves the document; a rejection is an error that is saved.
def execute : Except AppErr (Bool × StoreKeeper) := do
  let document ← keeper.load
  match (keeper.memory document).execute keeper.policy proposalID with
  | .failed reason => .error reason
  | .rejected rejected => return (false, keeper.save rejected)
  | .executed updated => do
      let plans ← upgradePlansFromChanges (updated.applied.drop document.applied.length)
      return (true, { keeper.save updated with plans := keeper.plans ++ plans })

end StoreKeeper

variable (counts : VoteOption → Bool)

def exactPower (votes : List (Σ _ : Address, VoteRecord)) : Nat :=
  ((votes.filter fun entry => counts entry.2.option).map fun entry => entry.2.power.toNat).sum

variable (state : ProposalState)

def ProposalState.power (counts : VoteOption → Bool) : Nat := exactPower counts state.votes.entries

-- passesTally on the sums as they are, without a bound.
def PassesExactly (policy : TallyPolicy) (state : ProposalState) : Prop :=
  (0 < policy.quorumPower → policy.quorumPower.toNat ≤ state.power fun _ => true) ∧
  (0 < policy.vetoPower → state.power (fun option => option = .veto) < policy.vetoPower.toNat) ∧
  (if 0 < policy.yesThresholdPower then policy.yesThresholdPower.toNat ≤ state.power fun option => option = .yes
    else (state.power fun option => option = .no) < state.power fun option => option = .yes)

variable (entries : List (Σ _ : Address, VoteRecord))

abbrev counted (result : TallyResult) : TallyResult :=
  entries.foldl (fun result entry => result.add entry.2) result

theorem exact_power_cons (entry : Σ _ : Address, VoteRecord) (later : List (Σ _ : Address, VoteRecord)) :
    exactPower counts (entry :: later) = (if counts entry.2.option then entry.2.power.toNat else 0) + exactPower counts later := by
  rw [exactPower, List.filter_cons]
  by_cases included : counts entry.2.option
  · rw [if_pos included, List.map_cons, List.sum_cons, if_pos included, exactPower]
  · rw [if_neg included, if_neg included, Nat.zero_add, exactPower]

theorem exact_power_le : exactPower counts entries ≤ exactPower (fun _ => true) entries := by
  induction entries with
  | nil => exact Nat.le_refl _
  | cons entry later ih =>
    rw [exact_power_cons, exact_power_cons, if_pos rfl]
    split <;> omega

-- One of the sums of a tally: it takes the votes of some options and no others.
structure Sums (part : TallyResult → VotingPower) (counts : VoteOption → Bool) : Prop where
  start : part ⟨0, 0, 0, 0, 0⟩ = 0
  add : ∀ result vote, part (result.add vote) = part result + if counts vote.option then vote.power else 0

theorem sums_total : Sums TallyResult.total fun _ => true :=
  ⟨rfl, fun result vote => by rw [TallyResult.add]; cases vote.option <;> rfl⟩

theorem sums_yes : Sums TallyResult.yes fun option => option = .yes :=
  ⟨rfl, fun result vote => by rw [TallyResult.add]; cases vote.option <;> simp⟩

theorem sums_no : Sums TallyResult.no fun option => option = .no :=
  ⟨rfl, fun result vote => by rw [TallyResult.add]; cases vote.option <;> simp⟩

theorem sums_abstain : Sums TallyResult.abstain fun option => option = .abstain :=
  ⟨rfl, fun result vote => by rw [TallyResult.add]; cases vote.option <;> simp⟩

theorem sums_veto : Sums TallyResult.veto fun option => option = .veto :=
  ⟨rfl, fun result vote => by rw [TallyResult.add]; cases vote.option <;> simp⟩

variable {part : TallyResult → VotingPower} {counts : VoteOption → Bool}

theorem Sums.counted (sums : Sums part counts) (entries : List (Σ _ : Address, VoteRecord)) (result : TallyResult) :
    part (counted entries result) = part result + UInt64.ofNat (exactPower counts entries) := by
  induction entries generalizing result with
  | nil => exact (UInt64.add_zero _).symm
  | cons entry later ih =>
    rw [Governance.counted, List.foldl_cons, ih, sums.add, exact_power_cons, UInt64.ofNat_add, UInt64.add_assoc]
    split
    · rw [UInt64.ofNat_toNat]
    · rfl

theorem Sums.exact (sums : Sums part counts) (state : ProposalState)
    (fits : state.power (fun _ => true) < 2 ^ 64) : (part (tally state)).toNat = state.power counts := by
  have below : state.power counts < 2 ^ 64 := Nat.lt_of_le_of_lt (exact_power_le counts state.votes.entries) fits
  rw [tally, sums.counted, sums.start, UInt64.zero_add]
  exact UInt64.toNat_ofNat_of_lt' below

theorem passes_exactly {policy : TallyPolicy} {state : ProposalState} (fits : state.power (fun _ => true) < 2 ^ 64)
    (passes : passesTally policy (tally state) = true) : PassesExactly policy state := by
  have total := sums_total.exact state fits
  have yes := sums_yes.exact state fits
  have no := sums_no.exact state fits
  have veto := sums_veto.exact state fits
  rw [passesTally] at passes
  split_ifs at passes with quorum vetoed threshold
  all_goals
    simp only [decide_eq_true_eq, not_and, gt_iff_lt, ge_iff_le, UInt64.lt_iff_toNat_lt, UInt64.le_iff_toNat_le]
      at passes quorum vetoed threshold
    refine ⟨fun positive => ?_, fun positive => ?_, ?_⟩
    · rw [← total]
      exact Nat.not_lt.mp (quorum (UInt64.lt_iff_toNat_lt.mp positive))
    · rw [← veto]
      exact Nat.not_le.mp (vetoed (UInt64.lt_iff_toNat_lt.mp positive))
  · rw [if_pos (UInt64.lt_iff_toNat_lt.mpr threshold), ← yes]
    exact passes
  · rw [if_neg (mt UInt64.lt_iff_toNat_lt.mp threshold), ← yes, ← no]
    exact passes

theorem tally_sums : tally state = ⟨.ofNat (state.power fun option => option = .yes), .ofNat (state.power fun option => option = .no),
      .ofNat (state.power fun option => option = .abstain), .ofNat (state.power fun option => option = .veto),
      .ofNat (state.power fun _ => true)⟩ := by
  have part {field : TallyResult → VotingPower} {counts : VoteOption → Bool} (sums : Sums field counts) :
      field (tally state) = UInt64.ofNat (state.power counts) := by
    rw [tally, sums.counted, sums.start, UInt64.zero_add]
    rfl
  rw [← part sums_yes, ← part sums_no, ← part sums_abstain, ← part sums_veto, ← part sums_total]

theorem tally_congr {left right : ProposalState} (same : ∀ voter, left.votes.lookup voter = right.votes.lookup voter) : tally left = tally right := by
  have permuted : left.votes.entries.Perm right.votes.entries :=
    List.lookup_ext left.votes.nodupKeys right.votes.nodupKeys fun voter record => by
      rw [show List.dlookup voter left.votes.entries = _ from same voter]
      rfl
  have equal (counts : VoteOption → Bool) : left.power counts = right.power counts := ((permuted.filter _).map _).sum_eq
  rw [tally_sums, tally_sums]
  simp only [equal]

end

open AList StoreKeeper

def votesOf (document : Document) (proposalID : UInt64) (voter : Address) : Option VoteRecord :=
  (document.proposals.lookup proposalID).bind fun state => state.votes.lookup voter

section Written

variable {Value : Type} {write : Value → Value}

def Settled (write : Value → Value) (table : Table GoString Value) : Prop :=
  ∀ key value, table.lookup key = some value → Utf8.toValid key = key ∧ write value = value

variable {table : Table GoString Value}

theorem settled_insert (settled : Settled write table) {key : GoString} {value : Value}
    (fixedKey : Utf8.toValid key = key) (fixed : write value = value) : Settled write (table.insert key value) := by
  intro other found present
  rcases lookup_insert_cases present with ⟨rfl, rfl⟩ | ⟨-, present⟩
  · exact ⟨fixedKey, fixed⟩
  · exact settled other found present

theorem written_map_settled (idempotent : ∀ value, write (write value) = write value) (table : Table GoString Value) :
    Settled write (writtenMap write table) := by
  have rebuilt : ∀ (entries : List (Σ _ : GoString, Value)) (base : Table GoString Value), Settled write base →
      Settled write (entries.foldl (fun written entry => written.insert (Utf8.toValid entry.1) (write entry.2)) base) := by
    intro entries
    induction entries with
    | nil => exact fun base settled => settled
    | cons entry later ih =>
      exact fun base settled => ih _ (settled_insert settled (Utf8.to_valid_twice entry.1) (idempotent entry.2))
  refine rebuilt _ ∅ fun key value present => ?_
  rw [lookup_empty] at present
  contradiction

theorem settled_lookup (settled : Settled write table) (key : GoString) : (writtenMap write table).lookup key = table.lookup key := by
  have permuted := List.mergeSort_perm table.entries fun left right => decide (left.1 ≤ right.1)
  have distinct := (List.perm_nodupKeys permuted).mpr table.nodupKeys
  have fixed : ∀ entry ∈ table.entries.mergeSort fun left right => decide (left.1 ≤ right.1), Utf8.toValid entry.1 = entry.1 := by
    intro entry listed
    exact (settled entry.1 entry.2 (List.mem_dlookup table.nodupKeys (permuted.mem_iff.mp listed))).1
  have same : (table.lookup key).map write = table.lookup key := by
    cases present : table.lookup key with
    | none => rfl
    | some value => rw [Option.map_some, (settled key value present).2]
  rw [writtenMap, lookup_rebuilt distinct fixed, List.perm_dlookup key distinct permuted, lookup_empty, Option.or_none]
  exact same

end Written

section Documents

variable {document : Document}

theorem written_proposal (document : Document) (proposalID : UInt64) :
    document.written.proposals.lookup proposalID = (document.proposals.lookup proposalID).map ProposalState.written := by
  let rewritten (id : UInt64) := (document.proposals.lookup id).map ProposalState.written
  have fold : document.written.proposals = document.proposals.keys.foldl (fun table id =>
      (rewritten id).elim table fun state => table.insert id state) ∅ := by
    refine congrArg (fun step => document.proposals.keys.foldl step ∅) (funext fun table => funext fun id => ?_)
    cases found : document.proposals.lookup id <;> simp only [rewritten, found, Option.map_none, Option.map_some, Option.elim_none, Option.elim_some]
  rw [fold, lookup_rebuilt_keys, lookup_empty]
  by_cases listed : proposalID ∈ document.proposals.keys
  · rw [if_pos listed, Option.or_none]
  · have missing : document.proposals.lookup proposalID = none := lookup_eq_none.mpr (mt AList.mem_keys.mp listed)
    rw [if_neg listed, missing]
    rfl

def VotesSettled (document : Document) : Prop :=
  ∀ proposalID state, document.proposals.lookup proposalID = some state → Settled VoteRecord.written state.votes

theorem written_votes_settled (document : Document) : VotesSettled document.written := by
  intro proposalID state present
  rw [written_proposal] at present
  obtain ⟨before, -, rfl⟩ := Option.map_eq_some_iff.mp present
  exact written_map_settled (fun record => by simp only [VoteRecord.written, Utf8.to_valid_twice]) _

theorem settled_votes (settled : VotesSettled document) (proposalID : UInt64) (voter : Address) :
    votesOf document.written proposalID voter = votesOf document proposalID voter := by
  rw [votesOf, votesOf, written_proposal]
  cases present : document.proposals.lookup proposalID with
  | none => rfl
  | some state => exact settled_lookup (settled proposalID state present) voter

end Documents

section Keepers

variable {keeper next : StoreKeeper}

-- The document that was encoded last, against the one that was read before: no vote of anyone else was added.
def RecordsNoOther (keeper next : StoreKeeper) (owner : Address) : Prop :=
  ∀ before after, keeper.load = .ok before → next.state = .document after →
    ∀ proposalID voter record, voter ≠ owner → votesOf after proposalID voter = some record → votesOf before proposalID voter = some record

theorem load_settled {document : Document} (loaded : keeper.load = .ok document) : VotesSettled document := by
  unfold load at loaded
  split at loaded
  · contradiction
  · contradiction
  · rename_i saved _
    cases loaded
    exact written_votes_settled saved

theorem saved_votes {document : Document} (settled : VotesSettled document) :
    ∃ after, (keeper.save document).load = .ok after ∧ ∀ proposalID voter, votesOf after proposalID voter = votesOf document proposalID voter :=
  ⟨_, rfl, settled_votes settled⟩

theorem set_time_votes {now : UInt64} (done : keeper.setTime now = .ok next) : ∃ before after, keeper.load = .ok before ∧ next.load = .ok after ∧
      ∀ proposalID voter, votesOf after proposalID voter = votesOf before proposalID voter := by
  simp only [setTime, bind_ok_iff] at done
  obtain ⟨before, loaded, done⟩ := done
  cases done
  have settled := load_settled loaded
  obtain ⟨after, read, same⟩ := @saved_votes keeper { before with now } settled
  exact ⟨before, after, loaded, read, same⟩

theorem set_voting_power_votes {voter : Address} {power : VotingPower} (named : voter ≠ []) (done : keeper.setVotingPower voter power = .ok next) :
    ∃ before after, keeper.load = .ok before ∧ next.load = .ok after ∧
      ∀ proposalID voter, votesOf after proposalID voter = votesOf before proposalID voter := by
  simp only [setVotingPower, if_neg named, bind_ok_iff] at done
  obtain ⟨before, loaded, done⟩ := done
  cases done
  have settled := load_settled loaded
  obtain ⟨after, read, same⟩ := @saved_votes { keeper with powers := keeper.powers.insert voter power }
    { before with powers := before.powers.insert voter power } settled
  exact ⟨before, after, loaded, read, same⟩

theorem votes_of_insert {before after : Document} {proposalID : UInt64} {state : ProposalState}
    (inserted : after.proposals = before.proposals.insert proposalID state) (other : UInt64) (voter : Address) :
    votesOf after other voter = if other = proposalID then state.votes.lookup voter else votesOf before other voter := by
  rw [votesOf, inserted]
  split
  · next same =>
    rw [same, lookup_insert, Option.bind_some]
  · next same =>
    rw [lookup_insert_ne same, votesOf]

theorem vote_recorded {proposalID : UInt64} {voter : Address} {option : GoString} (done : keeper.vote proposalID voter option = .ok next) :
    ∃ before after, keeper.load = .ok before ∧ next.state = .document after ∧ votesOf before proposalID voter = none ∧
      (votesOf after proposalID voter).isSome ∧
      ∀ other voter', voter' ≠ voter → votesOf after other voter' = votesOf before other voter' := by
  simp only [StoreKeeper.vote, bind_ok_iff] at done
  obtain ⟨before, loaded, after, recorded, done⟩ := done
  cases done
  refine ⟨before, after, loaded, rfl, ?_⟩
  unfold recordVote at recorded
  split at recorded
  · contradiction
  · next state found =>
    simp only [ok_iff] at recorded
    obtain ⟨-, recorded⟩ := recorded
    split at recorded
    · contradiction
    · simp only [ok_iff] at recorded
      obtain ⟨first, recorded⟩ := recorded
      cases recorded
      refine ⟨by rw [votesOf, found, Option.bind_some, first], ?_, fun other voter' different => ?_⟩
      · rw [votes_of_insert rfl, if_pos rfl, lookup_insert]
        rfl
      · rw [votes_of_insert rfl]
        by_cases same : other = proposalID
        · rw [if_pos same, lookup_insert_ne different, same, votesOf, found, Option.bind_some]
        · rw [if_neg same]

theorem submit_records_no_vote {proposal : Proposal} {id : UInt64} (done : keeper.submitProposal proposal = .ok (id, next)) :
    ∃ before after, keeper.load = .ok before ∧ next.state = .document after ∧
      ∀ proposalID voter record, votesOf after proposalID voter = some record → votesOf before proposalID voter = some record := by
  simp only [submitProposal, Document.submitProposal, ok_iff] at done
  obtain ⟨before, loaded, ⟨id, after⟩, ⟨-, -, -, submitted⟩, done⟩ := done
  cases submitted
  cases done
  refine ⟨before, _, loaded, rfl, fun proposalID voter record present => ?_⟩
  rw [@votes_of_insert before _ _ _ rfl] at present
  split at present
  · rw [lookup_empty] at present
    contradiction
  · exact present

end Keepers

-- Vote of the keeper in memory.
def Document.vote (document : Document) (proposalID : UInt64) (voter : Address) (option : GoString) : Except AppErr Document :=
  match document.proposals.lookup proposalID with
  | none => .error .proposalNotFound
  | some state => do
      require (voter ≠ []) .missingVoter
      match VoteOption.parse option with
      | none => .error .invalidVoteOption
      | some option => do
          require (state.votes.lookup voter = none) .duplicateVote
          let state := { state with votes := state.votes.insert voter ⟨voter, option, (document.powers.lookup voter).getD 0⟩ }
          return { document with proposals := document.proposals.insert proposalID state }

inductive Keeper where
  | memory (policy : TallyPolicy) (document : Document)
  | stored (keeper : StoreKeeper)

inductive Call where
  | setTime (now : UInt64)
  | setVotingPower (voter : Address) (power : VotingPower)
  | submitProposal (proposal : Proposal)
  | vote (proposalID : UInt64) (voter : Address) (option : GoString)
  | execute (proposalID : UInt64)

namespace Keeper

def policy : Keeper → TallyPolicy
  | .memory policy _ => policy
  | .stored keeper => keeper.policy

def view : Keeper → Option Document
  | .memory _ document => some document
  | .stored keeper => keeper.load.toOption

def spelled : Keeper → Address → Address
  | .memory _ _ => id
  | .stored _ => Utf8.toValid

def submitProposal (proposal : Proposal) : Keeper → Except AppErr (UInt64 × Keeper)
  | .memory policy document => (document.submitProposal policy proposal).map fun (id, document) => (id, .memory policy document)
  | .stored keeper => (keeper.submitProposal proposal).map fun (id, keeper) => (id, .stored keeper)

def executes (proposalID : UInt64) : Keeper → Bool
  | .memory policy document => match document.execute policy proposalID with
    | .executed _ => true
    | _ => false
  | .stored keeper => match keeper.execute proposalID with
    | .ok (done, _) => done
    | .error _ => false

def keptOn {Value : Type} (keeper : Keeper) (next : Value → Keeper) : Except AppErr Value → Keeper
  | .ok value => next value
  | .error _ => keeper

-- A call that fails leaves the keeper as it is.
def after (keeper : Keeper) (call : Call) : Keeper :=
  match keeper, call with
  | .memory policy document, .setTime now => .memory policy { document with now }
  | .memory policy document, .setVotingPower voter power =>
    if voter = [] then keeper else .memory policy { document with powers := document.powers.insert voter power }
  | .memory policy document, .vote proposalID voter option => keeper.keptOn (.memory policy) (document.vote proposalID voter option)
  | .memory policy document, .execute proposalID =>
    match document.execute policy proposalID with
    | .failed _ => keeper
    | .rejected document => .memory policy document
    | .executed document => .memory policy document
  | .stored inner, .setTime now => keeper.keptOn .stored (inner.setTime now)
  | .stored inner, .setVotingPower voter power => keeper.keptOn .stored (inner.setVotingPower voter power)
  | .stored inner, .vote proposalID voter option => keeper.keptOn .stored (inner.vote proposalID voter option)
  | .stored inner, .execute proposalID => keeper.keptOn (fun done => .stored done.2) (inner.execute proposalID)
  | _, .submitProposal proposal => keeper.keptOn Prod.snd (keeper.submitProposal proposal)

end Keeper

def Step (keeper : Keeper) (call : Call) (next : Keeper) : Prop := keeper.after call = next

section Effects

inductive Effect (policy : TallyPolicy) (document : Document) (call : Call) (made : Document) : Prop where
  | kept (proposals : made.proposals = document.proposals)
  | submitted {proposal : Proposal} {state : ProposalState} (asked : call = .submitProposal proposal)
      (proposals : made.proposals = document.proposals.insert document.nextID state)
  | voted {proposalID : UInt64} {voter : Address} {option : GoString} {choice : VoteOption} {power : VotingPower} {state : ProposalState}
      (asked : call = .vote proposalID voter option) (found : document.proposals.lookup proposalID = some state)
      (parsed : VoteOption.parse option = some choice) (fresh : state.votes.lookup voter = none)
      (proposals : made.proposals = document.proposals.insert proposalID { state with votes := state.votes.insert voter ⟨voter, choice, power⟩ })
  | rejected {proposalID : UInt64} {state : ProposalState} (found : document.proposals.lookup proposalID = some state)
      (proposals : made.proposals = document.proposals.insert proposalID { state with rejected := true })
  | executed {proposalID : UInt64} {state : ProposalState} (asked : call = .execute proposalID)
      (found : document.proposals.lookup proposalID = some state) (once : state.executed = false) (due : state.executableAt ≤ document.now)
      (passes : passesTally policy (tally state) = true)
      (proposals : made.proposals = document.proposals.insert proposalID { state with executed := true, executedChanges := state.proposal.changes })

variable {policy : TallyPolicy} {document made : Document} {keeper next : StoreKeeper} {proposalID : UInt64}

theorem vote_effect {voter : Address} {option : GoString} (done : document.vote proposalID voter option = .ok made) :
    Effect policy document (.vote proposalID voter option) made ∧ made.now = document.now := by
  rw [Document.vote] at done
  split at done
  · cases done
  · next state found =>
    simp only [ok_iff] at done
    obtain ⟨-, done⟩ := done
    split at done
    · cases done
    · next choice parsed =>
      simp only [ok_iff] at done
      obtain ⟨fresh, done⟩ := done
      cases done
      exact ⟨.voted rfl found parsed fresh rfl, rfl⟩

theorem record_vote_effect {voter : Address} {option : GoString} (done : keeper.recordVote document proposalID voter option = .ok made) :
    Effect policy document (.vote proposalID voter option) made ∧ made.now = document.now := by
  rw [StoreKeeper.recordVote] at done
  split at done
  · cases done
  · next state found =>
    simp only [ok_iff] at done
    obtain ⟨-, done⟩ := done
    split at done
    · cases done
    · next choice parsed =>
      simp only [ok_iff] at done
      obtain ⟨fresh, done⟩ := done
      cases done
      exact ⟨.voted rfl found parsed fresh rfl, rfl⟩

-- Execute on a copy of the document that has other powers.
theorem execute_effect {copy : Document} (proposals : copy.proposals = document.proposals) (clock : copy.now = document.now)
    (done : copy.execute policy proposalID = .rejected made ∨ copy.execute policy proposalID = .executed made) :
    Effect policy document (.execute proposalID) made ∧ made.now = document.now := by
  rw [Document.execute, proposals, clock] at done
  split at done
  · simp only [reduceCtorEq, or_self] at done
  · next state found =>
    split_ifs at done with executed rejected open_ locked passes
    · obtain same | same := done <;> cases same
    · obtain same | same := done
      · cases same
        exact ⟨.kept proposals, clock⟩
      · cases same
    · obtain same | same := done <;> cases same
    · obtain same | same := done <;> cases same
    · obtain same | same := done
      · cases same
      · cases same
        exact ⟨.executed rfl found (by simpa using executed) (UInt64.not_lt.mp locked) passes rfl, rfl⟩
    · obtain same | same := done
      · cases same
        exact ⟨.rejected found rfl, rfl⟩
      · cases same

theorem submit_effect {proposal : Proposal} {copy : Document} (proposals : copy.proposals = document.proposals) (clock : copy.now = document.now)
    (next : copy.nextID = document.nextID) (done : copy.submitProposal policy proposal = .ok (proposalID, made)) :
    Effect policy document (.submitProposal proposal) made ∧ made.now = document.now ∧ proposalID = document.nextID ∧
      ∃ state, made.proposals.lookup proposalID = some state ∧ state.votingEndsAt = document.now + policy.votingPeriod ∧
        state.executableAt = document.now + policy.votingPeriod + policy.timelock ∧ state.votes = ∅ := by
  simp only [Document.submitProposal, ok_iff] at done
  obtain ⟨-, -, -, done⟩ := done
  cases done
  rw [clock, proposals, next]
  exact ⟨.submitted rfl rfl, rfl, rfl, _, AList.lookup_insert _, rfl, rfl, rfl⟩

def Document.reread (document : Document) : Document :=
  { document.written with nextID := if document.written.nextID = 0 then 1 else document.written.nextID }

theorem load_saved (saved : keeper.state = .document made) : keeper.load = .ok made.reread := by
  rw [StoreKeeper.load, saved]
  rfl

theorem reread_proposal (document : Document) (proposalID : UInt64) :
    document.reread.proposals.lookup proposalID = (document.proposals.lookup proposalID).map ProposalState.written :=
  written_proposal document proposalID

inductive Reread (call : Call) (document : Document) (keeper : Keeper) : Keeper → Document → Prop where
  | same (view : keeper.view = some document) : Reread call document keeper keeper document
  | memory {policy : TallyPolicy} {made : Document} (own : keeper = .memory policy document) (effect : Effect policy document call made)
      (clock : made.now = document.now ∨ call = .setTime made.now) : Reread call document keeper (.memory policy made) made
  | stored {before after : StoreKeeper} {made : Document} (own : keeper = .stored before) (policy : after.policy = before.policy)
      (saved : after.state = .document made) (effect : Effect before.policy document call made) (settled : VotesSettled document)
      (clock : made.now = document.now ∨ call = .setTime made.now) :
      Reread call document keeper (.stored after) made.reread

theorem Reread.view {call : Call} {keeper next : Keeper} {read : Document} (reread : Reread call document keeper next read) :
    next.view = some read := by
  cases reread with
  | same view => exact view
  | memory => rfl
  | stored own policy saved =>
    rw [Keeper.view, load_saved saved]
    rfl

theorem memory_reread (policy : TallyPolicy) (document : Document) (call : Call) :
    ∃ read, Reread call document (.memory policy document) ((Keeper.memory policy document).after call) read := by
  cases call with
  | setTime now => exact ⟨_, .memory rfl (.kept rfl) (.inr rfl)⟩
  | setVotingPower voter power =>
    by_cases unnamed : voter = []
    · rw [Keeper.after, if_pos unnamed]
      exact ⟨_, .same rfl⟩
    · rw [Keeper.after, if_neg unnamed]
      exact ⟨_, .memory rfl (.kept rfl) (.inl rfl)⟩
  | submitProposal proposal =>
    rw [Keeper.after, Keeper.submitProposal]
    cases done : document.submitProposal policy proposal with
    | error reason => exact ⟨_, .same rfl⟩
    | ok made =>
      obtain ⟨effect, clock, -⟩ := submit_effect rfl rfl rfl done
      exact ⟨_, .memory rfl effect (.inl clock)⟩
  | vote proposalID voter option =>
    rw [Keeper.after]
    cases done : document.vote proposalID voter option with
    | error reason => exact ⟨_, .same rfl⟩
    | ok made =>
      obtain ⟨effect, clock⟩ := vote_effect done
      exact ⟨_, .memory rfl effect (.inl clock)⟩
  | execute proposalID =>
    rw [Keeper.after]
    cases done : document.execute policy proposalID with
    | failed reason => exact ⟨_, .same rfl⟩
    | rejected made =>
      obtain ⟨effect, clock⟩ := execute_effect rfl rfl (.inl done)
      exact ⟨_, .memory rfl effect (.inl clock)⟩
    | executed made =>
      obtain ⟨effect, clock⟩ := execute_effect rfl rfl (.inr done)
      exact ⟨_, .memory rfl effect (.inl clock)⟩

theorem stored_reread (keeper : StoreKeeper) (loaded : keeper.load = .ok document) (call : Call) :
    ∃ read, Reread call document (.stored keeper) ((Keeper.stored keeper).after call) read := by
  have settled := load_settled loaded
  have unchanged : (Keeper.stored keeper).view = some document := by rw [Keeper.view, loaded]; rfl
  have sameProposals : (keeper.memory document).proposals = document.proposals := rfl
  cases call with
  | setTime now =>
    rw [Keeper.after, StoreKeeper.setTime, loaded]
    exact ⟨_, .stored rfl rfl rfl (.kept rfl) settled (.inr rfl)⟩
  | setVotingPower voter power =>
    rw [Keeper.after, StoreKeeper.setVotingPower, loaded]
    split
    · exact ⟨_, .same unchanged⟩
    · exact ⟨_, .stored rfl rfl rfl (.kept rfl) settled (.inl rfl)⟩
  | submitProposal proposal =>
    rw [Keeper.after, Keeper.submitProposal, StoreKeeper.submitProposal, loaded]
    dsimp only [bind, Except.bind]
    cases submitted : (keeper.memory document).submitProposal keeper.policy proposal with
    | error reason => exact ⟨_, .same unchanged⟩
    | ok made =>
      obtain ⟨effect, clock, -⟩ := submit_effect sameProposals rfl rfl submitted
      exact ⟨_, .stored rfl rfl rfl effect settled (.inl clock)⟩
  | vote proposalID voter option =>
    rw [Keeper.after, StoreKeeper.vote, loaded]
    dsimp only [bind, Except.bind]
    cases recorded : keeper.recordVote document proposalID voter option with
    | error reason => exact ⟨_, .same unchanged⟩
    | ok made =>
      obtain ⟨effect, clock⟩ := record_vote_effect recorded
      exact ⟨_, .stored rfl rfl rfl effect settled (.inl clock)⟩
  | execute proposalID =>
    rw [Keeper.after, StoreKeeper.execute, loaded]
    dsimp only [bind, Except.bind]
    cases outcome : (keeper.memory document).execute keeper.policy proposalID with
    | failed reason => exact ⟨_, .same unchanged⟩
    | rejected made =>
      obtain ⟨effect, clock⟩ := execute_effect sameProposals rfl (.inl outcome)
      exact ⟨_, .stored rfl rfl rfl effect settled (.inl clock)⟩
    | executed made =>
      dsimp only
      cases upgradePlansFromChanges (made.applied.drop document.applied.length) with
      | error reason => exact ⟨_, .same unchanged⟩
      | ok plans =>
        obtain ⟨effect, clock⟩ := execute_effect sameProposals rfl (.inr outcome)
        exact ⟨_, .stored rfl rfl rfl effect settled (.inl clock)⟩

theorem after_reread {keeper : Keeper} (view : keeper.view = some document) (call : Call) :
    ∃ read, Reread call document keeper (keeper.after call) read := by
  cases keeper with
  | memory policy own =>
    cases view
    exact memory_reread policy document call
  | stored inner =>
    cases loaded : inner.load with
    | error reason =>
      rw [Keeper.view, loaded] at view
      cases view
    | ok own =>
      rw [Keeper.view, loaded] at view
      cases view
      exact stored_reread inner loaded call

end Effects

end Vexo.Governance
