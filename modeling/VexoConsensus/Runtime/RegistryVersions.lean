import VexoConsensus.StoreRegistry

namespace Vexo.StoreRegistry

open Checks List AList

theorem select_height_bounds (height : Height) (heights : List Height) (start : Height) :
    let selected := heights.foldl (fun selected candidate => if candidate ≤ height ∧ selected ≤ candidate then candidate else selected) start
    (selected = start ∨ selected ∈ heights ∧ selected ≤ height) ∧ start ≤ selected ∧
      ∀ candidate ∈ heights, candidate ≤ height → candidate ≤ selected := by
  induction heights generalizing start with
  | nil => exact ⟨.inl rfl, UInt64.le_refl _, fun _ listed => nomatch listed⟩
  | cons first rest ih =>
    by_cases taken : first ≤ height ∧ start ≤ first
    · obtain ⟨origin, lower, upper⟩ := ih first
      simp only [foldl_cons, if_pos taken]
      refine ⟨.inr ?_, UInt64.le_trans taken.2 lower, forall_mem_cons.mpr ⟨fun _ => lower, upper⟩⟩
      rcases origin with same | ⟨listed, within⟩
      · rw [same]
        exact ⟨mem_cons_self, taken.1⟩
      · exact ⟨mem_cons_of_mem _ listed, within⟩
    · obtain ⟨origin, lower, upper⟩ := ih start
      simp only [foldl_cons, if_neg taken]
      refine ⟨origin.imp_right fun found => ⟨mem_cons_of_mem _ found.1, found.2⟩, lower, forall_mem_cons.mpr ⟨fun within => ?_, upper⟩⟩
      have below : ¬ start ≤ first := fun above => taken ⟨within, above⟩
      exact UInt64.le_trans (UInt64.le_of_lt (UInt64.not_le.mp below)) lower

theorem select_height_spec (height : Height) (heights : List Height) :
    (selectHeight height heights = 0 ∨ selectHeight height heights ∈ heights ∧ selectHeight height heights ≤ height) ∧
      ∀ candidate ∈ heights, candidate ≤ height → candidate ≤ selectHeight height heights := by
  obtain ⟨origin, -, upper⟩ := select_height_bounds height heights 0
  exact ⟨origin, upper⟩

variable {heights : List Height} {height : Height} {position : Height}

theorem select_height_eq (listed : height ∈ heights) (within : height ≤ position)
    (latest : ∀ other ∈ heights, other ≤ position → other ≤ height) : selectHeight position heights = height := by
  have spec := select_height_spec position heights
  refine UInt64.le_antisymm ?_ (spec.2 height listed within)
  rcases spec.1 with zero | ⟨found, bounded⟩
  · rw [zero]
    exact UInt64.zero_le
  · exact latest _ found bounded

theorem select_height_mono {position' : Height} {heights' : List Height}
    (known : ∀ candidate ≤ position, candidate ∈ heights → candidate ∈ heights' ∧ candidate ≤ position') :
    selectHeight position heights ≤ selectHeight position' heights' := by
  rcases (select_height_spec position heights).1 with zero | ⟨member, within⟩
  · rw [zero]
    exact UInt64.zero_le
  · obtain ⟨listed, bounded⟩ := known _ within member
    exact (select_height_spec position' heights').2 _ listed bounded

theorem select_height_congr {left right : List Height} (same : ∀ candidate ≤ height, candidate ∈ left ↔ candidate ∈ right) :
    selectHeight height left = selectHeight height right := by
  apply UInt64.le_antisymm
  · exact select_height_mono fun candidate within listed => ⟨(same candidate within).mp listed, within⟩
  · exact select_height_mono fun candidate within listed => ⟨(same candidate within).mpr listed, within⟩

-- Between two positions that no version was recorded after, nothing changes.
theorem select_height_between (within : height ≤ position)
    (latest : ∀ other ∈ heights, other ≤ position → other ≤ height) : selectHeight position heights = selectHeight height heights := by
  apply UInt64.le_antisymm
  · exact select_height_mono fun other bounded listed => ⟨listed, latest other listed bounded⟩
  · exact select_height_mono fun other bounded listed => ⟨listed, UInt64.le_trans bounded within⟩

section Versions

structure SameFrom (start : Height) (left right : StoreRegistry) : Prop where
  policy : left.policy = right.policy
  kept : ∃ leftHeights rightHeights, left.heights = some leftHeights ∧ right.heights = some rightHeights ∧
    ∀ height > start, height ∈ leftHeights ↔ height ∈ rightHeights
  versions : ∀ height > start, ∀ heights, left.heights = some heights → height ∈ heights → left.sets.lookup height = right.sets.lookup height
  inForce : left.loadLatest start = right.loadLatest start

variable {start : Height} {left right : StoreRegistry}

theorem load_latest_eq {registry : StoreRegistry} {heights : List Height} (stored : registry.heights = some heights) (height : Height) :
    registry.loadLatest height = if selectHeight height heights ≠ 0 then match registry.sets.lookup (selectHeight height heights) with
        | some document => .ok document
        | none => .error .validatorSetMissing
      else .error .validatorSetNotFound := by
  simp only [loadLatest, loadHeights, stored, bind, Except.bind, require]
  by_cases found : selectHeight height heights = 0
  · simp [found]
  · simp only [found, ne_eq, not_false_eq_true, if_true]
    rfl

variable (same : SameFrom start left right)
include same

theorem SameFrom.load_latest {height : Height} (after : start ≤ height) : left.loadLatest height = right.loadLatest height := by
  obtain ⟨leftHeights, rightHeights, leftStored, rightStored, listed⟩ := same.kept
  by_cases later : ∃ candidate ∈ leftHeights, start < candidate ∧ candidate ≤ height
  · -- A version after the start decides on both sides, and it is the same one.
    have picked : selectHeight height leftHeights = selectHeight height rightHeights ∧ start < selectHeight height leftHeights ∧
        selectHeight height leftHeights ∈ leftHeights := by
      obtain ⟨candidate, member, beyond, within⟩ := later
      have spec := select_height_spec height leftHeights
      have above := UInt64.lt_of_lt_of_le beyond (spec.2 candidate member within)
      obtain ⟨found, bounded⟩ := spec.1.resolve_left fun zero => UInt64.not_lt_zero (zero ▸ above)
      refine ⟨(select_height_eq ((listed _ above).mp found) bounded fun other kept below => ?_).symm, above, found⟩
      by_cases late : start < other
      · exact spec.2 other ((listed other late).mpr kept) below
      · exact UInt64.le_trans (UInt64.not_lt.mp late) (UInt64.le_of_lt above)
    obtain ⟨chosen, beyond, member⟩ := picked
    rw [load_latest_eq leftStored, load_latest_eq rightStored, ← chosen, same.versions _ beyond leftHeights leftStored member]
  · have earlier : ∀ {heights : List Height}, (∀ candidate > start, candidate ∈ heights → candidate ∈ leftHeights) →
        selectHeight height heights = selectHeight start heights := by
      intro heights known
      refine select_height_between after fun candidate member within => ?_
      by_contra beyond
      exact later ⟨candidate, known candidate (UInt64.not_le.mp beyond) member, UInt64.not_le.mp beyond, within⟩
    have inForce := same.inForce
    rw [load_latest_eq leftStored, load_latest_eq rightStored] at inForce ⊢
    rw [earlier fun _ _ => id, earlier fun candidate beyond => (listed candidate beyond).mpr]
    exact inForce

theorem SameFrom.validator_set {height : Height} (after : start ≤ height) (nonzero : height ≠ 0) :
    left.validatorSet height = right.validatorSet height := by
  rw [validatorSet, validatorSet, if_neg nonzero, if_neg nonzero, same.load_latest after]

end Versions

section Staging

variable {start height : Height} {left right registry : StoreRegistry}

structure SameDocuments (left right : StoreRegistry) : Prop where
  policy : left.policy = right.policy
  heights : left.heights = right.heights
  sets : left.sets = right.sets

theorem SameDocuments.load_latest (same : SameDocuments left right) (height : Height) : left.loadLatest height = right.loadLatest height := by
  rw [loadLatest, loadLatest, loadHeights, loadHeights, same.heights, same.sets]

theorem SameFrom.of_documents {left' right' : StoreRegistry} (same : SameFrom start left right) (leftSame : SameDocuments left' left)
    (rightSame : SameDocuments right' right) : SameFrom start left' right' where
  policy := by rw [leftSame.policy, rightSame.policy, same.policy]
  kept := by
    rw [leftSame.heights, rightSame.heights]
    exact same.kept
  versions := by
    rw [leftSame.heights, leftSame.sets, rightSame.sets]
    exact same.versions
  inForce := by rw [leftSame.load_latest, rightSame.load_latest, same.inForce]

structure Versioned (registry next : StoreRegistry) (height : Height) (document : ValidatorSetDocument) : Prop where
  policy : next.policy = registry.policy
  heights : ∀ heights, registry.heights = some heights → ∃ later, next.heights = some later ∧ ∀ listed, listed ∈ later ↔ listed ∈ heights ∨ listed = height
  sets : next.sets = registry.sets.insert height document

theorem snapshot_versioned (registry : StoreRegistry) (height : Height) (validators : List Validator) (events : List RotationEvent) :
    Versioned registry (registry.commitWrites (registry.snapshotWrites height validators ++ registry.rotationEventWrites events)) height
      (writtenDocument validators) := by
  have committed : ∀ events', SameDocuments
      (registry.commitWrites (registry.snapshotWrites height validators ++ registry.rotationEventWrites events'))
      (registry.commitWrites (registry.snapshotWrites height validators)) := by
    intro events'
    by_cases none : events' = []
    · simp only [rotationEventWrites, none, if_true, append_nil]
      exact ⟨rfl, rfl, rfl⟩
    · simp only [rotationEventWrites, none, if_false, commitWrites, foldl_append, foldl_cons, foldl_nil]
      exact ⟨rfl, rfl, rfl⟩
  obtain ⟨policy, heights, sets⟩ := committed events
  refine ⟨policy.trans rfl, fun known stored => ⟨_, heights.trans rfl, fun listed => ?_⟩, sets.trans rfl⟩
  simp only [stored, Option.getD_some]
  split
  · next member =>
      constructor
      · exact Or.inl
      · rintro (before | rfl)
        · exact before
        · exact member
  · rw [mem_insertionSort, mem_append, mem_singleton]

variable {document : ValidatorSetDocument}

theorem SameFrom.versioned {left' right' : StoreRegistry} (same : SameFrom start left right)
    (after : start < height) (leftNext : Versioned left left' height document) (rightNext : Versioned right right' height document) :
    SameFrom start left' right' := by
  obtain ⟨leftHeights, rightHeights, leftStored, rightStored, listed⟩ := same.kept
  obtain ⟨leftLater, leftKept, leftMembers⟩ := leftNext.heights leftHeights leftStored
  obtain ⟨rightLater, rightKept, rightMembers⟩ := rightNext.heights rightHeights rightStored
  -- What is in force at the start was stored before the version.
  have before : ∀ {registry next : StoreRegistry} {heights later : List Height}, Versioned registry next height document →
      registry.heights = some heights → next.heights = some later → (∀ listed, listed ∈ later ↔ listed ∈ heights ∨ listed = height) →
      next.loadLatest start = registry.loadLatest start := by
    intro registry next heights later versioned stored kept members
    have apart : ∀ candidate ≤ start, candidate ≠ height := by
      rintro candidate within rfl
      exact UInt64.not_le.mpr after within
    have chosen : selectHeight start later = selectHeight start heights :=
      select_height_congr fun candidate within => (members candidate).trans (or_iff_left (apart candidate within))
    rw [load_latest_eq kept, load_latest_eq stored, chosen, versioned.sets]
    rcases (select_height_spec start heights).1 with zero | ⟨-, within⟩
    · simp [zero]
    · rw [lookup_insert_ne (apart _ within)]
  refine ⟨?_, ⟨leftLater, rightLater, leftKept, rightKept, fun candidate beyond => ?_⟩, fun candidate beyond heights stored member => ?_, ?_⟩
  · rw [leftNext.policy, rightNext.policy, same.policy]
  · rw [leftMembers, rightMembers, listed candidate beyond]
  · rw [leftNext.sets, rightNext.sets]
    by_cases this : candidate = height
    · rw [this, lookup_insert, lookup_insert]
    · rw [lookup_insert_ne this, lookup_insert_ne this]
      rw [leftKept] at stored
      cases stored
      exact same.versions candidate beyond leftHeights leftStored (((leftMembers candidate).mp member).resolve_right this)
  · rw [before leftNext leftStored leftKept leftMembers, before rightNext rightStored rightKept rightMembers, same.inForce]

theorem Versioned.load_latest {next : StoreRegistry} {heights : List Height}
    (versioned : Versioned registry next height document) (stored : registry.heights = some heights) (nonzero : height ≠ 0) :
    next.loadLatest height = .ok document := by
  obtain ⟨later, kept, members⟩ := versioned.heights heights stored
  have member : height ∈ later := (members height).mpr (.inr rfl)
  have chosen : selectHeight height later = height := select_height_eq member (UInt64.le_refl _) fun _ _ bounded => bounded
  rw [load_latest_eq kept, chosen, if_pos nonzero, versioned.sets, lookup_insert]

theorem commit_staged_documents (registry : StoreRegistry) {height : Height} (nonzero : height ≠ 0)
    (stored : registry.loadLatest height = .ok document) (updates : List ValidatorUpdate) :
    ∃ next, registry.commitStagedValidatorUpdates height updates = (next, .ok ()) ∧ SameDocuments next registry := by
  have effective : (registry.setEffectiveHeight height).loadLatest height = .ok document := stored
  rw [commitStagedValidatorUpdates, if_neg nonzero]
  by_cases pending : ((registry.setEffectiveHeight height).pendingEvents.lookup height).getD [] = []
  · simp only [pending, ne_eq, not_true_eq_false, if_false, validatorsAt, effective, bind, Except.bind, pure, Except.pure]
    exact ⟨_, rfl, ⟨rfl, rfl, rfl⟩⟩
  · simp only [pending, ne_eq, not_false_eq_true, if_true]
    exact ⟨_, rfl, ⟨rfl, rfl, rfl⟩⟩

theorem SameFrom.stage (same : SameFrom start left right) (after : start < height) (ctx : Context) (updates : List ValidatorUpdate) :
    (∃ reason, left.stageValidatorUpdatesAt ctx height updates = .error reason ∧ right.stageValidatorUpdatesAt ctx height updates = .error reason) ∨
    ∃ set leftStaged leftWrites rightStaged rightWrites document,
      left.stageValidatorUpdatesAt ctx height updates = .ok (leftStaged, set, leftWrites) ∧
      right.stageValidatorUpdatesAt ctx height updates = .ok (rightStaged, set, rightWrites) ∧
      SameDocuments leftStaged left ∧ SameDocuments rightStaged right ∧
      Versioned left (leftStaged.commitWrites leftWrites) height document ∧ Versioned right (rightStaged.commitWrites rightWrites) height document := by
  have nonzero : height ≠ 0 := fun zero => UInt64.not_lt_zero (zero ▸ after)
  have policies : left.stageUpdate ctx = right.stageUpdate ctx := by
    funext validators update
    simp only [stageUpdate, same.policy]
  have read := same.load_latest (UInt64.le_of_lt after)
  simp only [stageValidatorUpdatesAt, validatorsAt, if_neg nonzero, read, policies]
  cases right.loadLatest height with
  | error reason => exact .inl ⟨reason, rfl, rfl⟩
  | ok found =>
    simp only [bind, Except.bind, pure, Except.pure]
    cases updates.foldlM (right.stageUpdate ctx) (SetSnapshot.mk found.validators).toMap with
    | error reason => exact .inl ⟨reason, rfl, rfl⟩
    | ok validators =>
      refine .inr ⟨_, _, _, _, _, writtenDocument (sortedValidatorMap validators), rfl, rfl, ⟨rfl, rfl, rfl⟩, ⟨rfl, rfl, rfl⟩, ?_, ?_⟩
      · obtain ⟨policy, heights, sets⟩ := snapshot_versioned (left.stageRotationEvents height
          ⟨sortedValidatorMap (SetSnapshot.mk found.validators).toMap⟩ ⟨sortedValidatorMap validators⟩ updates) height (sortedValidatorMap validators) _
        exact ⟨policy, heights, sets⟩
      · obtain ⟨policy, heights, sets⟩ := snapshot_versioned (right.stageRotationEvents height
          ⟨sortedValidatorMap (SetSnapshot.mk found.validators).toMap⟩ ⟨sortedValidatorMap validators⟩ updates) height (sortedValidatorMap validators) _
        exact ⟨policy, heights, sets⟩

end Staging

end Vexo.StoreRegistry

namespace Vexo

open OrderedMap List AList

-- The interface both registries implement; the effective height is the field a height of zero stands for.
structure VersionedRegistry (State : Type) where
  effectiveHeight : State → Height
  rotationEvents : State → List RotationEvent
  validatorSet : State → Context → Height → Except Err SetSnapshot
  applyJoinAt : State → Context → Height → Candidate → State × Except Err Validator
  applyLeaveAt : State → Context → Height → ValidatorID → State × Except Err Unit
  updateVotingPowerAt : State → Context → Height → ValidatorID → VotingPower → State × Except Err Unit

def inMemory : VersionedRegistry InMemoryRegistry where
  effectiveHeight registry := registry.effectiveHeight
  rotationEvents registry := registry.events
  validatorSet registry ctx height := registry.validatorSet ctx height
  applyJoinAt registry := registry.applyJoinAt
  applyLeaveAt registry := registry.applyLeaveAt
  updateVotingPowerAt registry := registry.updateVotingPowerAt

def storeBacked : VersionedRegistry StoreRegistry where
  effectiveHeight registry := registry.effectiveHeight
  rotationEvents registry := registry.events
  validatorSet registry ctx height := if ctx.done then .error .contextDone else registry.validatorSet height
  applyJoinAt registry := registry.applyJoinAt
  applyLeaveAt registry := registry.applyLeaveAt
  updateVotingPowerAt registry := registry.updateVotingPowerAt

inductive Change where
  | join (candidate : Candidate)
  | leave (id : ValidatorID)
  | setPower (id : ValidatorID) (power : VotingPower)
deriving DecidableEq

structure Call where
  ctx : Context
  height : Height
  change : Change
deriving DecidableEq

namespace Change

def validatorID : Change → ValidatorID
  | .join candidate => candidate.address
  | .leave id => id
  | .setPower id _ => id

def joined (candidate : Candidate) : Validator := ⟨candidate.address, candidate.publicKey, candidate.stake, candidate.stake⟩

def shownBy (set : SetSnapshot) : Change → Prop
  | .join candidate => set.get candidate.address = some (joined candidate)
  | .leave id => set.get id = none
  | .setPower id power => (set.get id).map Validator.votingPower = some power

instance (set : SetSnapshot) : (change : Change) → Decidable (change.shownBy set)
  | .join candidate => inferInstanceAs (Decidable (set.get candidate.address = some (joined candidate)))
  | .leave id => inferInstanceAs (Decidable (set.get id = none))
  | .setPower id power => inferInstanceAs (Decidable ((set.get id).map Validator.votingPower = some power))

-- What both registries refuse without looking at their validators.
def malformed : Change → Option Err
  | .join candidate => if candidate.address = [] then some .missingCandidateID else none
  | .leave _ => none
  | .setPower _ power => if power = 0 then some .zeroVotingPower else none

-- What both registries do to the validators in force, with the event and the answer of the call.
def edit (policy : Option AdmissionPolicy) (ctx : Context) (validators : Table ValidatorID Validator) :
    Change → Except Err (Table ValidatorID Validator × RotationEventType × VotingPower × Option Validator)
  | .join candidate =>
    if (validators.lookup candidate.address).isSome then .error .validatorExists
    else
      match (match policy with
        | none => Except.ok ()
        | some canJoin => canJoin ctx candidate ⟨sortedValidatorMap validators⟩) with
      | .error reason => .error reason
      | .ok _ =>
        if candidate.stake = 0 then .error .zeroVotingPower
        else .ok (validators.insert candidate.address (joined candidate), .join, candidate.stake, some (joined candidate))
  | .leave id => if (validators.lookup id).isNone then .error .validatorNotFound else .ok (validators.erase id, .leave, 0, none)
  | .setPower id power =>
    match validators.lookup id with
    | none => .error .validatorNotFound
    | some validator => .ok (validators.insert id { validator with votingPower := power }, .powerChange, power, none)

end Change

namespace VersionedRegistry

variable {State : Type} (registry : VersionedRegistry State) (state : State)

def change (call : Call) : State × Except Err (Option Validator) :=
  match call.change with
  | .join candidate =>
    let (state, outcome) := registry.applyJoinAt state call.ctx call.height candidate
    (state, outcome.map some)
  | .leave id =>
    let (state, outcome) := registry.applyLeaveAt state call.ctx call.height id
    (state, outcome.map fun _ => none)
  | .setPower id power =>
    let (state, outcome) := registry.updateVotingPowerAt state call.ctx call.height id power
    (state, outcome.map fun _ => none)

def resolved (height : Height) : Height := if height = 0 then registry.effectiveHeight state else height

def after (calls : List Call) : State := calls.foldl (fun state call => (registry.change state call).1) state

end VersionedRegistry

def Keyed (validators : Table ValidatorID Validator) : Prop := ∀ id validator, validators.lookup id = some validator → validator.id = id

theorem to_map_lookup (set : SetSnapshot) (id : ValidatorID) : set.toMap.lookup id = set.get id := by
  obtain ⟨validators⟩ := set
  induction validators using reverseRecOn with
  | nil => rfl
  | append_singleton earlier last ih =>
    simp only [SetSnapshot.toMap, SetSnapshot.get] at ih ⊢
    rw [foldl_append, foldl_cons, foldl_nil, reverse_append, reverse_singleton, singleton_append]
    by_cases same : last.id = id
    · rw [find?_cons_of_pos (by simpa using same), ← same, lookup_insert]
    · rw [find?_cons_of_neg (by simpa using same), lookup_insert_ne (Ne.symm same), ih]

theorem to_map_keyed (set : SetSnapshot) : Keyed set.toMap := by
  intro id validator found
  rw [to_map_lookup] at found
  exact (get_some found).2

-- Sorting is stable, so the last validator with an identifier stays the last one.
theorem get_sorted (validators : List Validator) (id : ValidatorID) :
    (SetSnapshot.mk (sortedValidators validators)).get id = (SetSnapshot.mk validators).get id := by
  have kept : (sortedValidators validators).filter (fun validator => validator.id = id) = validators.filter fun validator => validator.id = id := by
    have named : (validators.filter fun validator => validator.id = id).Pairwise fun left right => left.id ≤ right.id := by
      refine pairwise_of_forall_mem_list fun left leftListed right rightListed => ?_
      have leftNamed := (mem_filter.mp leftListed).2
      have rightNamed := (mem_filter.mp rightListed).2
      simp only [decide_eq_true_eq] at leftNamed rightNamed
      rw [leftNamed, rightNamed]
      exact List.le_refl id
    have within := (sublist_insertionSort named filter_sublist).filter fun validator : Validator => decide (validator.id = id)
    rw [filter_filter] at within
    simp only [Bool.and_self] at within
    refine (within.eq_of_length ?_).symm
    exact ((perm_insertionSort _ validators).filter _).length_eq.symm
  rw [SetSnapshot.get, SetSnapshot.get, ← getLast?_filter, ← getLast?_filter, kept]

theorem get_sorted_map {validators : Table ValidatorID Validator} (keyed : Keyed validators) (id : ValidatorID) :
    (SetSnapshot.mk (sortedValidatorMap validators)).get id = validators.lookup id := by
  have found : ∀ validator, (SetSnapshot.mk (validators.entries.map Sigma.snd)).get id = some validator → validators.lookup id = some validator := by
    intro validator got
    obtain ⟨listed, named⟩ := get_some got
    obtain ⟨entry, stored, rfl⟩ := mem_map.mp listed
    have lookup : validators.lookup entry.1 = some entry.2 := mem_lookup_iff.mpr stored
    have under := keyed entry.1 entry.2 lookup
    rwa [← under, named] at lookup
  have sorted := get_sorted (validators.entries.map Sigma.snd) id
  rw [sortedValidators] at sorted
  rw [sortedValidatorMap, sorted]
  cases lookup : validators.lookup id with
  | none =>
    cases got : (SetSnapshot.mk (validators.entries.map Sigma.snd)).get id with
    | none => rfl
    | some validator => exact absurd (lookup.symm.trans (found validator got)) (by simp)
  | some validator =>
    have listed : validator ∈ validators.entries.map Sigma.snd := mem_map.mpr ⟨_, mem_lookup_iff.mp lookup, rfl⟩
    have named := keyed id validator lookup
    cases got : (SetSnapshot.mk (validators.entries.map Sigma.snd)).get id with
    | some other => exact (found other got).symm.trans lookup
    | none =>
      rw [SetSnapshot.get, find?_eq_none] at got
      exact absurd (by simpa using named) (got validator (mem_reverse.mpr listed))

section Editing

variable {policy : Option AdmissionPolicy} {ctx : Context} {validators edited : Table ValidatorID Validator} {change : Change}
  {eventType : RotationEventType} {power : VotingPower} {answer : Option Validator}

section

variable (done : change.edit policy ctx validators = .ok (edited, eventType, power, answer))
include done

theorem edit_cases : (∃ candidate, change = .join candidate ∧ edited = validators.insert candidate.address (Change.joined candidate)) ∨
    (∃ id, change = .leave id ∧ edited = validators.erase id) ∨
    ∃ id power validator, change = .setPower id power ∧ validators.lookup id = some validator ∧
      edited = validators.insert id { validator with votingPower := power } := by
  cases change with
  | join candidate =>
    simp only [Change.edit] at done
    split at done
    · cases done
    · split at done
      · cases done
      · split at done
        · cases done
        · cases done
          exact .inl ⟨candidate, rfl, rfl⟩
  | leave id =>
    simp only [Change.edit] at done
    split at done
    · cases done
    · cases done
      exact .inr (.inl ⟨id, rfl, rfl⟩)
  | setPower id power =>
    simp only [Change.edit] at done
    split at done
    · cases done
    · next validator stored =>
        cases done
        exact .inr (.inr ⟨id, power, validator, rfl, stored, rfl⟩)

theorem edit_other {id : ValidatorID} (other : id ≠ change.validatorID) : edited.lookup id = validators.lookup id := by
  rcases edit_cases done with ⟨candidate, rfl, rfl⟩ | ⟨left, rfl, rfl⟩ | ⟨changed, weight, validator, rfl, -, rfl⟩
  · exact lookup_insert_ne other
  · exact lookup_erase_ne other
  · exact lookup_insert_ne other

theorem edit_shown {set : SetSnapshot} (entry : set.get change.validatorID = edited.lookup change.validatorID) : change.shownBy set := by
  rcases edit_cases done with ⟨candidate, rfl, rfl⟩ | ⟨left, rfl, rfl⟩ | ⟨changed, weight, validator, rfl, -, rfl⟩
  · exact entry.trans (lookup_insert _)
  · exact entry.trans (lookup_erase _ _)
  · rw [Change.validatorID, lookup_insert] at entry
    rw [Change.shownBy, entry]
    rfl

end

theorem edit_keyed (keyed : Keyed validators) (done : change.edit policy ctx validators = .ok (edited, eventType, power, answer)) : Keyed edited := by
  intro id validator found
  rcases edit_cases done with ⟨candidate, -, rfl⟩ | ⟨left, -, rfl⟩ | ⟨changed, weight, previous, -, stored, rfl⟩
  · rcases lookup_insert_cases found with ⟨same, rfl⟩ | ⟨-, kept⟩
    · exact same.symm
    · exact keyed id validator kept
  · exact keyed id validator (lookup_erase_some found)
  · rcases lookup_insert_cases found with ⟨same, rfl⟩ | ⟨-, kept⟩
    · exact (keyed changed previous stored).trans same.symm
    · exact keyed id validator kept

end Editing

theorem in_memory_change (registry : InMemoryRegistry) (call : Call) : inMemory.change registry call =
      if call.ctx.done then (registry, .error .contextDone)
      else match call.change.malformed with
        | some reason => (registry, .error reason)
        | none =>
          let height := inMemory.resolved registry call.height
          let loaded := registry.loadedAt height
          match call.change.edit registry.policy call.ctx loaded.validators with
          | .error reason => (loaded, .error reason)
          | .ok (validators, eventType, power, answer) =>
            ({ loaded with validators }.recordMutation height eventType call.change.validatorID power, .ok answer) := by
  obtain ⟨ctx, height, change⟩ := call
  by_cases done : ctx.done
  · cases change <;> simp [VersionedRegistry.change, inMemory, InMemoryRegistry.applyJoinAt, InMemoryRegistry.applyLeaveAt,
      InMemoryRegistry.updateVotingPowerAt, done, Except.map]
  cases change with
  | join candidate =>
    simp only [VersionedRegistry.change, inMemory, InMemoryRegistry.applyJoinAt, done, Change.malformed, Change.edit, VersionedRegistry.resolved]
    by_cases empty : candidate.address = []
    · simp [empty, Except.map]
    · simp only [empty, Bool.false_eq_true, if_false, InMemoryRegistry.loadedAt, InMemoryRegistry.snapshot]
      obtain ⟨loaded, read⟩ : ∃ loaded, registry.snapshotAt (if height = 0 then registry.effectiveHeight else height) = loaded := ⟨_, rfl⟩
      simp only [read]
      by_cases there : (loaded.toMap.lookup candidate.address).isSome
      · simp only [there, if_true]
        rfl
      · simp only [there]
        cases registry.policy with
        | none =>
          by_cases poor : candidate.stake = 0
          · simp only [poor, if_true]
            rfl
          · simp only [poor, if_false]
            rfl
        | some canJoin =>
          cases verdict : canJoin ctx candidate ⟨sortedValidatorMap loaded.toMap⟩ with
          | error reason =>
            simp only [verdict]
            rfl
          | ok _ =>
            by_cases poor : candidate.stake = 0
            · simp only [verdict, poor, if_true]
              rfl
            · simp only [verdict, poor, if_false]
              rfl
  | leave id =>
    simp only [VersionedRegistry.change, inMemory, InMemoryRegistry.applyLeaveAt, done, Change.malformed, Change.edit, VersionedRegistry.resolved,
      Bool.false_eq_true, if_false]
    obtain ⟨loaded, read⟩ : ∃ loaded, registry.loadedAt (if height = 0 then registry.effectiveHeight else height) = loaded := ⟨_, rfl⟩
    simp only [read]
    by_cases gone : (loaded.validators.lookup id).isNone
    · simp only [gone, if_true]
      rfl
    · simp only [gone]
      rfl
  | setPower id power =>
    simp only [VersionedRegistry.change, inMemory, InMemoryRegistry.updateVotingPowerAt, done, Change.malformed, Change.edit,
      VersionedRegistry.resolved]
    by_cases zero : power = 0
    · simp [zero, Except.map]
    · simp only [zero, Bool.false_eq_true, if_false]
      obtain ⟨loaded, read⟩ : ∃ loaded, registry.loadedAt (if height = 0 then registry.effectiveHeight else height) = loaded := ⟨_, rfl⟩
      simp only [read]
      cases stored : loaded.validators.lookup id with
      | none | some validator => rfl

theorem store_backed_change (registry : StoreRegistry) (call : Call) : storeBacked.change registry call = match call.change.malformed with
      | some reason => (registry, .error reason)
      | none =>
        let height := storeBacked.resolved registry call.height
        let moved := registry.setEffectiveHeight height
        match moved.currentValidators call.ctx with
        | .error reason => (moved, .error reason)
        | .ok loaded =>
          match call.change.edit registry.policy call.ctx loaded with
          | .error reason => (moved, .error reason)
          | .ok (validators, eventType, power, answer) =>
            (moved.saveChange height eventType call.change.validatorID power validators, .ok answer) := by
  obtain ⟨ctx, height, change⟩ := call
  obtain ⟨moved, move⟩ : ∃ moved, registry.setEffectiveHeight (if height = 0 then registry.effectiveHeight else height) = moved := ⟨_, rfl⟩
  have kept : registry.policy = moved.policy := by rw [← move]; rfl
  cases change with
  | join candidate =>
    simp only [VersionedRegistry.change, storeBacked, StoreRegistry.applyJoinAt, Change.malformed, Change.edit, VersionedRegistry.resolved, move,
      kept]
    by_cases empty : candidate.address = []
    · simp [empty, Except.map]
    · simp only [empty, if_false]
      cases read : moved.currentValidators ctx with
      | error reason => rfl
      | ok validators =>
        by_cases there : (validators.lookup candidate.address).isSome
        · simp only [there, if_true]
          rfl
        · simp only [there]
          cases moved.policy with
          | none =>
            by_cases poor : candidate.stake = 0
            · simp only [poor, if_true]
              rfl
            · simp only [poor, if_false]
              rfl
          | some canJoin =>
            cases verdict : canJoin ctx candidate ⟨sortedValidatorMap validators⟩ with
            | error reason =>
              simp only [verdict]
              rfl
            | ok _ =>
              by_cases poor : candidate.stake = 0
              · simp only [verdict, poor, if_true]
                rfl
              · simp only [verdict, poor, if_false]
                rfl
  | leave id =>
    simp only [VersionedRegistry.change, storeBacked, StoreRegistry.applyLeaveAt, Change.malformed, Change.edit, VersionedRegistry.resolved, move]
    cases read : moved.currentValidators ctx with
    | error reason => rfl
    | ok validators =>
      by_cases gone : (validators.lookup id).isNone
      · simp only [gone, if_true]
        rfl
      · simp only [gone]
        rfl
  | setPower id power =>
    simp only [VersionedRegistry.change, storeBacked, StoreRegistry.updateVotingPowerAt, Change.malformed, Change.edit,
      VersionedRegistry.resolved, move]
    by_cases zero : power = 0
    · simp [zero, Except.map]
    · simp only [zero, if_false]
      cases read : moved.currentValidators ctx with
      | error reason => rfl
      | ok validators =>
        cases stored : validators.lookup id with
        | none | some validator =>
          simp only [stored]
          rfl

end Vexo
