import VexoConsensus.RegistryHistory

namespace Vexo

open ByteCodec Checks OrderedMap List StoreRegistry AList Utf8

section Runs

variable {State : Type} (registry : VersionedRegistry State)

-- No successful call of the run changes the validator at a height between the two.
def Untouched (id : ValidatorID) (first last : Height) : State → List Call → Prop
  | _, [] => True
  | state, call :: rest =>
    ¬ ((registry.change state call).2.isOk ∧ call.change.validatorID = id ∧ first ≤ registry.resolved state call.height ∧
      registry.resolved state call.height ≤ last) ∧
    Untouched id first last (registry.change state call).1 rest

-- Height zero asks for the effective height, so it is not a height before the change.
structure ChangeKept (before : State) (call : Call) (later : List Call) : Prop where
  earlier : ∀ position ≠ 0, position < registry.resolved before call.height →
    registry.validatorSet (registry.change before call).1 .background position = registry.validatorSet before .background position
  onward : ∀ position, registry.resolved before call.height ≤ position →
    Untouched registry call.change.validatorID (registry.resolved before call.height) position (registry.change before call).1 later →
    ∃ set, registry.validatorSet (registry.after (registry.change before call).1 later) .background position = .ok set ∧ call.change.shownBy set

def ChangesKept (state : State) (calls : List Call) : Prop :=
  ∀ earlier call later rest, calls = earlier ++ call :: (later ++ rest) →
    (registry.change (registry.after state earlier) call).2.isOk → ChangeKept registry (registry.after state earlier) call later

-- A successful change is one the registry can hold, and each version already recorded above its height shows it.
def Timely (recorded : State → List Height) (Faithful : Change → Prop) : State → List Call → Prop
  | _, [] => True
  | state, call :: rest =>
    ((registry.change state call).2.isOk → Faithful call.change ∧ ∀ height ∈ recorded state, registry.resolved state call.height < height →
      ∃ set, registry.validatorSet state .background height = .ok set ∧ call.change.shownBy set) ∧
    Timely recorded Faithful (registry.change state call).1 rest

-- Changes scheduled above a height leave the set of that height alone.
def PastKept (state : State) (calls : List Call) : Prop := ∀ position ≠ 0, (∀ call ∈ calls, position < call.height) →
  registry.validatorSet (registry.after state calls) .background position = registry.validatorSet state .background position

end Runs

section Kept

variable {State : Type} {registry : VersionedRegistry State} {Sound : State → Prop} {recorded : State → List Height} {Faithful : Change → Prop}
  {state : State} {call : Call} {position : Height}

variable {change : Change}

theorem shown_congr {left right : SetSnapshot} (same : left.get change.validatorID = right.get change.validatorID)
    (shown : change.shownBy left) : change.shownBy right := by
  cases change with
  | join candidate | leave id => exact same.symm.trans shown
  | setPower id power => exact (congrArg _ same.symm).trans shown

theorem timely_append (earlier later : List Call) : Timely registry recorded Faithful state (earlier ++ later) ↔
      Timely registry recorded Faithful state earlier ∧ Timely registry recorded Faithful (registry.after state earlier) later := by
  induction earlier generalizing state with
  | nil => exact (iff_of_eq (true_and _)).symm
  | cons call rest ih => rw [cons_append, Timely, Timely, ih, and_assoc]; rfl

variable (lawful : LawfulRegistry registry Sound recorded Faithful)
include lawful

theorem after_sound (sound : Sound state) (calls : List Call) : Sound (registry.after state calls) := by
  induction calls generalizing state with
  | nil => exact sound
  | cons call rest ih => exact ih (lawful.change_sound sound call)

theorem past_kept {calls : List Call} (sound : Sound state) : PastKept registry state calls := by
  intro position nonzero later
  induction calls generalizing state with
  | nil => rfl
  | cons call rest ih =>
    obtain ⟨above, others⟩ := forall_mem_cons.mp later
    refine (ih (lawful.change_sound sound call) others).trans ?_
    cases done : (registry.change state call).2 with
    | error reason => exact (lawful.refused sound done).2 position nonzero
    | ok answer =>
      refine lawful.applied_elsewhere sound done position nonzero fun inForce => UInt64.not_le.mpr above ?_
      have named : call.height ≠ 0 := fun zero => UInt64.not_lt_zero (zero ▸ above)
      simpa [VersionedRegistry.resolved, named] using inForce.1

theorem shown_right_after (sound : Sound state) (applied : (registry.change state call).2.isOk) (faithful : Faithful call.change)
    (ahead : ∀ height ∈ recorded state, registry.resolved state call.height < height →
      ∃ set, registry.validatorSet state .background height = .ok set ∧ call.change.shownBy set)
    (reached : registry.resolved state call.height ≤ position) :
    ∃ set, registry.validatorSet (registry.change state call).1 .background position = .ok set ∧ call.change.shownBy set := by
  obtain ⟨answer, succeeded⟩ := exists_of_is_ok applied
  by_cases inForce : InForceAt (recorded state) (registry.resolved state call.height) position
  · obtain ⟨before, set, -, shown, held, -⟩ := lawful.applied_there sound succeeded position inForce
    exact ⟨set, shown, held.mpr faithful⟩
  · obtain ⟨other, listed, within, above⟩ : ∃ other ∈ recorded state, other ≤ position ∧ ¬ other ≤ registry.resolved state call.height := by
      by_contra none
      push Not at none
      exact inForce ⟨reached, none⟩
    obtain ⟨selected, found, later, -, set, here, there⟩ := lawful.settled sound listed within
    obtain ⟨set', there', shown⟩ := ahead selected found (UInt64.lt_of_lt_of_le (UInt64.not_le.mp above) later)
    have nonzero := nonzero_of_le (resolved_nonzero (lawful.effective sound) call.height) reached
    rw [lawful.applied_elsewhere sound succeeded position nonzero inForce]
    rw [there] at there'
    cases there'
    exact ⟨set, here, shown⟩

theorem shown_after_call (sound : Sound state) {height : Height}
    (nonzero : height ≠ 0) (listed : height ∈ recorded state) (reached : height ≤ position) (faithful : (registry.change state call).2.isOk → Faithful call.change)
    (untouched : ¬ ((registry.change state call).2.isOk ∧ call.change.validatorID = change.validatorID ∧ height ≤ registry.resolved state call.height ∧
      registry.resolved state call.height ≤ position))
    (shown : ∃ set, registry.validatorSet state .background position = .ok set ∧ change.shownBy set) :
    height ∈ recorded (registry.change state call).1 ∧
      ∃ set, registry.validatorSet (registry.change state call).1 .background position = .ok set ∧ change.shownBy set := by
  have positive := nonzero_of_le nonzero reached
  cases outcome : (registry.change state call).2 with
  | error reason =>
    obtain ⟨same, kept⟩ := lawful.refused sound outcome
    rw [kept position positive]
    exact ⟨(same height).mpr listed, shown⟩
  | ok answer =>
    refine ⟨(lawful.applied_recorded sound outcome height).mpr (.inl listed), ?_⟩
    by_cases inForce : InForceAt (recorded state) (registry.resolved state call.height) position
    · obtain ⟨before, set, was, is, -, others⟩ := lawful.applied_there sound outcome position inForce
      have succeeded : (registry.change state call).2.isOk := by rw [outcome]; rfl
      have other : change.validatorID ≠ call.change.validatorID := fun same =>
        untouched ⟨succeeded, same.symm, inForce.2 height listed reached, inForce.1⟩
      obtain ⟨set', was', held⟩ := shown
      rw [was] at was'
      cases was'
      exact ⟨set, is, shown_congr (others (faithful succeeded) _ other).symm held⟩
    · rw [lawful.applied_elsewhere sound outcome position positive inForce]
      exact shown

theorem shown_after_calls {height : Height} (nonzero : height ≠ 0)
    (reached : height ≤ position) (calls : List Call) (sound : Sound state) (listed : height ∈ recorded state)
    (timely : Timely registry recorded Faithful state calls) (untouched : Untouched registry change.validatorID height position state calls)
    (shown : ∃ set, registry.validatorSet state .background position = .ok set ∧ change.shownBy set) :
    ∃ set, registry.validatorSet (registry.after state calls) .background position = .ok set ∧ change.shownBy set := by
  induction calls generalizing state with
  | nil => exact shown
  | cons call rest ih =>
    obtain ⟨listed', shown'⟩ := shown_after_call lawful sound nonzero listed reached (fun succeeded => (timely.1 succeeded).1) untouched.1 shown
    exact ih (lawful.change_sound sound call) listed' timely.2 untouched.2 shown'

theorem changes_kept_of_timely (sound : Sound state) {calls : List Call}
    (timely : Timely registry recorded Faithful state calls) : ChangesKept registry state calls := by
  intro earlier call later rest split applied
  rw [split, timely_append, Timely, timely_append] at timely
  obtain ⟨-, here, onward, -⟩ := timely
  have reachedSound := after_sound lawful sound earlier
  obtain ⟨answer, succeeded⟩ := exists_of_is_ok applied
  have positive := resolved_nonzero (lawful.effective reachedSound) call.height
  constructor
  · intro position nonzero before
    refine lawful.applied_elsewhere reachedSound succeeded position nonzero fun inForce => ?_
    exact UInt64.not_le.mpr before inForce.1
  · intro position reached untouched
    have listed := (lawful.applied_recorded reachedSound succeeded _).mpr (.inr rfl)
    apply shown_after_calls lawful positive reached later (lawful.change_sound reachedSound call) listed onward untouched
    exact shown_right_after lawful reachedSound applied (here applied).1 (here applied).2 reached

theorem timely_of_changes_kept (calls : List Call) (sound : Sound state)
    (kept : ChangesKept registry state calls) : Timely registry recorded Faithful state calls := by
  induction calls generalizing state with
  | nil => trivial
  | cons call rest ih =>
    refine ⟨fun applied => ?_, ih (lawful.change_sound sound call) fun earlier other later rest' split => ?_⟩
    · have shows : ∀ position, registry.resolved state call.height ≤ position →
          ∃ set, registry.validatorSet (registry.change state call).1 .background position = .ok set ∧ call.change.shownBy set :=
        fun position reached => (kept [] call [] rest rfl applied).onward position reached trivial
      obtain ⟨answer, succeeded⟩ := exists_of_is_ok applied
      constructor
      · -- The change is in force at its own height.
        have inForce : InForceAt (recorded state) (registry.resolved state call.height) (registry.resolved state call.height) :=
          ⟨UInt64.le_refl _, fun _ _ within => within⟩
        obtain ⟨before, set, -, is, held, -⟩ := lawful.applied_there sound succeeded _ inForce
        obtain ⟨set', is', shown⟩ := shows _ (UInt64.le_refl _)
        rw [is] at is'
        cases is'
        exact held.mp shown
      · intro height listed above
        obtain ⟨set, is, shown⟩ := shows height (UInt64.le_of_lt above)
        have superseded : ¬ InForceAt (recorded state) (registry.resolved state call.height) height := fun inForce =>
          UInt64.not_le.mpr above (inForce.2 height listed (UInt64.le_refl _))
        have nonzero := nonzero_of_le (resolved_nonzero (lawful.effective sound) call.height) (UInt64.le_of_lt above)
        rw [← lawful.applied_elsewhere sound succeeded height nonzero superseded]
        exact ⟨set, is, shown⟩
    · exact kept (call :: earlier) other later rest' (by rw [split, cons_append])

end Kept

section Opened

variable {policy : Option AdmissionPolicy} {initialHeight : Height} {validators : List Validator}

theorem new_in_memory_sound {registry : InMemoryRegistry} (opened : newInMemoryRegistry policy validators = .ok registry) : registry.Sound := by
  simp only [newInMemoryRegistry, bind_ok_iff, pure_ok_iff] at opened
  obtain ⟨⟨⟩, -, rfl⟩ := opened
  obtain ⟨version, shape⟩ : ∃ version : ValidatorSetVersion, (InMemoryRegistry.recordVersion
      ⟨policy, (SetSnapshot.mk validators).toMap, 1, [], []⟩ 1).versions = [version] ∧ version.height = 1 ∧ Keyed version.validators :=
    ⟨_, rfl, rfl, to_map_keyed _⟩
  obtain ⟨single, first, keyed⟩ := shape
  have positive : (1 : Height) ≠ 0 := by decide
  refine ⟨?_, ?_, ?_, positive, ?_⟩
  · rw [single]
    exact cons_ne_nil _ _
  · rw [InMemoryRegistry.heights, single]
    exact pairwise_singleton _ _
  · rw [InMemoryRegistry.heights, single, map_singleton, forall_mem_singleton, first]
    exact positive
  · rw [single, forall_mem_singleton]
    exact keyed

def StoreRegistry.empty : StoreRegistry := ⟨none, 1, [], ∅, none, ∅, []⟩

theorem new_store_registry_sound {registry : StoreRegistry}
    (opened : newStoreRegistryAt policy initialHeight .empty validators = .ok registry) : registry.Sound := by
  have nonzero : (if initialHeight = 0 then 1 else initialHeight) ≠ (0 : Height) := by
    split
    · decide
    · assumption
  generalize heightEq : (if initialHeight = 0 then 1 else initialHeight) = height at nonzero
  simp only [newStoreRegistryAt, heightEq] at opened
  have missing : loadLatest { empty with policy, effectiveHeight := height, events := [], pendingEvents := ∅ } height =
      .error .validatorSetNotFound := rfl
  rw [missing] at opened
  simp only [bind_ok_iff, pure_ok_iff] at opened
  obtain ⟨⟨⟩, -, rfl⟩ := opened
  refine ⟨nonzero, ⟨_, rfl⟩, ?_⟩
  intro listed found
  have same : listed = height := by simpa [StoreRegistry.recorded, commitWrites, snapshotWrites, write, empty] using found
  rw [same]
  exact ⟨nonzero, _, AList.lookup_insert _⟩

end Opened

-- Neither registry loses a change exactly when no version above the change's height is recorded that does not already show it, and, for the one
-- that stores documents, joined addresses are UTF-8.
theorem changes_kept_iff (policy : Option AdmissionPolicy) (initialHeight : Height) (validators : List Validator) (calls : List Call) :
    (∀ registry, newInMemoryRegistry policy validators = .ok registry →
      (ChangesKept inMemory registry calls ↔ Timely inMemory InMemoryRegistry.heights (fun _ => True) registry calls)) ∧
    ∀ registry, StoreRegistry.newStoreRegistryAt policy initialHeight .empty validators = .ok registry →
      (ChangesKept storeBacked registry calls ↔ Timely storeBacked StoreRegistry.recorded StoreRegistry.Faithful registry calls) := by
  constructor
  · intro registry opened
    have sound := new_in_memory_sound opened
    exact ⟨timely_of_changes_kept InMemoryRegistry.lawful calls sound, changes_kept_of_timely InMemoryRegistry.lawful sound⟩
  · intro registry opened
    have sound := new_store_registry_sound opened
    exact ⟨timely_of_changes_kept StoreRegistry.lawful calls sound, changes_kept_of_timely StoreRegistry.lawful sound⟩

theorem past_sets_immutable (policy : Option AdmissionPolicy) (initialHeight : Height) (validators : List Validator) (earlier later : List Call) :
    (∀ registry, newInMemoryRegistry policy validators = .ok registry → PastKept inMemory (inMemory.after registry earlier) later) ∧
    ∀ registry, StoreRegistry.newStoreRegistryAt policy initialHeight .empty validators = .ok registry →
      PastKept storeBacked (storeBacked.after registry earlier) later := by
  constructor
  · intro registry opened
    exact past_kept InMemoryRegistry.lawful (after_sound InMemoryRegistry.lawful (new_in_memory_sound opened) earlier)
  · intro registry opened
    exact past_kept StoreRegistry.lawful (after_sound StoreRegistry.lawful (new_store_registry_sound opened) earlier)

def twoValidators : List Validator := [⟨utf8 "alice", [], 1, 1⟩, ⟨utf8 "bob", [], 1, 1⟩]

def raiseAlice (height : Height) : Call := ⟨.background, height, .setPower (utf8 "alice") 5⟩

def raiseBob (height : Height) : Call := ⟨.background, height, .setPower (utf8 "bob") 7⟩

def losesLast {State : Type} (registry : VersionedRegistry State) (earlier : List Call) (call : Call) (position : Height) (state : State) : Bool :=
  let (changed, outcome) := registry.change (registry.after state earlier) call
  outcome.isOk && decide (registry.resolved (registry.after state earlier) call.height ≤ position) &&
    (registry.validatorSet changed .background position).toOption.all fun set => !decide (call.change.shownBy set)

theorem not_kept_of_loses {State : Type} {registry : VersionedRegistry State} {earlier : List Call} {call : Call} {position : Height} {state : State}
    (loses : losesLast registry earlier call position state = true) : ¬ ChangesKept registry state (earlier ++ [call]) := by
  intro kept
  simp only [losesLast, Bool.and_eq_true, decide_eq_true_eq] at loses
  obtain ⟨⟨applied, reached⟩, hidden⟩ := loses
  obtain ⟨set, is, shown⟩ := (kept earlier call [] [] rfl applied).onward position reached trivial
  rw [show registry.after (registry.change (registry.after state earlier) call).1 [] = (registry.change (registry.after state earlier) call).1 from rfl]
    at is
  rw [is] at hidden
  simp only [Except.toOption, Option.all_some, Bool.not_eq_true', decide_eq_false_iff_not] at hidden
  exact hidden shown

-- Bob's power is raised from height five on, but the version at height ten was taken before and keeps the old one.
theorem earlier_change_lost : ∃ registry stored, newInMemoryRegistry none twoValidators = .ok registry ∧
      StoreRegistry.newStoreRegistryAt none 1 .empty twoValidators = .ok stored ∧
      ¬ ChangesKept inMemory registry [raiseAlice 10, raiseBob 5] ∧ ¬ ChangesKept storeBacked stored [raiseAlice 10, raiseBob 5] := by
  obtain ⟨registry, opened, loses⟩ := exists_ok_of_any
    (show (newInMemoryRegistry none twoValidators).toOption.any (losesLast inMemory [raiseAlice 10] (raiseBob 5) 10) = true by with_unfolding_all decide)
  obtain ⟨stored, openedStore, losesStored⟩ := exists_ok_of_any (show (newStoreRegistryAt none 1 .empty twoValidators).toOption.any
    (losesLast storeBacked [raiseAlice 10] (raiseBob 5) 10) = true by with_unfolding_all decide)
  exact ⟨registry, stored, opened, openedStore, not_kept_of_loses loses, not_kept_of_loses losesStored⟩

theorem rising_changes_kept :
    ∃ registry, newInMemoryRegistry none twoValidators = .ok registry ∧ ChangesKept inMemory registry [raiseBob 5, raiseAlice 10] := by
  obtain ⟨registry, opened, heights⟩ := exists_ok_of_any (show (newInMemoryRegistry none twoValidators).toOption.any (fun registry =>
    registry.heights = [1] ∧ (inMemory.change registry (raiseBob 5)).1.heights = [1, 5]) = true by with_unfolding_all decide)
  simp only [Bool.decide_and, Bool.and_eq_true, decide_eq_true_eq] at heights
  refine ⟨registry, opened, ((changes_kept_iff none 1 twoValidators [raiseBob 5, raiseAlice 10]).1 registry opened).mpr ?_⟩
  refine ⟨fun _ => ⟨trivial, fun height listed above => ?_⟩, fun _ => ⟨trivial, fun height listed above => ?_⟩, trivial⟩
  · rw [heights.1, mem_singleton] at listed
    rw [listed] at above
    exact absurd above (by decide : ¬ (5 : Height) < 1)
  · rw [heights.2] at listed
    have below : height ≤ 5 := by
      rcases mem_cons.mp listed with rfl | last
      · decide
      · exact UInt64.le_of_eq (mem_singleton.mp last)
    exact absurd (UInt64.lt_of_lt_of_le above below) (by decide : ¬ (10 : Height) < 5)

inductive Operation where
  | change (call : Call)
  | lookup (ctx : Context) (height : Height)
  | reopen (initialHeight : Height) (validators : List Validator)

inductive Answer where
  | changed (outcome : Except Err (Option Validator))
  | found (outcome : Except Err SetSnapshot)
  | reopened (outcome : Except Err Unit)

def Answer.failed : Answer → Prop
  | .changed outcome => ∃ reason, outcome = .error reason
  | .found outcome => ∃ reason, outcome = .error reason
  | .reopened outcome => ∃ reason, outcome = .error reason

def InMemoryRegistry.operate (registry : InMemoryRegistry) : Operation → InMemoryRegistry × Answer
  | .change call => ((inMemory.change registry call).1, .changed (inMemory.change registry call).2)
  | .lookup ctx height => (registry, .found (inMemory.validatorSet registry ctx height))
  | .reopen _ _ => (registry, .reopened (.ok ()))

variable (policy : Option AdmissionPolicy)

-- Reopening builds a new registry on the documents the old one left in the store.
def StoreRegistry.operate (registry : StoreRegistry) : Operation → StoreRegistry × Answer
  | .change call => ((storeBacked.change registry call).1, .changed (storeBacked.change registry call).2)
  | .lookup ctx height => (registry, .found (storeBacked.validatorSet registry ctx height))
  | .reopen initialHeight validators =>
    match newStoreRegistryAt policy initialHeight registry validators with
    | .ok registry => (registry, .reopened (.ok ()))
    | .error reason => (registry, .reopened (.error reason))

structure LooksSame {State : Type} (registry : VersionedRegistry State) (left right : State) : Prop where
  events : registry.rotationEvents left = registry.rotationEvents right
  sets : ∀ ctx height, registry.validatorSet left ctx height = registry.validatorSet right ctx height

def Agree (policy : Option AdmissionPolicy) : InMemoryRegistry → StoreRegistry → List Operation → Prop
  | memory, stored, [] => memory.events = stored.events
  | memory, stored, operation :: rest =>
    memory.events = stored.events ∧ (memory.operate operation).2 = (stored.operate policy operation).2 ∧
    ((memory.operate operation).2.failed →
      LooksSame inMemory (memory.operate operation).1 memory ∧ LooksSame storeBacked (stored.operate policy operation).1 stored) ∧
    Agree policy (memory.operate operation).1 (stored.operate policy operation).1 rest

def Change.admitted (ctx : Context) (set : SetSnapshot) : Change → Prop
  | .join candidate => set.get candidate.address = none ∧ candidate.stake ≠ 0 ∧ ∀ canJoin ∈ policy, (canJoin ctx candidate set).isOk
  | .leave id => (set.get id).isSome
  | .setPower id _ => (set.get id).isSome

-- A call the set in force refuses is made at the effective height, a joined address is UTF-8, and the registry is reopened at its effective height.
def Steady (memory : InMemoryRegistry) : Operation → Prop
  | .change call =>
    StoreRegistry.Faithful call.change ∧ if call.change.malformed = none then
        inMemory.resolved memory call.height = memory.effectiveHeight ∨ call.ctx.done = false ∧
          call.change.admitted memory.policy call.ctx (memory.snapshotAt (inMemory.resolved memory call.height))
      else call.ctx.done = false
  | .lookup _ _ => True
  | .reopen initialHeight _ => (if initialHeight = 0 then 1 else initialHeight) = memory.effectiveHeight

def AllSteady : InMemoryRegistry → List Operation → Prop
  | _, [] => True
  | memory, operation :: rest => Steady memory operation ∧ AllSteady (memory.operate operation).1 rest

def Ordered (validators : List Validator) : Prop :=
  validators.Pairwise (fun left right => left.id ≤ right.id) ∧ (validators.map Validator.id).Nodup

theorem mem_sorted_map {validators : Table ValidatorID Validator} (keyed : Keyed validators) (validator : Validator) :
    validator ∈ sortedValidatorMap validators ↔ validators.lookup validator.id = some validator := by
  rw [sortedValidatorMap, mem_insertionSort, mem_map]
  constructor
  · rintro ⟨entry, stored, rfl⟩
    have found : validators.lookup entry.1 = some entry.2 := mem_lookup_iff.mpr stored
    rwa [keyed entry.1 entry.2 found]
  · intro found
    exact ⟨_, mem_lookup_iff.mp found, rfl⟩

variable {validators : List Validator}

theorem get_distinct (distinct : (validators.map Validator.id).Nodup) (validator : Validator) :
    (SetSnapshot.mk validators).get validator.id = some validator ↔ validator ∈ validators := by
  constructor
  · intro found
    exact (get_some found).1
  · intro listed
    cases found : (SetSnapshot.mk validators).get validator.id with
    | none =>
      rw [SetSnapshot.get, find?_eq_none] at found
      exact absurd (by simp) (found validator (mem_reverse.mpr listed))
    | some other =>
      obtain ⟨otherListed, named⟩ := get_some found
      rw [inj_on_of_nodup_map distinct otherListed listed named]

theorem sorted_map_ordered {validators : Table ValidatorID Validator} (keyed : Keyed validators) : Ordered (sortedValidatorMap validators) := by
  refine ⟨pairwise_insertionSort _ _, ?_⟩
  have names : (validators.entries.map Sigma.snd).map Validator.id = validators.keys := by
    rw [AList.keys, List.keys, map_map]
    refine map_congr_left fun entry stored => ?_
    exact keyed entry.1 entry.2 (mem_lookup_iff.mpr stored)
  have perm := (perm_insertionSort (fun left right : Validator => left.id ≤ right.id) (validators.entries.map Sigma.snd)).map Validator.id
  rw [names] at perm
  exact perm.nodup_iff.mpr validators.keys_nodup

theorem sorted_eq_of_members {left right : List Validator} (leftOrdered : Ordered left) (rightOrdered : Ordered right)
    (members : ∀ validator, validator ∈ left ↔ validator ∈ right) : left = right := by
  refine Perm.eq_of_pairwise ?_ leftOrdered.1 rightOrdered.1 ?_
  · intro first second firstListed secondListed before after
    have firstListed' := (members first).mp firstListed
    exact inj_on_of_nodup_map rightOrdered.2 firstListed' secondListed (List.le_antisymm before after)
  · exact (perm_ext_iff_of_nodup leftOrdered.2.of_map rightOrdered.2.of_map).mpr members

theorem sorted_map_distinct (distinct : (validators.map Validator.id).Nodup) :
    sortedValidatorMap (SetSnapshot.mk validators).toMap = sortedValidators validators := by
  have perm := perm_insertionSort (fun left right : Validator => left.id ≤ right.id) validators
  have ordered : Ordered (sortedValidators validators) := ⟨pairwise_insertionSort _ _, (perm.map Validator.id).nodup_iff.mpr distinct⟩
  refine sorted_eq_of_members (sorted_map_ordered (to_map_keyed _)) ordered fun validator => ?_
  rw [mem_sorted_map (to_map_keyed _), to_map_lookup, get_distinct distinct, sortedValidators, mem_insertionSort]

theorem sorted_fixed (ordered : Ordered validators) : sortedValidators validators = validators :=
  ordered.1.insertionSort_eq

section Related

variable {policy : Option AdmissionPolicy} {memory : InMemoryRegistry} {stored : StoreRegistry}

structure Related (policy : Option AdmissionPolicy) (memory : InMemoryRegistry) (stored : StoreRegistry) : Prop where
  memorySound : memory.Sound
  storedSound : stored.Sound
  memoryPolicy : memory.policy = policy
  storedPolicy : stored.policy = policy
  effective : memory.effectiveHeight = stored.effectiveHeight
  events : memory.events = stored.events
  persisted : stored.persistedEvents = memory.events
  validEvents : ∀ event ∈ memory.events, Utf8.toValid event.validatorID = event.validatorID
  first : 1 ∈ memory.heights
  heights : ∀ listed, listed ∈ memory.heights ↔ listed ∈ stored.recorded
  sets : ∀ version ∈ memory.versions, ∃ document, stored.sets.lookup version.height = some document ∧
    document.validators = sortedValidatorMap version.validators

theorem Related.load_latest (related : Related policy memory stored) {position : Height} (nonzero : position ≠ 0) :
    ∃ document, stored.loadLatest position = .ok document ∧ memory.snapshotAt position = ⟨document.validators⟩ ∧ Ordered document.validators := by
  have same : selectHeight position memory.heights = selectHeight position stored.recorded :=
    select_height_congr fun listed _ => related.heights listed
  have within : (1 : Height) ≤ position := by
    rw [UInt64.le_iff_toNat_le]
    have apart : position.toNat ≠ 0 := fun zero => nonzero (UInt64.toNat_inj.mp zero)
    exact Nat.one_le_iff_ne_zero.mpr apart
  have selected := select_height_selected related.first within (related.memorySound.positive 1 related.first)
  have chosen := related.memorySound.positive _ selected.1
  rcases InMemoryRegistry.snapshot_at_selected related.memorySound position with ⟨version, listed, under, shown⟩ | ⟨zero, -⟩
  · obtain ⟨document, found, validators⟩ := related.sets version listed
    refine ⟨document, ?_, ?_, ?_⟩
    · rw [load_latest_recorded related.storedSound, ← same, if_pos chosen, ← under, found]
    · rw [shown, validators]
    · rw [validators]
      exact sorted_map_ordered (related.memorySound.keyed version listed)
  · exact absurd zero chosen

theorem Related.validator_set (related : Related policy memory stored) (ctx : Context) (height : Height) :
    storeBacked.validatorSet stored ctx height = inMemory.validatorSet memory ctx height := by
  have nonzero : inMemory.resolved memory height ≠ 0 := resolved_nonzero related.memorySound.effective height
  obtain ⟨document, read, shown, ordered⟩ := related.load_latest nonzero
  simp only [VersionedRegistry.resolved, inMemory] at read shown
  simp only [storeBacked, inMemory, InMemoryRegistry.validatorSet, validatorSet, ← related.effective, read, shown, bind, Except.bind,
    pure, Except.pure, require, sorted_fixed ordered]
  cases ctx.done <;> rfl

theorem admitted_edit {ctx : Context} {set : SetSnapshot} {change : Change} (admitted : change.admitted policy ctx set)
    (canonical : sortedValidatorMap set.toMap = set.validators) : (change.edit policy ctx set.toMap).isOk := by
  cases change with
  | join candidate =>
    obtain ⟨absent, staked, admits⟩ := admitted
    have shape : (SetSnapshot.mk (sortedValidatorMap set.toMap)) = set := by rw [canonical]
    simp only [Change.edit, to_map_lookup, absent, shape, Option.isSome_none, Bool.false_eq_true, if_false]
    cases policy with
    | none => simp only [staked, if_false]; rfl
    | some canJoin =>
      obtain ⟨⟨⟩, verdict⟩ := exists_of_is_ok (admits canJoin rfl)
      simp only [verdict, staked, if_false]
      rfl
  | leave id =>
    obtain ⟨validator, found⟩ := Option.isSome_iff_exists.mp admitted
    simp only [Change.edit, to_map_lookup, found, Option.isNone_some, Bool.false_eq_true, if_false]
    rfl
  | setPower id power =>
    obtain ⟨validator, found⟩ := Option.isSome_iff_exists.mp admitted
    simp only [Change.edit, to_map_lookup, found]
    rfl

theorem canonical_map {validators : List Validator} (ordered : Ordered validators) :
    sortedValidatorMap (SetSnapshot.mk validators).toMap = validators := by
  rw [sorted_map_distinct ordered.2, sorted_fixed ordered]

theorem event_written {event : RotationEvent} (valid : toValid event.validatorID = event.validatorID) : event.written = event := by
  rw [RotationEvent.written, valid]

theorem written_validators {validators : Table ValidatorID Validator} (keyed : Keyed validators)
    (valid : ∀ id validator, validators.lookup id = some validator → toValid id = id) :
    (writtenDocument (sortedValidatorMap validators)).validators = sortedValidatorMap validators := by
  have written := written_sorted keyed valid
  rw [written, sorted_fixed (sorted_map_ordered keyed)]

theorem changed_events (registry : StoreRegistry) (height : Height) (eventType : RotationEventType) (id : ValidatorID) (power : VotingPower)
    (validators : Table ValidatorID Validator) :
    let event : RotationEvent := ⟨height, eventType, id, power, SetSnapshot.hash ⟨sortedValidatorMap validators⟩⟩
    (registry.changed height eventType id power validators).events = registry.events ++ [event] ∧
      (registry.changed height eventType id power validators).persistedEvents = (registry.persistedEvents ++ [event]).map RotationEvent.written :=
  ⟨rfl, rfl⟩

theorem Related.applied (related : Related policy memory stored) {height : Height} (nonzero : height ≠ 0) {edited : Table ValidatorID Validator}
    (keyed : Keyed edited) (valid : ∀ id validator, edited.lookup id = some validator → toValid id = id) (eventType : RotationEventType)
    {id : ValidatorID} (validID : toValid id = id) (power : VotingPower) :
    Related policy ({ memory with validators := edited }.recordMutation height eventType id power)
      (stored.changed height eventType id power edited) := by
  have loaded := InMemoryRegistry.loaded_sound related.memorySound edited
  have versioned := changed_versioned stored height eventType id power edited
  obtain ⟨eventsEq, persistedEq⟩ := changed_events stored height eventType id power edited
  have members := (InMemoryRegistry.record_version_members { memory with validators := edited } loaded.ordered nonzero).2
  have validNow : ∀ event ∈ memory.events ++ [⟨height, eventType, id, power, SetSnapshot.hash ⟨sortedValidatorMap edited⟩⟩],
      toValid event.validatorID = event.validatorID := by
    intro event listed
    rcases mem_append.mp listed with before | last
    · exact related.validEvents event before
    · rw [mem_singleton.mp last]
      exact validID
  exact {
    memorySound := InMemoryRegistry.record_mutation_sound loaded nonzero
    storedSound := versioned.sound related.storedSound nonzero nonzero
    memoryPolicy := related.memoryPolicy
    storedPolicy := versioned.policy.trans related.storedPolicy
    effective := rfl
    events := by
      rw [eventsEq, ← related.events]
      rfl
    persisted := by
      rw [persistedEq, related.persisted]
      refine (map_congr_left fun event listed => ?_).trans (map_id _)
      exact event_written (validNow event listed)
    validEvents := validNow
    first := (InMemoryRegistry.record_mutation_heights loaded nonzero 1).mpr (.inl related.first)
    heights := fun listed => by
      rw [InMemoryRegistry.record_mutation_heights loaded nonzero, versioned.recorded related.storedSound]
      exact or_congr_left (related.heights listed)
    sets := by
      intro version listed
      rcases (members version).mp listed with rfl | ⟨kept, apart⟩
      · refine ⟨_, versioned.sets ▸ lookup_insert _, ?_⟩
        rw [written_validators keyed valid]
        exact (canonical_map (sorted_map_ordered keyed)).symm
      · obtain ⟨document, found, same⟩ := related.sets version kept
        refine ⟨document, ?_, same⟩
        rw [versioned.sets, lookup_insert_ne apart]
        exact found }

end Related

section Steps

variable {policy : Option AdmissionPolicy} {memory : InMemoryRegistry} {stored : StoreRegistry}

theorem looks_same_refl {State : Type} (registry : VersionedRegistry State) (state : State) : LooksSame registry state state :=
  ⟨rfl, fun _ _ => rfl⟩

theorem loaded_looks_same (sound : memory.Sound) (validators : Table ValidatorID Validator) :
    LooksSame inMemory { memory with validators } memory := by
  refine ⟨rfl, fun ctx height => ?_⟩
  simp only [inMemory, InMemoryRegistry.validatorSet, InMemoryRegistry.loaded_snapshot sound]

theorem Related.loaded (related : Related policy memory stored) (validators : Table ValidatorID Validator) :
    Related policy { memory with validators } stored :=
  { related with memorySound := InMemoryRegistry.loaded_sound related.memorySound validators }

theorem moved_in_place (related : Related policy memory stored) {height : Height} (inPlace : height = memory.effectiveHeight) :
    stored.setEffectiveHeight height = stored := by
  have nonzero : height ≠ 0 := inPlace ▸ related.memorySound.effective
  rw [setEffectiveHeight, if_neg nonzero, inPlace, related.effective]

theorem change_id_valid {ctx : Context} {validators edited : Table ValidatorID Validator} {change : Change} {eventType : RotationEventType}
    {power : VotingPower} {answer : Option Validator} (faithful : StoreRegistry.Faithful change)
    (valid : ∀ id validator, validators.lookup id = some validator → toValid id = id)
    (done : change.edit policy ctx validators = .ok (edited, eventType, power, answer)) : toValid change.validatorID = change.validatorID := by
  cases change with
  | join candidate => exact faithful
  | leave id =>
    simp only [Change.edit] at done
    split at done
    · cases done
    · next present =>
        cases found : validators.lookup id with
        | none => exact absurd (by rw [found]; rfl) present
        | some validator => exact valid id validator found
  | setPower id power =>
    simp only [Change.edit] at done
    split at done
    · cases done
    · next validator found => exact valid id validator found

theorem Related.change (related : Related policy memory stored) {call : Call} (steady : Steady memory (.change call)) :
    (inMemory.change memory call).2 = (storeBacked.change stored call).2 ∧
      Related policy (inMemory.change memory call).1 (storeBacked.change stored call).1 ∧
      ((∃ reason, (inMemory.change memory call).2 = .error reason) →
        LooksSame inMemory (inMemory.change memory call).1 memory ∧ LooksSame storeBacked (storeBacked.change stored call).1 stored) := by
  obtain ⟨faithful, timely⟩ := steady
  have resolved : storeBacked.resolved stored call.height = inMemory.resolved memory call.height := by
    simp only [VersionedRegistry.resolved, storeBacked, inMemory, related.effective]
  have nonzero : inMemory.resolved memory call.height ≠ 0 := resolved_nonzero related.memorySound.effective call.height
  rw [in_memory_change, store_backed_change, resolved]
  generalize inMemory.resolved memory call.height = height at timely nonzero
  cases malformed : call.change.malformed with
  | some reason =>
    rw [malformed, if_neg (Option.some_ne_none reason)] at timely
    simp only [timely, Bool.false_eq_true, if_false]
    exact ⟨trivial, related, fun _ => ⟨looks_same_refl _ _, looks_same_refl _ _⟩⟩
  | none =>
    rw [if_pos malformed] at timely
    obtain ⟨document, read, shown, ordered⟩ := related.load_latest nonzero
    by_cases done : call.ctx.done
    · -- Both fail on the context, the store-backed registry after it has set the height it already has.
      have inPlace := timely.resolve_right fun live => by simp [done] at live
      have unmoved := moved_in_place related inPlace
      simp only [done, if_true, unmoved, currentValidators]
      exact ⟨trivial, related, fun _ => ⟨looks_same_refl _ _, looks_same_refl _ _⟩⟩
    · have moved : stored.setEffectiveHeight height = { stored with effectiveHeight := height } := by
        rw [setEffectiveHeight, if_neg nonzero]
      have current : ({ stored with effectiveHeight := height } : StoreRegistry).currentValidators call.ctx =
          .ok (SetSnapshot.mk document.validators).toMap := by
        have sameLoad : ({ stored with effectiveHeight := height } : StoreRegistry).loadLatest height = stored.loadLatest height := rfl
        simp only [currentValidators, done, Bool.false_eq_true, if_false, validatorsAt, sameLoad, read, bind, Except.bind, pure, Except.pure]
      have samePolicy : call.change.edit stored.policy call.ctx (SetSnapshot.mk document.validators).toMap =
          call.change.edit memory.policy call.ctx (SetSnapshot.mk document.validators).toMap := by
        rw [related.storedPolicy, related.memoryPolicy]
      simp only [done, Bool.false_eq_true, if_false, moved, current, InMemoryRegistry.loadedAt, shown, samePolicy]
      cases edited : call.change.edit memory.policy call.ctx (SetSnapshot.mk document.validators).toMap with
      | error reason =>
        have inPlace : height = memory.effectiveHeight := by
          refine timely.resolve_right fun live => ?_
          rw [shown] at live
          have accepted := admitted_edit live.2 (canonical_map ordered)
          rw [edited] at accepted
          cases accepted
        have unmoved : ({ stored with effectiveHeight := height } : StoreRegistry) = stored := by rw [inPlace, related.effective]
        dsimp only
        rw [unmoved]
        exact ⟨rfl, related.loaded _, fun _ => ⟨loaded_looks_same related.memorySound _, looks_same_refl _ _⟩⟩
      | ok result =>
        obtain ⟨validators, eventType, power, answer⟩ := result
        have valid : ∀ id validator, (SetSnapshot.mk document.validators).toMap.lookup id = some validator → toValid id = id :=
          fun _ _ found => document_valid document found
        refine ⟨rfl, ?_, fun failed => by obtain ⟨reason, failed⟩ := failed; cases failed⟩
        exact related.applied nonzero (edit_keyed (to_map_keyed _) edited) (edited_valid document edited faithful) eventType
          (change_id_valid faithful valid edited) power

end Steps

section Runs

variable {policy : Option AdmissionPolicy} {memory : InMemoryRegistry} {stored : StoreRegistry}
variable (related : Related policy memory stored)
include related

theorem Related.reopen {initialHeight : Height} (validators : List Validator)
    (inPlace : (if initialHeight = 0 then 1 else initialHeight) = memory.effectiveHeight) :
    ∃ opened, StoreRegistry.newStoreRegistryAt policy initialHeight stored validators = .ok opened ∧ Related policy memory opened := by
  obtain ⟨document, read, -, -⟩ := related.load_latest related.memorySound.effective
  let opened : StoreRegistry :=
    { stored with policy := policy, effectiveHeight := memory.effectiveHeight, events := stored.persistedEvents, pendingEvents := ∅ }
  refine ⟨opened, ?_, ?_⟩
  · have sameLoad : ({ stored with policy := policy, effectiveHeight := memory.effectiveHeight, events := [], pendingEvents := ∅ } :
        StoreRegistry).loadLatest memory.effectiveHeight = stored.loadLatest memory.effectiveHeight := rfl
    simp only [StoreRegistry.newStoreRegistryAt, inPlace, sameLoad, read]
    rfl
  · exact { related with
      storedSound := ⟨related.memorySound.effective, related.storedSound.stored, related.storedSound.documents⟩
      storedPolicy := rfl
      effective := rfl
      events := related.persisted.symm }

theorem Related.operate {operation : Operation} (steady : Steady memory operation) :
    (memory.operate operation).2 = (stored.operate policy operation).2 ∧
      Related policy (memory.operate operation).1 (stored.operate policy operation).1 ∧
      ((memory.operate operation).2.failed →
        LooksSame inMemory (memory.operate operation).1 memory ∧ LooksSame storeBacked (stored.operate policy operation).1 stored) := by
  cases operation with
  | change call =>
    obtain ⟨same, next, unchanged⟩ := related.change steady
    exact ⟨congrArg Answer.changed same, next, unchanged⟩
  | lookup ctx height =>
    exact ⟨congrArg Answer.found (related.validator_set ctx height).symm, related, fun _ => ⟨looks_same_refl _ _, looks_same_refl _ _⟩⟩
  | reopen initialHeight validators =>
    obtain ⟨opened, success, next⟩ := related.reopen validators steady
    simp only [InMemoryRegistry.operate, StoreRegistry.operate, success]
    exact ⟨trivial, next, fun failed => by obtain ⟨reason, failed⟩ := failed; cases failed⟩

theorem Related.agree (operations : List Operation) (steady : AllSteady memory operations) : Agree policy memory stored operations := by
  induction operations generalizing memory stored with
  | nil => exact related.events
  | cons operation rest ih =>
    obtain ⟨same, next, unchanged⟩ := related.operate steady.1
    exact ⟨related.events, same, unchanged, ih next steady.2⟩

end Runs

section Opened

variable {policy : Option AdmissionPolicy} {initialHeight : Height} {validators : List Validator}

theorem document_of_distinct (distinct : (validators.map Validator.id).Nodup)
    (valid : ∀ validator ∈ validators, toValid validator.id = validator.id) :
    (writtenDocument validators).validators = sortedValidatorMap (SetSnapshot.mk validators).toMap := by
  rw [sorted_map_distinct distinct]
  refine (map_congr_left fun validator listed => ?_).trans (map_id _)
  exact written_fixed (valid validator ((mem_insertionSort _).mp listed))

theorem related_opened (policy : Option AdmissionPolicy) (first : initialHeight ≤ 1) (distinct : (validators.map Validator.id).Nodup)
    (valid : ∀ validator ∈ validators, toValid validator.id = validator.id) :
    (newInMemoryRegistry policy validators = .error .zeroVotingPower ∧
      StoreRegistry.newStoreRegistryAt policy initialHeight .empty validators = .error .zeroVotingPower) ∨
    ∃ memory stored, newInMemoryRegistry policy validators = .ok memory ∧
      StoreRegistry.newStoreRegistryAt policy initialHeight .empty validators = .ok stored ∧ Related policy memory stored := by
  have height : (if initialHeight = 0 then 1 else initialHeight) = (1 : Height) := by
    split
    · rfl
    · next nonzero =>
        refine UInt64.le_antisymm first ?_
        rw [UInt64.le_iff_toNat_le]
        exact Nat.one_le_iff_ne_zero.mpr fun zero => nonzero (UInt64.toNat_inj.mp zero)
  have missing : loadLatest { empty with policy := policy, effectiveHeight := 1, events := [], pendingEvents := ∅ } 1 =
      .error .validatorSetNotFound := rfl
  by_cases powered : ∀ validator ∈ validators, validator.votingPower ≠ 0
  · right
    have opened : newInMemoryRegistry policy validators =
        .ok (InMemoryRegistry.recordVersion ⟨policy, (SetSnapshot.mk validators).toMap, 1, [], []⟩ 1) := by
      rw [newInMemoryRegistry, require, if_pos powered]
      rfl
    have openedStore : StoreRegistry.newStoreRegistryAt policy initialHeight .empty validators =
        .ok (commitWrites { empty with policy := policy, effectiveHeight := 1, events := [], pendingEvents := ∅ }
          (snapshotWrites { empty with policy := policy, effectiveHeight := 1, events := [], pendingEvents := ∅ } 1
            validators)) := by
      simp only [StoreRegistry.newStoreRegistryAt, height, missing, require, if_pos powered]
      rfl
    refine ⟨_, _, opened, openedStore, ?_⟩
    exact {
      memorySound := new_in_memory_sound opened
      storedSound := new_store_registry_sound openedStore
      memoryPolicy := rfl
      storedPolicy := rfl
      effective := rfl
      events := rfl
      persisted := rfl
      validEvents := fun event listed => by cases listed
      first := mem_singleton_self _
      heights := fun listed => Iff.rfl
      sets := by
        intro version listed
        have only : version = ⟨1, (SetSnapshot.mk (sortedValidatorMap (SetSnapshot.mk validators).toMap)).toMap, _⟩ := mem_singleton.mp listed
        refine ⟨writtenDocument validators, ?_, ?_⟩
        · rw [only]
          exact lookup_insert _
        · rw [only, document_of_distinct distinct valid, canonical_map (sorted_map_ordered (to_map_keyed _))] }
  · left
    constructor
    · rw [newInMemoryRegistry, require, if_neg powered]
      rfl
    · simp only [StoreRegistry.newStoreRegistryAt, height, missing, require, if_neg powered]
      rfl

end Opened

theorem registries_agree (policy : Option AdmissionPolicy) (initialHeight : Height) (validators : List Validator) (operations : List Operation)
    (first : initialHeight ≤ 1) (distinct : (validators.map Validator.id).Nodup)
    (valid : ∀ validator ∈ validators, Utf8.toValid validator.id = validator.id) :
    (∃ reason, newInMemoryRegistry policy validators = .error reason ∧
      StoreRegistry.newStoreRegistryAt policy initialHeight .empty validators = .error reason) ∨
    ∃ memory stored, newInMemoryRegistry policy validators = .ok memory ∧
      StoreRegistry.newStoreRegistryAt policy initialHeight .empty validators = .ok stored ∧
      (AllSteady memory operations → Agree policy memory stored operations) := by
  rcases related_opened policy first distinct valid with ⟨refused, refusedStore⟩ | ⟨memory, stored, opened, openedStore, related⟩
  · exact .inl ⟨_, refused, refusedStore⟩
  · exact .inr ⟨memory, stored, opened, openedStore, related.agree operations⟩

def carolLeaves (height : Height) : Call := ⟨.background, height, .leave (utf8 "carol")⟩

def openBoth (validators : List Validator) : Except Err (InMemoryRegistry × StoreRegistry) := do
  let memory ← newInMemoryRegistry none validators
  let stored ← StoreRegistry.newStoreRegistryAt none 1 .empty validators
  return (memory, stored)

theorem open_both_ok {memory : InMemoryRegistry} {stored : StoreRegistry} (opened : openBoth validators = .ok (memory, stored)) :
    newInMemoryRegistry none validators = .ok memory ∧ StoreRegistry.newStoreRegistryAt none 1 .empty validators = .ok stored := by
  simp only [openBoth, bind_ok_iff, pure_ok_iff, Prod.mk.injEq] at opened
  obtain ⟨_, openedMemory, _, openedStore, rfl, rfl⟩ := opened
  exact ⟨openedMemory, openedStore⟩

-- A leave that fails moves the effective height of the store-backed registry only, so the next change at the effective height lands elsewhere.
theorem refused_leave_parts_registries : ∃ memory stored, newInMemoryRegistry none twoValidators = .ok memory ∧
      StoreRegistry.newStoreRegistryAt none 1 .empty twoValidators = .ok stored ∧
      ¬ Agree none memory stored [.change (carolLeaves 5), .change (raiseAlice 0), .lookup .background 1] := by
  obtain ⟨⟨memory, stored⟩, opened, parted⟩ := exists_ok_of_any (show (openBoth twoValidators).toOption.any (fun pair =>
      decide ((inMemory.validatorSet (inMemory.after pair.1 [carolLeaves 5, raiseAlice 0]) .background 1).toOption ≠
        (storeBacked.validatorSet (storeBacked.after pair.2 [carolLeaves 5, raiseAlice 0]) .background 1).toOption)) = true by
    with_unfolding_all decide)
  refine ⟨memory, stored, (open_both_ok opened).1, (open_both_ok opened).2, fun agree => ?_⟩
  obtain ⟨-, -, -, -, -, -, -, same, -⟩ := agree
  rw [decide_eq_true_eq] at parted
  exact parted (congrArg Except.toOption (Answer.found.inj same))

theorem steady_run_agrees : ∃ memory stored, newInMemoryRegistry none twoValidators = .ok memory ∧
      StoreRegistry.newStoreRegistryAt none 1 .empty twoValidators = .ok stored ∧
      Agree none memory stored [.change (raiseAlice 10), .reopen 10 [], .change (carolLeaves 0), .lookup .background 7] := by
  have distinct : (twoValidators.map Validator.id).Nodup := by with_unfolding_all decide
  have valid : ∀ validator ∈ twoValidators, toValid validator.id = validator.id := by with_unfolding_all decide
  obtain ⟨⟨memory, stored⟩, opened, steady⟩ := exists_ok_of_any (show (openBoth twoValidators).toOption.any (fun pair =>
      decide (((pair.1.snapshotAt 10).get (utf8 "alice")).isSome ∧ (inMemory.change pair.1 (raiseAlice 10)).1.effectiveHeight = 10)) = true by
    with_unfolding_all decide)
  rw [decide_eq_true_eq] at steady
  obtain ⟨openedMemory, openedStore⟩ := open_both_ok opened
  refine ⟨memory, stored, openedMemory, openedStore, ?_⟩
  have agree := registries_agree none 1 twoValidators [.change (raiseAlice 10), .reopen 10 [], .change (carolLeaves 0), .lookup .background 7]
    (UInt64.le_refl 1) distinct valid
  rcases agree with ⟨reason, refused, -⟩ | ⟨memory', stored', opened', openedStore', agree⟩
  · rw [openedMemory] at refused
    cases refused
  · rw [openedMemory] at opened'
    rw [openedStore] at openedStore'
    cases opened'
    cases openedStore'
    refine agree ⟨⟨trivial, ?_⟩, steady.2.symm, ⟨trivial, ?_⟩, trivial, trivial⟩
    · exact .inr ⟨rfl, steady.1⟩
    · exact .inl rfl

end Vexo
