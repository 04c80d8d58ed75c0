import VexoConsensus.Runtime.RegistryVersions

namespace Vexo

open Checks OrderedMap StoreRegistry List AList

-- A version recorded at a height is in force from there to the next recorded one.
def InForceAt (recorded : List Height) (height position : Height) : Prop :=
  height ≤ position ∧ ∀ other ∈ recorded, other ≤ position → other ≤ height

variable {height : Height}

theorem select_height_record {recorded later : List Height} (nonzero : height ≠ 0)
    (members : ∀ listed, listed ∈ later ↔ listed ∈ recorded ∨ listed = height) (position : Height) :
    (InForceAt recorded height position → selectHeight position later = height) ∧
      (¬ InForceAt recorded height position → selectHeight position later = selectHeight position recorded ∧
        (selectHeight position recorded ≠ height ∨ selectHeight position recorded = 0)) := by
  have before := select_height_spec position recorded
  constructor
  · rintro ⟨within, latest⟩
    refine select_height_eq ((members height).mpr (.inr rfl)) within fun other listed bounded => ?_
    rcases (members other).mp listed with earlier | rfl
    · exact latest other earlier bounded
    · exact UInt64.le_refl _
  · intro superseded
    by_cases within : height ≤ position
    · -- Another version lies between the height and the position.
      obtain ⟨other, otherListed, otherWithin, above⟩ : ∃ other ∈ recorded, other ≤ position ∧ ¬ other ≤ height := by
        by_contra none
        push Not at none
        exact superseded ⟨within, none⟩
      have beyond := UInt64.lt_of_lt_of_le (UInt64.not_le.mp above) (before.2 other otherListed otherWithin)
      obtain ⟨found, bounded⟩ := before.1.resolve_left fun zero => UInt64.not_lt_zero (zero ▸ beyond)
      refine ⟨select_height_eq ((members _).mpr (.inl found)) bounded fun listed kept below => ?_,
        .inl fun same => UInt64.lt_irrefl height (same ▸ beyond)⟩
      rcases (members listed).mp kept with earlier | rfl
      · exact before.2 listed earlier below
      · exact UInt64.le_of_lt beyond
    · have same : selectHeight position later = selectHeight position recorded := by
        refine select_height_congr fun candidate bounded => (members candidate).trans (or_iff_left ?_)
        rintro rfl
        exact within bounded
      refine ⟨same, ?_⟩
      rcases before.1 with zero | ⟨-, bounded⟩
      · exact .inr zero
      · refine .inl fun chosen => ?_
        rw [chosen] at bounded
        exact within bounded

namespace InMemoryRegistry

variable (registry : InMemoryRegistry)

def heights : List Height := registry.versions.map ValidatorSetVersion.height

structure Sound : Prop where
  kept : registry.versions ≠ []
  ordered : registry.heights.Pairwise (· < ·)
  positive : ∀ height ∈ registry.heights, height ≠ 0
  effective : registry.effectiveHeight ≠ 0
  keyed : ∀ version ∈ registry.versions, Keyed version.validators

variable {registry : InMemoryRegistry}
variable {versions : List ValidatorSetVersion} {version : ValidatorSetVersion}

theorem same_version (ordered : (versions.map ValidatorSetVersion.height).Pairwise (· < ·))
    {left right : ValidatorSetVersion} (leftListed : left ∈ versions) (rightListed : right ∈ versions) (same : left.height = right.height) :
    left = right := by
  have distinct : (versions.map ValidatorSetVersion.height).Nodup := ordered.imp fun less => UInt64.ne_of_lt less
  exact inj_on_of_nodup_map distinct leftListed rightListed same

-- The set recorded at a height, and the empty one at height zero.
def Shows (registry : InMemoryRegistry) (height : Height) (set : SetSnapshot) : Prop :=
  (∃ version ∈ registry.versions, version.height = height ∧ set = ⟨sortedValidatorMap version.validators⟩) ∨ height = 0 ∧ set = ⟨[]⟩

theorem shows_unique (sound : registry.Sound) {height : Height} {left right : SetSnapshot} (first : registry.Shows height left)
    (second : registry.Shows height right) : left = right := by
  have positive : ∀ version ∈ registry.versions, version.height ≠ 0 := fun version listed => sound.positive _ (mem_map_of_mem listed)
  rcases first with ⟨version, listed, under, rfl⟩ | ⟨zero, rfl⟩ <;> rcases second with ⟨other, otherListed, otherUnder, rfl⟩ | ⟨otherZero, rfl⟩
  · rw [same_version sound.ordered listed otherListed (under.trans otherUnder.symm)]
  · exact absurd (under.trans otherZero) (positive version listed)
  · exact absurd (otherUnder.trans zero) (positive other otherListed)
  · rfl

theorem snapshot_at_selected (sound : registry.Sound) (position : Height) :
    registry.Shows (selectHeight position registry.heights) (registry.snapshotAt position) := by
  have some : registry.versions.isEmpty = false := by simpa using sound.kept
  have within : ∀ {version}, version ∈ registry.versions.filter (fun version => version.height ≤ position) ↔
      version ∈ registry.versions ∧ version.height ≤ position := by simp
  simp only [Shows, snapshotAt, some, Bool.false_eq_true, if_false]
  cases last : (registry.versions.filter fun version => version.height ≤ position).getLast? with
  | none =>
    refine .inr ⟨(select_height_spec position registry.heights).1.resolve_right fun found => ?_, rfl⟩
    obtain ⟨version, listed, chosen⟩ := mem_map.mp found.1
    have kept := within.mpr ⟨listed, chosen ▸ found.2⟩
    rw [getLast?_eq_none_iff.mp last] at kept
    cases kept
  | some version =>
    obtain ⟨earlier, shape⟩ := getLast?_eq_some_iff.mp last
    obtain ⟨listed, bounded⟩ := within.mp (mem_of_getLast? last)
    refine .inl ⟨version, listed, (select_height_eq (mem_map_of_mem listed) bounded fun height found below => ?_).symm, rfl⟩
    -- The versions are in order of height, so no other version within the position is later than the last one.
    have sorted : ((registry.versions.filter fun version => version.height ≤ position).map ValidatorSetVersion.height).Pairwise (· < ·) :=
      sound.ordered.sublist (filter_sublist.map _)
    obtain ⟨other, otherListed, rfl⟩ := mem_map.mp found
    have otherMember := within.mpr ⟨otherListed, below⟩
    rw [shape, mem_append, mem_singleton] at otherMember
    rw [shape, map_append, pairwise_append] at sorted
    rcases otherMember with before | rfl
    · exact UInt64.le_of_lt (sorted.2.2 _ (mem_map_of_mem before) _ (by simp))
    · exact UInt64.le_refl _

theorem place_version_none (absent : placeVersion version versions = none) : ∀ other ∈ versions, other.height ≠ version.height := by
  induction versions with
  | nil => exact fun _ listed => nomatch listed
  | cons head rest ih =>
    simp only [placeVersion] at absent
    split at absent
    · cases absent
    · next different =>
        exact forall_mem_cons.mpr ⟨different, ih (Option.map_eq_none_iff.mp absent)⟩

theorem place_version_some {placed : List ValidatorSetVersion}
    (ordered : (versions.map ValidatorSetVersion.height).Pairwise (· < ·)) (found : placeVersion version versions = some placed) :
    placed.map ValidatorSetVersion.height = versions.map ValidatorSetVersion.height ∧
      ∀ other, other ∈ placed ↔ other = version ∨ other ∈ versions ∧ other.height ≠ version.height := by
  induction versions generalizing placed with
  | nil => cases found
  | cons head rest ih =>
    obtain ⟨above, ordered⟩ := pairwise_cons.mp (map_cons ▸ ordered)
    simp only [placeVersion] at found
    split at found
    · next same =>
        cases found
        refine ⟨by simp [same], fun other => ?_⟩
        have apart : ∀ other ∈ rest, other.height ≠ version.height := by
          intro other listed equal
          have less := above other.height (mem_map_of_mem listed)
          rw [equal, same] at less
          exact UInt64.lt_irrefl _ less
        simp only [mem_cons]
        constructor
        · rintro (rfl | listed)
          · exact .inl rfl
          · exact .inr ⟨.inr listed, apart other listed⟩
        · rintro (rfl | ⟨rfl | listed, different⟩)
          · exact .inl rfl
          · exact absurd same different
          · exact .inr listed
    · next different =>
        obtain ⟨placed', placedRest, rfl⟩ := Option.map_eq_some_iff.mp found
        obtain ⟨sameHeights, members⟩ := ih ordered placedRest
        refine ⟨by simp [sameHeights], fun other => ?_⟩
        simp only [mem_cons, members]
        constructor
        · rintro (rfl | rfl | ⟨listed, apart⟩)
          · exact .inr ⟨.inl rfl, different⟩
          · exact .inl rfl
          · exact .inr ⟨.inr listed, apart⟩
        · rintro (rfl | ⟨rfl | listed, apart⟩)
          · exact .inr (.inl rfl)
          · exact .inl rfl
          · exact .inr (.inr ⟨listed, apart⟩)

theorem record_version_members (registry : InMemoryRegistry) (ordered : registry.heights.Pairwise (· < ·)) {height : Height} (nonzero : height ≠ 0) :
    (registry.recordVersion height).heights.Pairwise (· < ·) ∧ ∀ other, other ∈ (registry.recordVersion height).versions ↔
        other = ⟨height, registry.snapshot.toMap, registry.snapshot.hash⟩ ∨ other ∈ registry.versions ∧ other.height ≠ height := by
  simp only [recordVersion, nonzero, if_false, heights]
  cases found : placeVersion ⟨height, registry.snapshot.toMap, registry.snapshot.hash⟩ registry.versions with
  | some placed =>
    obtain ⟨sameHeights, members⟩ := place_version_some ordered found
    simp only [Option.getD_some]
    exact ⟨sameHeights ▸ ordered, members⟩
  | none =>
    have absent := place_version_none found
    simp only [Option.getD_none, mem_insertionSort, mem_append, mem_singleton]
    refine ⟨?_, fun other => ?_⟩
    · generalize newEq : registry.versions ++ [⟨height, registry.snapshot.toMap, registry.snapshot.hash⟩] = versions
      have distinct : (versions.map ValidatorSetVersion.height).Nodup := by
        rw [← newEq, map_append, nodup_append]
        refine ⟨ordered.imp fun less => UInt64.ne_of_lt less, nodup_singleton _, ?_⟩
        intro earlier listed last same equal
        obtain ⟨other, otherListed, rfl⟩ := mem_map.mp listed
        rw [map_singleton, mem_singleton] at same
        exact absent other otherListed (equal.trans same)
      have sorted := pairwise_insertionSort (fun left right : ValidatorSetVersion => left.height ≤ right.height) versions
      have apart := ((perm_insertionSort (fun left right : ValidatorSetVersion => left.height ≤ right.height) versions).map
        ValidatorSetVersion.height).nodup_iff.mpr distinct
      rw [Nodup, pairwise_map] at apart
      rw [pairwise_map]
      exact (sorted.and apart).imp fun both => UInt64.lt_of_le_of_ne both.1 both.2
    · constructor
      · rintro (listed | rfl)
        · exact .inr ⟨listed, absent other listed⟩
        · exact .inl rfl
      · rintro (rfl | ⟨listed, -⟩)
        · exact .inr rfl
        · exact .inl listed

section Recorded

variable {height : Height} {eventType : RotationEventType} {id : ValidatorID} {power : VotingPower}
variable (sound : registry.Sound)
include sound
variable (nonzero : height ≠ 0)
include nonzero

theorem record_mutation_heights (listed : Height) :
    listed ∈ (registry.recordMutation height eventType id power).heights ↔ listed ∈ registry.heights ∨ listed = height := by
  have members := (registry.record_version_members sound.ordered nonzero).2
  simp only [heights, recordMutation, mem_map]
  constructor
  · rintro ⟨other, found, rfl⟩
    rcases (members other).mp found with rfl | ⟨kept, -⟩
    · exact .inr rfl
    · exact .inl ⟨other, kept, rfl⟩
  · rintro (⟨other, kept, rfl⟩ | rfl)
    · by_cases same : other.height = height
      · exact ⟨_, (members _).mpr (.inl rfl), same.symm⟩
      · exact ⟨other, (members other).mpr (.inr ⟨kept, same⟩), rfl⟩
    · exact ⟨_, (members _).mpr (.inl rfl), rfl⟩

theorem record_mutation_sound : (registry.recordMutation height eventType id power).Sound where
  kept := by
    have recorded := ((registry.record_version_members sound.ordered nonzero).2 _).mpr (.inl rfl)
    exact ne_nil_of_mem recorded
  ordered := (registry.record_version_members sound.ordered nonzero).1
  positive := by
    intro listed found
    rcases (record_mutation_heights sound nonzero listed).mp found with kept | rfl
    · exact sound.positive listed kept
    · exact nonzero
  effective := nonzero
  keyed := by
    intro version listed
    rcases ((registry.record_version_members sound.ordered nonzero).2 version).mp listed with rfl | ⟨kept, -⟩
    · exact to_map_keyed registry.snapshot
    · exact sound.keyed version kept

theorem record_mutation_snapshot (eventType : RotationEventType) (id : ValidatorID) (power : VotingPower) (position : Height) :
    (InForceAt registry.heights height position → (registry.recordMutation height eventType id power).snapshotAt position =
      ⟨sortedValidatorMap registry.snapshot.toMap⟩) ∧
    (¬ InForceAt registry.heights height position →
      (registry.recordMutation height eventType id power).snapshotAt position = registry.snapshotAt position) := by
  have next : (registry.recordMutation height eventType id power).Sound := record_mutation_sound sound nonzero
  have members := (registry.record_version_members sound.ordered nonzero).2
  have heights : ∀ listed, listed ∈ (registry.recordMutation height eventType id power).heights ↔ listed ∈ registry.heights ∨ listed = height :=
    record_mutation_heights sound nonzero
  have selected := select_height_record nonzero heights position
  constructor
  · intro inForce
    have chosen := selected.1 inForce
    rcases snapshot_at_selected next position with ⟨version, listed, under, shown⟩ | ⟨zero, -⟩
    · rcases (members version).mp listed with rfl | ⟨-, apart⟩
      · exact shown
      · exact absurd (under.trans chosen) apart
    · exact absurd (chosen.symm.trans zero) nonzero
  · intro superseded
    obtain ⟨chosen, apart⟩ := selected.2 superseded
    have shown := snapshot_at_selected next position
    rw [chosen] at shown
    refine shows_unique sound ?_ (snapshot_at_selected sound position)
    rcases shown with ⟨version, listed, under, shown⟩ | none
    · rcases (members version).mp listed with rfl | ⟨kept, -⟩
      · rcases apart with different | none
        · exact absurd under.symm different
        · exact absurd (under.trans none) nonzero
      · exact .inl ⟨version, kept, under, shown⟩
    · exact .inr none

end Recorded

end InMemoryRegistry

namespace StoreRegistry

variable (registry : StoreRegistry)

def recorded : List Height := registry.heights.getD []

structure Sound : Prop where
  effective : registry.effectiveHeight ≠ 0
  stored : ∃ heights, registry.heights = some heights
  documents : ∀ height ∈ registry.recorded, height ≠ 0 ∧ ∃ document, registry.sets.lookup height = some document

variable {registry : StoreRegistry}

-- A change is saved after the effective height has moved to it.
def changed (registry : StoreRegistry) (height : Height) (eventType : RotationEventType) (id : ValidatorID) (power : VotingPower)
    (validators : Table ValidatorID Validator) : StoreRegistry :=
  { registry with effectiveHeight := height }.saveChange height eventType id power validators

theorem changed_versioned (registry : StoreRegistry) (height : Height) (eventType : RotationEventType) (id : ValidatorID)
    (power : VotingPower) (validators : Table ValidatorID Validator) :
    Versioned registry (registry.changed height eventType id power validators) height (writtenDocument (sortedValidatorMap validators)) := by
  obtain ⟨policy, heights, sets⟩ := snapshot_versioned { registry with effectiveHeight := height } height (sortedValidatorMap validators)
    [⟨height, eventType, id, power, SetSnapshot.hash ⟨sortedValidatorMap validators⟩⟩]
  exact ⟨policy, heights, sets⟩

section Saved

variable {height : Height} {next : StoreRegistry} {document : ValidatorSetDocument}

theorem Versioned.recorded (sound : registry.Sound) (versioned : Versioned registry next height document) (listed : Height) :
    listed ∈ next.recorded ↔ listed ∈ registry.recorded ∨ listed = height := by
  obtain ⟨heights, stored⟩ := sound.stored
  obtain ⟨later, kept, members⟩ := versioned.heights heights stored
  rw [StoreRegistry.recorded, StoreRegistry.recorded, kept, stored]
  exact members listed

theorem Versioned.sound (sound : registry.Sound) (versioned : Versioned registry next height document) (nonzero : height ≠ 0)
    (effective : next.effectiveHeight ≠ 0) : next.Sound where
  effective := effective
  stored := by
    obtain ⟨heights, stored⟩ := sound.stored
    obtain ⟨later, kept, -⟩ := versioned.heights heights stored
    exact ⟨later, kept⟩
  documents := by
    intro listed found
    rw [versioned.sets]
    by_cases same : listed = height
    · rw [same, lookup_insert]
      exact ⟨nonzero, document, rfl⟩
    · rw [lookup_insert_ne same]
      exact sound.documents listed (((versioned.recorded sound listed).mp found).resolve_right same)

theorem load_latest_recorded (sound : registry.Sound) (position : Height) : registry.loadLatest position =
      if selectHeight position registry.recorded ≠ 0 then match registry.sets.lookup (selectHeight position registry.recorded) with
        | some document => .ok document
        | none => .error .validatorSetMissing
      else .error .validatorSetNotFound := by
  obtain ⟨heights, stored⟩ := sound.stored
  rw [load_latest_eq stored, StoreRegistry.recorded, stored]
  rfl

theorem Versioned.load_latest_at (sound : registry.Sound) (versioned : Versioned registry next height document) (nonzero : height ≠ 0)
    (effective : next.effectiveHeight ≠ 0) (position : Height) :
    (InForceAt registry.recorded height position → next.loadLatest position = .ok document) ∧
      (¬ InForceAt registry.recorded height position → next.loadLatest position = registry.loadLatest position) := by
  have selected := select_height_record nonzero (versioned.recorded sound) position
  rw [load_latest_recorded (versioned.sound sound nonzero effective), load_latest_recorded sound, versioned.sets]
  constructor
  · intro inForce
    rw [selected.1 inForce, if_pos nonzero, lookup_insert]
  · intro superseded
    obtain ⟨chosen, apart⟩ := selected.2 superseded
    rw [chosen]
    by_cases zero : selectHeight position registry.recorded = 0
    · rw [if_neg (not_not.mpr zero), if_neg (not_not.mpr zero)]
    · rw [lookup_insert_ne (apart.resolve_right zero)]

end Saved

theorem written_fixed {validator : Validator} (valid : Utf8.toValid validator.id = validator.id) : validator.written = validator := by
  rw [Validator.written, valid]

variable {validators : Table ValidatorID Validator}

-- Identifiers that are UTF-8 come back from a document as they were written.
theorem written_sorted (keyed : Keyed validators) (valid : ∀ id validator, validators.lookup id = some validator → Utf8.toValid id = id) :
    (writtenDocument (sortedValidatorMap validators)).validators = sortedValidators (sortedValidatorMap validators) := by
  refine (map_congr_left fun validator listed => ?_).trans (map_id _)
  rw [sortedValidators, mem_insertionSort, sortedValidatorMap, mem_insertionSort] at listed
  obtain ⟨entry, stored, rfl⟩ := mem_map.mp listed
  have found : validators.lookup entry.1 = some entry.2 := mem_lookup_iff.mpr stored
  apply written_fixed
  rw [keyed entry.1 entry.2 found]
  exact valid entry.1 entry.2 found

theorem written_get (keyed : Keyed validators)
    (valid : ∀ id validator, validators.lookup id = some validator → Utf8.toValid id = id) (id : ValidatorID) :
    (SetSnapshot.mk (sortedValidators (writtenDocument (sortedValidatorMap validators)).validators)).get id = validators.lookup id := by
  rw [get_sorted, written_sorted keyed valid, get_sorted, get_sorted_map keyed]

end StoreRegistry

-- What a call does to the set in force at each height, said once for both registries.
structure LawfulRegistry {State : Type} (registry : VersionedRegistry State) (Sound : State → Prop) (recorded : State → List Height)
    (Faithful : Change → Prop) : Prop where
  effective : ∀ {state}, Sound state → registry.effectiveHeight state ≠ 0
  change_sound : ∀ {state}, Sound state → ∀ call, Sound (registry.change state call).1
  refused : ∀ {state call reason}, Sound state → (registry.change state call).2 = .error reason →
    (∀ listed, listed ∈ recorded (registry.change state call).1 ↔ listed ∈ recorded state) ∧
      ∀ position ≠ 0, registry.validatorSet (registry.change state call).1 .background position = registry.validatorSet state .background position
  applied_recorded : ∀ {state call answer}, Sound state → (registry.change state call).2 = .ok answer →
    ∀ listed, listed ∈ recorded (registry.change state call).1 ↔ listed ∈ recorded state ∨ listed = registry.resolved state call.height
  applied_elsewhere : ∀ {state call answer}, Sound state → (registry.change state call).2 = .ok answer → ∀ position ≠ 0,
    ¬ InForceAt (recorded state) (registry.resolved state call.height) position →
    registry.validatorSet (registry.change state call).1 .background position = registry.validatorSet state .background position
  applied_there : ∀ {state call answer}, Sound state → (registry.change state call).2 = .ok answer → ∀ position,
    InForceAt (recorded state) (registry.resolved state call.height) position →
    ∃ before set, registry.validatorSet state .background position = .ok before ∧
      registry.validatorSet (registry.change state call).1 .background position = .ok set ∧ (call.change.shownBy set ↔ Faithful call.change) ∧
      (Faithful call.change → ∀ id ≠ call.change.validatorID, set.get id = before.get id)
  settled : ∀ {state}, Sound state → ∀ {height position}, height ∈ recorded state → height ≤ position →
    ∃ selected ∈ recorded state, height ≤ selected ∧ selected ≤ position ∧ ∃ set, registry.validatorSet state .background position = .ok set ∧
      registry.validatorSet state .background selected = .ok set

theorem resolved_nonzero {State : Type} {registry : VersionedRegistry State} {state : State} (effective : registry.effectiveHeight state ≠ 0)
    (height : Height) : registry.resolved state height ≠ 0 := by
  rw [VersionedRegistry.resolved]
  split
  · exact effective
  · assumption

variable {position : Height}

theorem nonzero_of_le (nonzero : height ≠ 0) (within : height ≤ position) : position ≠ 0 := by
  intro zero
  rw [zero] at within
  exact nonzero (UInt64.le_antisymm within UInt64.zero_le)

theorem select_height_selected {recorded : List Height} (listed : height ∈ recorded) (within : height ≤ position) (nonzero : height ≠ 0) :
    selectHeight position recorded ∈ recorded ∧ height ≤ selectHeight position recorded ∧ selectHeight position recorded ≤ position ∧
      selectHeight (selectHeight position recorded) recorded = selectHeight position recorded := by
  have spec := select_height_spec position recorded
  have reached := spec.2 height listed within
  have found := spec.1.resolve_left fun zero => nonzero (UInt64.le_antisymm (zero ▸ reached) UInt64.zero_le)
  exact ⟨found.1, reached, found.2, select_height_eq found.1 (UInt64.le_refl _) fun _ _ bounded => bounded⟩

namespace InMemoryRegistry

variable {registry : InMemoryRegistry} {call : Call}

theorem snapshot_at_congr (sound : registry.Sound) {left right : Height}
    (same : selectHeight left registry.heights = selectHeight right registry.heights) : registry.snapshotAt left = registry.snapshotAt right :=
  shows_unique sound (snapshot_at_selected sound left) (same ▸ snapshot_at_selected sound right)

theorem validator_set_at (registry : InMemoryRegistry) (nonzero : position ≠ 0) :
    inMemory.validatorSet registry .background position = .ok (registry.snapshotAt position) := by
  simp [inMemory, InMemoryRegistry.validatorSet, require, nonzero, Context.background, bind, Except.bind, pure, Except.pure]

theorem loaded_sound (sound : registry.Sound) (validators : Table ValidatorID Validator) : { registry with validators }.Sound :=
  ⟨sound.kept, sound.ordered, sound.positive, sound.effective, sound.keyed⟩

theorem change_cases (registry : InMemoryRegistry) (call : Call) :
    (∃ validators reason, inMemory.change registry call = ({ registry with validators }, .error reason)) ∨
    ∃ edited eventType power answer, call.change.edit registry.policy call.ctx (registry.snapshotAt (inMemory.resolved registry call.height)).toMap =
        .ok (edited, eventType, power, answer) ∧
      inMemory.change registry call =
        ({ registry with validators := edited }.recordMutation (inMemory.resolved registry call.height) eventType call.change.validatorID power,
          .ok answer) := by
  rw [in_memory_change]
  split
  · exact .inl ⟨registry.validators, _, rfl⟩
  · split
    · exact .inl ⟨registry.validators, _, rfl⟩
    · dsimp only
      split
      · exact .inl ⟨_, _, rfl⟩
      · next edited eventType power answer done => exact .inr ⟨edited, eventType, power, answer, done, rfl⟩

theorem loaded_snapshot (sound : registry.Sound) (validators : Table ValidatorID Validator) (position : Height) :
    { registry with validators }.snapshotAt position = registry.snapshotAt position := by
  have some : registry.versions.isEmpty = false := by simpa using sound.kept
  simp only [snapshotAt, some, Bool.false_eq_true, if_false]

theorem lawful : LawfulRegistry inMemory Sound heights fun _ => True where
  effective sound := sound.effective
  change_sound := by
    intro registry sound call
    rcases change_cases registry call with ⟨validators, reason, changed⟩ | ⟨edited, eventType, power, answer, -, changed⟩
    · rw [changed]
      exact loaded_sound sound validators
    · rw [changed]
      exact record_mutation_sound (loaded_sound sound edited) (resolved_nonzero sound.effective _)
  refused := by
    intro registry call reason sound failed
    rcases change_cases registry call with ⟨validators, other, changed⟩ | ⟨edited, eventType, power, answer, -, changed⟩
    · rw [changed]
      refine ⟨fun _ => Iff.rfl, fun position nonzero => ?_⟩
      rw [validator_set_at _ nonzero, validator_set_at _ nonzero, loaded_snapshot sound]
    · rw [changed] at failed
      cases failed
  applied_recorded := by
    intro registry call answer sound succeeded listed
    rcases change_cases registry call with ⟨validators, other, changed⟩ | ⟨edited, eventType, power, answer', -, changed⟩
    · rw [changed] at succeeded
      cases succeeded
    · rw [changed]
      exact record_mutation_heights (loaded_sound sound edited) (resolved_nonzero sound.effective _) listed
  applied_elsewhere := by
    intro registry call answer sound succeeded position nonzero superseded
    rcases change_cases registry call with ⟨validators, other, changed⟩ | ⟨edited, eventType, power, answer', -, changed⟩
    · rw [changed] at succeeded
      cases succeeded
    · rw [changed, validator_set_at _ nonzero, validator_set_at _ nonzero]
      have kept := (record_mutation_snapshot (loaded_sound sound edited) (resolved_nonzero sound.effective call.height) eventType
        call.change.validatorID power position).2 superseded
      rw [kept, loaded_snapshot sound]
  applied_there := by
    intro registry call answer sound succeeded position inForce
    rcases change_cases registry call with ⟨validators, other, changed⟩ | ⟨edited, eventType, power, answer', done, changed⟩
    · rw [changed] at succeeded
      cases succeeded
    · rw [changed]
      have nonzero := nonzero_of_le (resolved_nonzero sound.effective call.height) inForce.1
      have shown := (record_mutation_snapshot (loaded_sound sound edited) (resolved_nonzero sound.effective call.height) eventType
        call.change.validatorID power position).1 inForce
      have entries : ∀ id, (SetSnapshot.mk (sortedValidatorMap (SetSnapshot.mk (sortedValidatorMap edited)).toMap)).get id = edited.lookup id := by
        intro id
        rw [get_sorted_map (to_map_keyed _), to_map_lookup, get_sorted_map (edit_keyed (to_map_keyed _) done)]
      refine ⟨_, _, validator_set_at _ nonzero, (validator_set_at _ nonzero).trans (congrArg _ shown), iff_true_intro ?_, fun _ id other => ?_⟩
      · exact edit_shown done (entries _)
      · rw [snapshot_at_congr sound (select_height_between inForce.1 inForce.2), ← to_map_lookup (registry.snapshotAt _), ← edit_other done other]
        exact entries id
  settled := by
    intro registry sound height position listed within
    obtain ⟨found, reached, bounded, again⟩ := select_height_selected listed within (sound.positive height listed)
    refine ⟨_, found, reached, bounded, registry.snapshotAt position, validator_set_at _ ?_, (validator_set_at _ (sound.positive _ found)).trans ?_⟩
    · exact nonzero_of_le (sound.positive height listed) within
    · rw [snapshot_at_congr sound again]

end InMemoryRegistry

namespace StoreRegistry

variable {registry : StoreRegistry} {call : Call}

-- A document is JSON: an address that is not UTF-8 comes back as another one.
def Faithful : Change → Prop
  | .join candidate => Utf8.toValid candidate.address = candidate.address
  | .leave _ => True
  | .setPower _ _ => True

theorem validator_set_at (registry : StoreRegistry) (nonzero : position ≠ 0) : storeBacked.validatorSet registry .background position =
      (registry.loadLatest position).map fun document => ⟨sortedValidators document.validators⟩ := by
  simp only [storeBacked, Context.background, Bool.false_eq_true, if_false, validatorSet, nonzero]
  cases registry.loadLatest position <;> rfl

theorem change_cases (sound : registry.Sound) (call : Call) :
    (∃ effectiveHeight reason, effectiveHeight ≠ 0 ∧ storeBacked.change registry call = ({ registry with effectiveHeight }, .error reason)) ∨
    ∃ document edited eventType power answer, registry.loadLatest (storeBacked.resolved registry call.height) = .ok document ∧
      call.change.edit registry.policy call.ctx (SetSnapshot.mk document.validators).toMap = .ok (edited, eventType, power, answer) ∧
      storeBacked.change registry call =
        (registry.changed (storeBacked.resolved registry call.height) eventType call.change.validatorID power edited, .ok answer) := by
  have nonzero : storeBacked.resolved registry call.height ≠ 0 := resolved_nonzero sound.effective call.height
  have moved : registry.setEffectiveHeight (storeBacked.resolved registry call.height) =
      { registry with effectiveHeight := storeBacked.resolved registry call.height } := by
    rw [setEffectiveHeight, if_neg nonzero]
  rw [store_backed_change]
  split
  · exact .inl ⟨registry.effectiveHeight, _, sound.effective, rfl⟩
  · simp only [moved, currentValidators]
    by_cases done : call.ctx.done
    · simp only [done, if_true]
      exact .inl ⟨_, _, nonzero, rfl⟩
    · have sameLoad : { registry with effectiveHeight := storeBacked.resolved registry call.height }.loadLatest (storeBacked.resolved registry call.height) =
          registry.loadLatest (storeBacked.resolved registry call.height) := rfl
      simp only [done, Bool.false_eq_true, if_false, validatorsAt, sameLoad]
      cases registry.loadLatest (storeBacked.resolved registry call.height) with
      | error reason => exact .inl ⟨_, reason, nonzero, rfl⟩
      | ok document =>
        simp only [bind, Except.bind, pure, Except.pure]
        cases edited : call.change.edit registry.policy call.ctx (SetSnapshot.mk document.validators).toMap with
        | error reason => exact .inl ⟨_, reason, nonzero, rfl⟩
        | ok result =>
          obtain ⟨validators, eventType, power, answer⟩ := result
          exact .inr ⟨document, validators, eventType, power, answer, rfl, edited, rfl⟩

theorem load_latest_congr (sound : registry.Sound) {left right : Height}
    (same : selectHeight left registry.recorded = selectHeight right registry.recorded) : registry.loadLatest left = registry.loadLatest right := by
  rw [load_latest_recorded sound, load_latest_recorded sound, same]

variable (document : ValidatorSetDocument)

theorem document_valid {id : ValidatorID} {validator : Validator}
    (found : (SetSnapshot.mk document.validators).toMap.lookup id = some validator) : Utf8.toValid id = id := by
  rw [to_map_lookup] at found
  obtain ⟨listed, rfl⟩ := get_some found
  exact document.decoded validator listed

theorem edited_valid {policy : Option AdmissionPolicy} {ctx : Context} {edited : Table ValidatorID Validator} {change : Change}
    {eventType : RotationEventType} {power : VotingPower} {answer : Option Validator}
    (done : change.edit policy ctx (SetSnapshot.mk document.validators).toMap = .ok (edited, eventType, power, answer)) (faithful : Faithful change)
    (id : ValidatorID) (validator : Validator) (found : edited.lookup id = some validator) : Utf8.toValid id = id := by
  rcases edit_cases done with ⟨candidate, rfl, rfl⟩ | ⟨left, rfl, rfl⟩ | ⟨changed, weight, previous, rfl, stored, rfl⟩
  · rcases lookup_insert_cases found with ⟨rfl, -⟩ | ⟨-, kept⟩
    · exact faithful
    · exact document_valid document kept
  · exact document_valid document (lookup_erase_some found)
  · rcases lookup_insert_cases found with ⟨rfl, -⟩ | ⟨-, kept⟩
    · exact document_valid document stored
    · exact document_valid document kept

theorem shown_faithful {change : Change} {document : ValidatorSetDocument}
    (shown : change.shownBy ⟨sortedValidators document.validators⟩) : Faithful change := by
  cases change with
  | join candidate =>
    obtain ⟨listed, -⟩ := get_some shown
    exact document.decoded _ ((mem_insertionSort _).mp listed)
  | leave id | setPower id power => trivial

theorem lawful : LawfulRegistry storeBacked Sound recorded Faithful where
  effective sound := sound.effective
  change_sound := by
    intro registry sound call
    have positive : storeBacked.resolved registry call.height ≠ 0 := resolved_nonzero sound.effective call.height
    rcases change_cases sound call with ⟨effectiveHeight, reason, effective, changed⟩ | ⟨document, edited, eventType, power, answer, -, -, changed⟩
    · rw [changed]
      exact ⟨effective, sound.stored, sound.documents⟩
    · rw [changed]
      exact (changed_versioned ..).sound sound positive positive
  refused := by
    intro registry call reason sound failed
    rcases change_cases sound call with ⟨effectiveHeight, other, effective, changed⟩ | ⟨document, edited, eventType, power, answer, -, -, changed⟩
    · rw [changed]
      refine ⟨fun _ => Iff.rfl, fun position nonzero => ?_⟩
      rw [validator_set_at _ nonzero, validator_set_at _ nonzero]
      rfl
    · rw [changed] at failed
      cases failed
  applied_recorded := by
    intro registry call answer sound succeeded listed
    rcases change_cases sound call with ⟨effectiveHeight, other, effective, changed⟩ | ⟨document, edited, eventType, power, answer', -, -, changed⟩
    · rw [changed] at succeeded
      cases succeeded
    · rw [changed]
      exact (changed_versioned ..).recorded sound listed
  applied_elsewhere := by
    intro registry call answer sound succeeded position nonzero superseded
    have positive : storeBacked.resolved registry call.height ≠ 0 := resolved_nonzero sound.effective call.height
    rcases change_cases sound call with ⟨effectiveHeight, other, effective, changed⟩ | ⟨document, edited, eventType, power, answer', -, -, changed⟩
    · rw [changed] at succeeded
      cases succeeded
    · rw [changed, validator_set_at _ nonzero, validator_set_at _ nonzero]
      rw [((changed_versioned registry _ eventType call.change.validatorID power edited).load_latest_at sound positive positive position).2 superseded]
  applied_there := by
    intro registry call answer sound succeeded position inForce
    have positive : storeBacked.resolved registry call.height ≠ 0 := resolved_nonzero sound.effective call.height
    have nonzero := nonzero_of_le positive inForce.1
    rcases change_cases sound call with ⟨effectiveHeight, other, effective, changed⟩ | ⟨document, edited, eventType, power, answer', read, done, changed⟩
    · rw [changed] at succeeded
      cases succeeded
    · have before : registry.loadLatest position = .ok document := (load_latest_congr sound (select_height_between inForce.1 inForce.2)).trans read
      have stored := ((changed_versioned registry _ eventType call.change.validatorID power edited).load_latest_at sound positive positive
        position).1 inForce
      rw [changed, validator_set_at _ nonzero, validator_set_at _ nonzero, before, stored]
      refine ⟨_, _, rfl, rfl, ⟨shown_faithful, fun faithful => ?_⟩, fun faithful id other => ?_⟩
      · exact edit_shown done (written_get (edit_keyed (to_map_keyed _) done) (edited_valid document done faithful) _)
      · rw [written_get (edit_keyed (to_map_keyed _) done) (edited_valid document done faithful), edit_other done other, to_map_lookup, get_sorted]
  settled := by
    intro registry sound height position listed within
    obtain ⟨found, reached, bounded, again⟩ := select_height_selected listed within (sound.documents height listed).1
    obtain ⟨document, stored⟩ := (sound.documents _ found).2
    have read : registry.loadLatest position = .ok document := by
      rw [load_latest_recorded sound, if_pos (sound.documents _ found).1, stored]
    refine ⟨_, found, reached, bounded, ⟨sortedValidators document.validators⟩, ?_, ?_⟩
    · rw [validator_set_at _ (nonzero_of_le (sound.documents height listed).1 within), read]
      rfl
    · rw [validator_set_at _ (sound.documents _ found).1, load_latest_congr sound again, read]
      rfl

end StoreRegistry

end Vexo
