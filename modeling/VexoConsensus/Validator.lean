import Mathlib.Data.List.Rotate
import Mathlib.Data.List.Sort
import VexoConsensus.Lib.WeightedQuorum
import VexoConsensus.Types

namespace Vexo

open ByteCodec WeightedQuorum List

section

-- Address and Metadata are carried by the source but read by none of the modelled functions.
structure Validator where
  id : ValidatorID
  publicKey : PublicKey
  votingPower : VotingPower
  stake : UInt64
deriving DecidableEq

-- byID, totalPower and hash are functions of the validator list, computed by newSetSnapshot.
structure SetSnapshot where
  validators : List Validator
deriving DecidableEq

variable (validators : List Validator)

def hashValidators : Hash :=
  Sha256.sum256 (validators.flatMap fun validator =>
    validator.id ++ putUint64 validator.votingPower ++ putUint64 validator.stake ++ validator.publicKey)

namespace SetSnapshot

variable (set : SetSnapshot)

def hash : Hash := hashValidators set.validators

def totalVotingPower : VotingPower :=
  set.validators.foldl (fun total validator => mustAddVotingPowerSaturating total validator.votingPower) 0

-- byID is filled in list order, so of several validators with one ID the last is kept.
def get (id : ValidatorID) : Option Validator :=
  set.validators.reverse.find? fun validator => validator.id = id

def list : List Validator := set.validators

def powerOf (id : ValidatorID) : Nat :=
  match set.get id with
  | some validator => validator.votingPower.toNat
  | none => 0

def members : Finset ValidatorID := (set.validators.map Validator.id).toFinset

def powerSum : Nat := (set.validators.map fun validator => validator.votingPower.toNat).sum

end SetSnapshot

def selectProposer (height : Height) (round : Round) : Option ValidatorID :=
  let height := if height = 0 then 1 else height
  let active := validators.filter fun validator => validator.votingPower > 0
  if active = [] then none
  else
    let ordered := active.insertionSort fun left right => left.id ≤ right.id
    let index := (height - 1 + round) % UInt64.ofNat ordered.length
    ordered[index.toNat]?.map Validator.id

variable {set : SetSnapshot} {id : ValidatorID} {validator : Validator}

section

variable (found : set.get id = some validator)
include found

theorem get_some : validator ∈ set.validators ∧ validator.id = id := by
  have member := mem_of_find?_eq_some found
  have matching := find?_some found
  exact ⟨mem_reverse.mp member, by simpa using matching⟩

theorem get_member : id ∈ set.members := by
  obtain ⟨member, matching⟩ := get_some found
  simp only [SetSnapshot.members, mem_toFinset, mem_map]
  exact ⟨validator, member, matching⟩

theorem power_of_get : set.powerOf id = validator.votingPower.toNat := by
  simp only [SetSnapshot.powerOf, found]

end

theorem saturating_fold (total : VotingPower) :
    (validators.foldl (fun total validator => mustAddVotingPowerSaturating total validator.votingPower) total).toNat =
      min (total.toNat + (validators.map fun validator => validator.votingPower.toNat).sum) (2 ^ 64 - 1) := by
  induction validators generalizing total with
  | nil =>
    have bound := total.toNat_lt
    simp only [foldl_nil, map_nil, sum_nil]
    omega
  | cons head tail ih =>
    rw [foldl_cons, ih, must_add_to_nat, map_cons, sum_cons]
    omega

theorem total_to_nat (set : SetSnapshot) : set.totalVotingPower.toNat = min set.powerSum (2 ^ 64 - 1) := by
  unfold SetSnapshot.totalVotingPower SetSnapshot.powerSum
  rw [saturating_fold, UInt64.toNat_zero, Nat.zero_add]

theorem total_of_fits (fits : set.powerSum < 2 ^ 64) : set.totalVotingPower.toNat = set.powerSum := by
  rw [total_to_nat]
  omega

-- Shadowed duplicates of an ID only add to the total, never to the power a member can vote with.
theorem first_match_weight : weight (fun id => ((validators.find? fun validator => validator.id = id).map fun validator =>
        validator.votingPower.toNat).getD 0) (validators.map Validator.id).toFinset ≤
      (validators.map fun validator => validator.votingPower.toNat).sum := by
  induction validators with
  | nil => simp [weight]
  | cons head tail ih =>
    have split : insert head.id (tail.map Validator.id).toFinset = insert head.id ((tail.map Validator.id).toFinset.erase head.id) := by
      ext id
      by_cases same : id = head.id <;> simp [same]
    rw [map_cons, toFinset_cons, split, map_cons, sum_cons]
    unfold weight at ih ⊢
    rw [Finset.sum_insert (Finset.notMem_erase _ _)]
    refine Nat.add_le_add (by simp) (le_trans ?_ ih)
    refine le_trans (le_of_eq ?_) (Finset.sum_le_sum_of_subset (Finset.erase_subset head.id _))
    refine Finset.sum_congr rfl fun id member => ?_
    have different : ¬ head.id = id := fun same => Finset.ne_of_mem_erase member same.symm
    simp [different]

theorem members_weight (set : SetSnapshot) : weight set.powerOf set.members ≤ set.powerSum := by
  have bound := first_match_weight set.validators.reverse
  have sameMembers : (set.validators.reverse.map Validator.id).toFinset = set.members := by
    ext id
    simp [SetSnapshot.members]
  have sameSum : (set.validators.reverse.map fun validator => validator.votingPower.toNat).sum = set.powerSum := by
    simp [SetSnapshot.powerSum, sum_reverse]
  have samePower : set.powerOf = fun id => ((set.validators.reverse.find? fun validator => validator.id = id).map
      fun validator => validator.votingPower.toNat).getD 0 := by
    funext id
    unfold SetSnapshot.powerOf SetSnapshot.get
    cases set.validators.reverse.find? fun validator => validator.id = id <;> rfl
  rwa [sameMembers, sameSum, ← samePower] at bound

end

variable {validators others : List Validator}

def activeValidators (validators : List Validator) : List Validator := validators.filter fun validator => validator.votingPower > 0

-- The active validators in the order in which they take turns.
def rotation (validators : List Validator) : List Validator :=
  (activeValidators validators).insertionSort fun left right => left.id ≤ right.id

theorem rotation_members (validators : List Validator) : (rotation validators).Perm (activeValidators validators) := perm_insertionSort _ _

theorem rotation_perm (distinct : (validators.map Validator.id).Nodup) (perm : others.Perm validators) : rotation others = rotation validators := by
  have same := (rotation_members others).trans ((perm.filter _).trans (rotation_members validators).symm)
  have inside : ∀ validator ∈ rotation validators, validator ∈ validators := fun validator listed =>
    (mem_filter.mp ((rotation_members validators).mem_iff.mp listed)).1
  refine same.eq_of_pairwise (fun left right inLeft inRight before after => ?_) (pairwise_insertionSort _ _) (pairwise_insertionSort _ _)
  exact inj_on_of_nodup_map distinct (inside left (same.mem_iff.mp inLeft)) (inside right inRight) (List.le_antisymm before after)

theorem select_proposer_eq (validators : List Validator) (height : Height) (round : Round) :
    selectProposer validators height round = if rotation validators = [] then none else
      (rotation validators)[(((if height = 0 then 1 else height) - 1 + round) % UInt64.ofNat (rotation validators).length).toNat]?.map
        Validator.id := by
  have empty : rotation validators = [] ↔ activeValidators validators = [] := by
    rw [← length_eq_zero_iff, (rotation_members validators).length_eq, length_eq_zero_iff]
  simp only [empty]
  rfl

theorem turn_index {height : Height} {round : Round} {count turn : ℕ} (fits : height.toNat + round.toNat + count < 2 ^ 64)
    (inside : turn < count) : (((if height = 0 then 1 else height) - 1 + (round + UInt64.ofNat turn)) % UInt64.ofNat count).toNat =
      (turn + (height.toNat - 1 + round.toNat)) % count := by
  have before : ((if height = 0 then 1 else height) - 1).toNat = height.toNat - 1 := by
    by_cases zero : height = 0
    · rw [if_pos zero, zero]
      rfl
    · have positive : (1 : UInt64).toNat ≤ height.toNat := Nat.one_le_iff_ne_zero.mpr fun same => zero (UInt64.toNat_inj.mp same)
      rw [if_neg zero, UInt64.toNat_sub_of_le _ _ (UInt64.le_iff_toNat_le.mpr positive)]
      rfl
  have later : (round + UInt64.ofNat turn).toNat = round.toNat + turn := by
    rw [UInt64.toNat_add, UInt64.toNat_ofNat', Nat.mod_eq_of_lt (show turn < 2 ^ 64 by omega), Nat.mod_eq_of_lt (by omega)]
  rw [UInt64.toNat_mod, UInt64.toNat_add, before, later, UInt64.toNat_ofNat', Nat.mod_eq_of_lt (show count < 2 ^ 64 by omega),
    Nat.mod_eq_of_lt (show height.toNat - 1 + (round.toNat + turn) < 2 ^ 64 by omega)]
  congr 1
  omega

-- One turn each, in the order of the rotation from the starting round on.
theorem turns_rotated {height : Height} {round : Round} (fits : height.toNat + round.toNat + (rotation validators).length < 2 ^ 64) :
    ((range (rotation validators).length).map fun turn => selectProposer validators height (round + UInt64.ofNat turn)) =
      ((rotation validators).rotate (height.toNat - 1 + round.toNat)).map fun validator => some validator.id := by
  refine ext_getElem (by simp) fun turn inRange _ => ?_
  have inside : turn < (rotation validators).length := by simpa using inRange
  have bound := Nat.mod_lt (turn + (height.toNat - 1 + round.toNat)) (Nat.zero_lt_of_lt inside)
  rw [getElem_map, getElem_range, getElem_map, getElem_rotate, select_proposer_eq,
    if_neg (ne_nil_of_length_pos (Nat.zero_lt_of_lt inside)), turn_index fits inside, getElem?_eq_getElem bound, Option.map_some]

theorem select_proposer_fair (validators : List Validator) (distinct : (validators.map Validator.id).Nodup) :
    (∀ others : List Validator, others.Perm validators → ∀ height round, selectProposer others height round = selectProposer validators height round) ∧
      ∀ (height : Height) (round : Round), height.toNat + round.toNat + (activeValidators validators).length < 2 ^ 64 →
        ((List.range (activeValidators validators).length).map fun turn => selectProposer validators height (round + UInt64.ofNat turn)).Perm
          ((activeValidators validators).map fun validator => some validator.id) := by
  constructor
  · intro others perm height round
    rw [select_proposer_eq, select_proposer_eq, rotation_perm distinct perm]
  · intro height round fits
    rw [← (rotation_members validators).length_eq] at fits ⊢
    rw [turns_rotated fits]
    exact ((rotate_perm _ _).trans (rotation_members validators)).map _

theorem two_take_turns : let pair : List Validator := [⟨[2], [], 7, 7⟩, ⟨[1], [], 5, 5⟩]
    (pair.map Validator.id).Nodup ∧ (selectProposer pair 3 4 = some [1] ∧ selectProposer pair 3 5 = some [2]) ∧
      selectProposer pair.reverse 3 4 = selectProposer pair 3 4 ∧
      ((List.range 2).map fun turn => selectProposer pair 3 (4 + UInt64.ofNat turn)).Perm [some [2], some [1]] :=
  ⟨by decide, by decide, (select_proposer_fair _ (by decide)).1 _ (reverse_perm _) 3 4, (select_proposer_fair _ (by decide)).2 3 4 (by decide)⟩

end Vexo
