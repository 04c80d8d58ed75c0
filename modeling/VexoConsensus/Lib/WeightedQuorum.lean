import Mathlib.Algebra.BigOperators.Group.Finset.Basic
import Mathlib.Algebra.Order.BigOperators.Group.Finset
import Mathlib.Algebra.BigOperators.Group.List.Basic
import Mathlib.Algebra.GroupWithZero.Nat

namespace WeightedQuorum

variable {Member : Type*} (power : Member → Nat)

def weight (group : Finset Member) : Nat := ∑ member ∈ group, power member

theorem weight_mono {small large : Finset Member} (subset : small ⊆ large) : weight power small ≤ weight power large :=
  Finset.sum_le_sum_of_subset subset

variable [DecidableEq Member]

theorem weight_of_nodup (members : List Member) (distinct : members.Nodup) : weight power members.toFinset = (members.map power).sum :=
  List.sum_toFinset power distinct

theorem overlap_bound {all first second : Finset Member} (firstIn : first ⊆ all) (secondIn : second ⊆ all) :
    weight power first + weight power second ≤ weight power all + weight power (first ∩ second) := by
  have joined : weight power (first ∪ second) ≤ weight power all := weight_mono power (Finset.union_subset firstIn secondIn)
  have counted : weight power (first ∪ second) + weight power (first ∩ second) = weight power first + weight power second :=
    Finset.sum_union_inter
  omega

omit [DecidableEq Member] in
theorem exists_outside {group faulty : Finset Member} (heavier : weight power faulty < weight power group) : ∃ member ∈ group, member ∉ faulty := by
  by_contra none
  push Not at none
  exact absurd (weight_mono power none) (Nat.not_le.mpr heavier)

-- Two groups that each reach two thirds of the total share a member outside any group below one third of it.
theorem quorums_share_correct {all first second faulty : Finset Member} {total : Nat} (firstIn : first ⊆ all)
    (secondIn : second ⊆ all) (bounded : weight power all ≤ total) (firstQuorum : 2 * total ≤ 3 * weight power first)
    (secondQuorum : 2 * total ≤ 3 * weight power second) (faultBound : 3 * weight power faulty < total) :
    ∃ member, member ∈ first ∧ member ∈ second ∧ member ∉ faulty := by
  have overlap := overlap_bound power firstIn secondIn
  have heavier : weight power faulty < weight power (first ∩ second) := by omega
  obtain ⟨member, shared, correct⟩ := exists_outside power heavier
  exact ⟨member, (Finset.mem_inter.mp shared).1, (Finset.mem_inter.mp shared).2, correct⟩

end WeightedQuorum
