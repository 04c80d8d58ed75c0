import Mathlib.Algebra.Field.Basic
import Mathlib.Algebra.Group.Hom.Defs
import Mathlib.Logic.Function.Iterate

namespace CyclicField

open Function

-- The elements other than zero are one element and what an additive map makes of it, again and again.
structure Orbit (Element : Type) [AddCommGroup Element] where
  shift : Element →+ Element
  one : Element
  log : Element → ℕ
  period : ℕ
  one_ne_zero : one ≠ 0
  positive : 0 < period
  returns : shift^[period] one = one
  log_le : ∀ element, log element ≤ period
  reaches : ∀ {element}, element ≠ 0 → shift^[log element] one = element

variable {Element : Type} [AddCommGroup Element] [DecidableEq Element] (orbit : Orbit Element)

def Orbit.mul (left right : Element) : Element := if right = 0 then 0 else orbit.shift^[orbit.log right] left

variable (element : Element)

def Orbit.inv : Element := if element = 0 then 0 else orbit.shift^[orbit.period - orbit.log element] orbit.one

section Shifts

omit [DecidableEq Element]

variable (count : ℕ)

theorem shift_add (left right : Element) : orbit.shift^[count] (left + right) = orbit.shift^[count] left + orbit.shift^[count] right := by
  induction count generalizing left right with
  | zero => rfl
  | succ count ih => rw [iterate_succ_apply, map_add, ih, iterate_succ_apply, iterate_succ_apply]

theorem shift_zero : orbit.shift^[count] 0 = 0 := iterate_fixed (map_zero orbit.shift) count

theorem one_ne_shifted : orbit.shift^[count] orbit.one ≠ 0 := by
  intro vanished
  have whole : ∀ rounds, orbit.shift^[orbit.period * rounds] orbit.one = orbit.one := by
    intro rounds
    rw [iterate_mul]
    exact iterate_fixed orbit.returns rounds
  have enough : count ≤ orbit.period * count := Nat.le_mul_of_pos_left count orbit.positive
  have back := whole count
  rw [← Nat.sub_add_cancel enough, iterate_add_apply, vanished, shift_zero] at back
  exact orbit.one_ne_zero back.symm

-- Two numbers of shifts that agree on one element other than zero agree on all.
theorem shift_agrees {first second : ℕ} (same : orbit.shift^[first] orbit.one = orbit.shift^[second] orbit.one) (element : Element) :
    orbit.shift^[first] element = orbit.shift^[second] element := by
  by_cases zero : element = 0
  · rw [zero, shift_zero, shift_zero]
  · rw [← orbit.reaches zero, ← iterate_add_apply, ← iterate_add_apply, Nat.add_comm first, Nat.add_comm second,
      iterate_add_apply, iterate_add_apply, same]

end Shifts

theorem mul_zero_right : orbit.mul element 0 = 0 := if_pos rfl

theorem mul_zero_left : orbit.mul 0 element = 0 := by
  unfold Orbit.mul
  split
  · rfl
  · exact shift_zero orbit _

theorem mul_eq_shift {left right : Element} (leftNonzero : left ≠ 0) (rightNonzero : right ≠ 0) :
    orbit.mul left right = orbit.shift^[orbit.log left + orbit.log right] orbit.one := by
  rw [Orbit.mul, if_neg rightNonzero, Nat.add_comm, iterate_add_apply, orbit.reaches leftNonzero]

theorem mul_comm (left right : Element) : orbit.mul left right = orbit.mul right left := by
  by_cases leftZero : left = 0
  · rw [leftZero, mul_zero_left, mul_zero_right]
  · by_cases rightZero : right = 0
    · rw [rightZero, mul_zero_left, mul_zero_right]
    · rw [mul_eq_shift orbit leftZero rightZero, mul_eq_shift orbit rightZero leftZero, Nat.add_comm]

theorem mul_assoc (first second third : Element) : orbit.mul (orbit.mul first second) third = orbit.mul first (orbit.mul second third) := by
  by_cases thirdZero : third = 0
  · rw [thirdZero, mul_zero_right, mul_zero_right, mul_zero_right]
  · by_cases secondZero : second = 0
    · rw [secondZero, mul_zero_right, mul_zero_left, mul_zero_right]
    · have product : orbit.mul second third ≠ 0 := by
        rw [mul_eq_shift orbit secondZero thirdZero]
        exact one_ne_shifted orbit _
      have same : orbit.shift^[orbit.log (orbit.mul second third)] orbit.one = orbit.shift^[orbit.log third + orbit.log second] orbit.one := by
        rw [orbit.reaches product, mul_eq_shift orbit secondZero thirdZero, Nat.add_comm]
      calc orbit.mul (orbit.mul first second) third
          = orbit.shift^[orbit.log third + orbit.log second] first := by
            rw [Orbit.mul, Orbit.mul, if_neg thirdZero, if_neg secondZero, iterate_add_apply]
        _ = orbit.shift^[orbit.log (orbit.mul second third)] first := (shift_agrees orbit same first).symm
        _ = orbit.mul first (orbit.mul second third) := (if_neg product).symm

theorem add_mul (first second third : Element) : orbit.mul (first + second) third = orbit.mul first third + orbit.mul second third := by
  by_cases zero : third = 0
  · rw [zero, mul_zero_right, mul_zero_right, mul_zero_right, add_zero]
  · rw [Orbit.mul, Orbit.mul, Orbit.mul, if_neg zero, if_neg zero, if_neg zero, shift_add]

theorem one_mul : orbit.mul orbit.one element = element := by
  by_cases zero : element = 0
  · rw [zero, mul_zero_right]
  · rw [Orbit.mul, if_neg zero, orbit.reaches zero]

theorem mul_inv_cancel {element : Element} (nonzero : element ≠ 0) : orbit.mul element (orbit.inv element) = orbit.one := by
  have inverse : orbit.inv element = orbit.shift^[orbit.period - orbit.log element] orbit.one := if_neg nonzero
  rw [mul_comm, Orbit.mul, if_neg nonzero, inverse, ← iterate_add_apply, Nat.add_sub_cancel' (orbit.log_le element), orbit.returns]

theorem inv_zero : orbit.inv 0 = 0 := if_pos rfl

end CyclicField
