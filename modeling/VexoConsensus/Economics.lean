import VexoConsensus.App.Store
import VexoConsensus.FairOrdering
import VexoConsensus.Lib.TextCodec

namespace Vexo.Economics

open ByteCodec Checks GoText FairOrdering App

structure DenomUnit where
  denom : GoString
  (exponent factor : Nat)

def units : List DenomUnit := [⟨utf8 "vexo", 18, 10 ^ 18⟩, ⟨utf8 "gvxo", 9, 10 ^ 9⟩, ⟨utf8 "avxo", 0, 1⟩]

def decimalDigits (value : GoString) : Bool := value ≠ [] ∧ value.all Decimal.isDigit

def parseDecimalAmountBig (text : GoString) (unit : DenomUnit) : Except AppErr Nat := do
  let number := trimSpace text
  require (number ≠ [] ∧ ¬ [45].isPrefixOf number ∧ ¬ [43].isPrefixOf number) .invalidAmount
  let (whole, fraction) := match cut 46 number with
    | some (whole, fraction) => (whole, some fraction)
    | none => (number, none)
  let whole := if whole = [] then [48] else whole
  require (decimalDigits whole) .invalidAmount
  require (fraction.all decimalDigits) .invalidAmount
  let digits := fraction.getD []
  require (digits.length ≤ unit.exponent) .invalidAmount
  let padded := digits ++ List.replicate (unit.exponent - digits.length) 48
  return Decimal.value whole * unit.factor + (if fraction.isSome then Decimal.value padded else 0)

def parseAmountBig (input : GoString) : Except AppErr Nat :=
  let value := trimSpace (toLower input)
  if value = [] then .error .invalidAmount
  else if decimalDigits value then .ok (Decimal.value value)
  else
    match units.findSome? fun unit => (cutSuffix unit.denom value).map fun number => (number, unit) with
    | some (number, unit) => parseDecimalAmountBig number unit
    | none => .error .invalidAmount

example : parseAmountBig (utf8 " 1.25GVXO ") = .ok 1250000000 ∧ parseAmountBig (utf8 "0.1avxo") = .error .invalidAmount := by with_unfolding_all decide

structure BaseFeeParams where
  (currentBaseFee gasUsed targetGas changeDenominator minBaseFee maxBaseFee : UInt64)

def maxUint64 : UInt64 := 0xffffffffffffffff

def baseFeeDelta (current gasDelta targetGas denominator : UInt64) : UInt64 :=
  if current = 0 ∨ gasDelta = 0 ∨ targetGas = 0 ∨ denominator = 0 then 0
  else if current > maxUint64 / gasDelta then maxUint64 / denominator
  else current * gasDelta / targetGas / denominator

def clampBaseFee (value minBaseFee maxBaseFee : UInt64) : UInt64 :=
  let value := if value < minBaseFee then minBaseFee else value
  if maxBaseFee > 0 ∧ value > maxBaseFee then maxBaseFee else value

variable (params : BaseFeeParams)

def nextBaseFee : UInt64 :=
  let current := params.currentBaseFee
  if current = 0 ∨ params.targetGas = 0 ∨ params.changeDenominator = 0 then current
  else if params.gasUsed = params.targetGas then clampBaseFee current params.minBaseFee params.maxBaseFee
  else if params.gasUsed > params.targetGas then
    let delta := baseFeeDelta current (params.gasUsed - params.targetGas) params.targetGas params.changeDenominator
    let delta := if delta = 0 then 1 else delta
    if current > maxUint64 - delta then clampBaseFee maxUint64 params.minBaseFee params.maxBaseFee
    else clampBaseFee (current + delta) params.minBaseFee params.maxBaseFee
  else
    let delta := baseFeeDelta current (params.targetGas - params.gasUsed) params.targetGas params.changeDenominator
    if delta ≥ current then clampBaseFee 0 params.minBaseFee params.maxBaseFee
    else clampBaseFee (current - delta) params.minBaseFee params.maxBaseFee

section Rule

variable (params : BaseFeeParams)

def distance : Nat := (params.gasUsed.toNat - params.targetGas.toNat) + (params.targetGas.toNat - params.gasUsed.toNat)

def product : Nat := params.currentBaseFee.toNat * distance params

def exactStep : Nat := product params / params.targetGas.toNat / params.changeDenominator.toNat

-- What the code steps by once the product leaves 64 bits: the division by the target is lost.
def wideStep : Nat := (2 ^ 64 - 1) / params.changeDenominator.toNat

def moved (step : Nat) : Nat :=
  if params.gasUsed = params.targetGas then params.currentBaseFee.toNat
  else if params.gasUsed > params.targetGas then params.currentBaseFee.toNat + (if step = 0 then 1 else step)
  else params.currentBaseFee.toNat - step

def clamped (value : Nat) : Nat :=
  let raised := if value < params.minBaseFee.toNat then params.minBaseFee.toNat else value
  if params.maxBaseFee ≠ 0 ∧ raised > params.maxBaseFee.toNat then params.maxBaseFee.toNat else raised

def saturated (value : Nat) : Nat := if value < 2 ^ 64 then value else 2 ^ 64 - 1

def exactBaseFee : Nat := clamped params (saturated (moved params (exactStep params)))

def ceiling : Nat := if params.maxBaseFee = 0 then 2 ^ 64 - 1 else params.maxBaseFee.toNat

def SameFee (first second : Nat) : Prop :=
  first = second ∨ (first ≤ params.minBaseFee.toNat ∧ second ≤ params.minBaseFee.toNat) ∨ (ceiling params ≤ first ∧ ceiling params ≤ second) ∨
    params.minBaseFee.toNat = ceiling params

structure Configured : Prop where
  current : params.currentBaseFee ≠ 0
  target : params.targetGas ≠ 0
  denominator : params.changeDenominator ≠ 0
  bounds : params.minBaseFee ≤ params.maxBaseFee ∨ params.maxBaseFee = 0

end Rule

theorem max_uint64_nat : maxUint64.toNat = 2 ^ 64 - 1 := rfl

theorem clamp_base_fee_nat (value : UInt64) : (clampBaseFee value params.minBaseFee params.maxBaseFee).toNat = clamped params value.toNat := by
  have raised : (if value < params.minBaseFee then params.minBaseFee else value).toNat =
      if value.toNat < params.minBaseFee.toNat then params.minBaseFee.toNat else value.toNat := by
    rw [apply_ite UInt64.toNat]
    exact if_congr UInt64.lt_iff_toNat_lt rfl rfl
  have bounded : ∀ lifted : UInt64, (params.maxBaseFee > 0 ∧ lifted > params.maxBaseFee) ↔
      (params.maxBaseFee ≠ 0 ∧ lifted.toNat > params.maxBaseFee.toNat) := fun lifted =>
    and_congr UInt64.pos_iff_ne_zero UInt64.lt_iff_toNat_lt
  unfold clampBaseFee clamped
  rw [apply_ite UInt64.toNat, ← raised]
  exact if_congr (bounded _) rfl rfl

theorem base_fee_delta_nat {current gasDelta targetGas denominator : UInt64} (gas : gasDelta ≠ 0) (present : current ≠ 0)
    (target : targetGas ≠ 0) (divisor : denominator ≠ 0) :
    (baseFeeDelta current gasDelta targetGas denominator).toNat =
      if current.toNat * gasDelta.toNat ≤ 2 ^ 64 - 1 then current.toNat * gasDelta.toNat / targetGas.toNat / denominator.toNat
      else (2 ^ 64 - 1) / denominator.toNat := by
  have positive : 0 < gasDelta.toNat := UInt64.lt_iff_toNat_lt.mp (UInt64.pos_iff_ne_zero.mpr gas)
  -- The guard is the overflow of the product.
  have guard : current > maxUint64 / gasDelta ↔ ¬ current.toNat * gasDelta.toNat ≤ 2 ^ 64 - 1 := by
    rw [gt_iff_lt, UInt64.lt_iff_toNat_lt, UInt64.toNat_div, max_uint64_nat, Nat.div_lt_iff_lt_mul positive]
    omega
  unfold baseFeeDelta
  rw [if_neg (by simp [gas, present, target, divisor])]
  by_cases fits : current.toNat * gasDelta.toNat ≤ 2 ^ 64 - 1
  · rw [if_neg (fun beyond => guard.mp beyond fits), if_pos fits, UInt64.toNat_div, UInt64.toNat_div, UInt64.toNat_mul, Nat.mod_eq_of_lt (by omega)]
  · rw [if_pos (guard.mpr fits), if_neg fits, UInt64.toNat_div, max_uint64_nat]

section Steps

variable {params : BaseFeeParams}

def codeStep (params : BaseFeeParams) : Nat := if product params ≤ 2 ^ 64 - 1 then exactStep params else wideStep params

theorem raised_fee_nat {value delta : UInt64} {step : Nat} (same : delta.toNat = step) :
    (if value > maxUint64 - (if delta = 0 then 1 else delta) then maxUint64 else value + (if delta = 0 then 1 else delta)).toNat =
      saturated (value.toNat + (if step = 0 then 1 else step)) := by
  have lifted : (if delta = 0 then 1 else delta).toNat = if step = 0 then 1 else step := by
    rw [apply_ite UInt64.toNat, same]
    exact if_congr (by rw [← same, ← UInt64.toNat_inj, UInt64.toNat_zero]) rfl rfl
  rw [← lifted, saturated]
  generalize (if delta = 0 then 1 else delta) = raised
  have small := raised.toNat_lt
  have room : (maxUint64 - raised).toNat = 2 ^ 64 - 1 - raised.toNat := by
    rw [UInt64.toNat_sub_of_le _ _ (UInt64.le_iff_toNat_le.mpr (by rw [max_uint64_nat]; omega)), max_uint64_nat]
  by_cases beyond : value > maxUint64 - raised
  · have := UInt64.lt_iff_toNat_lt.mp beyond
    rw [if_pos beyond, if_neg (by omega), max_uint64_nat]
  · have := mt UInt64.lt_iff_toNat_lt.mpr beyond
    rw [if_neg beyond, if_pos (by omega), UInt64.toNat_add, Nat.mod_eq_of_lt (by omega)]

theorem lowered_fee_nat {value delta : UInt64} {step : Nat} (same : delta.toNat = step) :
    (if delta ≥ value then 0 else value - delta).toNat = saturated (value.toNat - step) := by
  have small := value.toNat_lt
  have kept : saturated (value.toNat - step) = value.toNat - step := if_pos (by omega)
  rw [kept]
  by_cases all : delta ≥ value
  · have := UInt64.le_iff_toNat_le.mp all
    rw [if_pos all, UInt64.toNat_zero]
    omega
  · have := mt UInt64.le_iff_toNat_le.mpr all
    rw [if_neg all, UInt64.toNat_sub_of_le _ _ (UInt64.le_iff_toNat_le.mpr (by omega))]
    omega

theorem next_base_fee_nat (configured : Configured params) :
    (nextBaseFee params).toNat = clamped params (saturated (moved params (codeStep params))) := by
  have enabled : ¬ (params.currentBaseFee = 0 ∨ params.targetGas = 0 ∨ params.changeDenominator = 0) := by
    simp [configured.current, configured.target, configured.denominator]
  have stepped : ∀ {gasDelta : UInt64}, gasDelta ≠ 0 → gasDelta.toNat = distance params →
      (baseFeeDelta params.currentBaseFee gasDelta params.targetGas params.changeDenominator).toNat = codeStep params := by
    intro gasDelta gas apart
    rw [base_fee_delta_nat gas configured.current configured.target configured.denominator, apart]
    rfl
  have nonzero : ∀ {first second : UInt64}, second < first → first - second ≠ 0 ∧ (first - second).toNat = first.toNat - second.toNat := by
    intro first second less
    have := UInt64.lt_iff_toNat_lt.mp less
    have difference := UInt64.toNat_sub_of_le _ _ (UInt64.le_of_lt less)
    refine ⟨fun zero => ?_, difference⟩
    rw [zero, UInt64.toNat_zero] at difference
    omega
  unfold nextBaseFee moved
  rw [if_neg enabled]
  by_cases level : params.gasUsed = params.targetGas
  · rw [if_pos level, if_pos level, clamp_base_fee_nat]
    have := params.currentBaseFee.toNat_lt
    rw [saturated, if_pos (by omega)]
  · rw [if_neg level, if_neg level]
    by_cases above : params.gasUsed > params.targetGas
    · obtain ⟨gas, apart⟩ := nonzero above
      have less := UInt64.lt_iff_toNat_lt.mp above
      have delta := stepped gas (by rw [apart, distance]; omega)
      rw [if_pos above, if_pos above, ← raised_fee_nat delta, ← clamp_base_fee_nat,
        apply_ite fun value => clampBaseFee value params.minBaseFee params.maxBaseFee]
    · have below : params.gasUsed < params.targetGas := UInt64.lt_of_le_of_ne (UInt64.not_lt.mp above) level
      obtain ⟨gas, apart⟩ := nonzero below
      have less := UInt64.lt_iff_toNat_lt.mp below
      have delta := stepped gas (by rw [apart, distance]; omega)
      rw [if_neg above, if_neg above, ← lowered_fee_nat delta, ← clamp_base_fee_nat,
        apply_ite fun value => clampBaseFee value params.minBaseFee params.maxBaseFee]

variable (bounds : params.minBaseFee ≤ params.maxBaseFee ∨ params.maxBaseFee = 0)
include bounds

theorem min_le_ceiling : params.minBaseFee.toNat ≤ ceiling params := by
  have lowest := params.minBaseFee.toNat_lt
  unfold ceiling
  split
  · omega
  · next unbounded =>
    exact UInt64.le_iff_toNat_le.mp (bounds.resolve_right unbounded)

theorem clamped_saturated (value : Nat) : clamped params (saturated value) =
      if value ≤ params.minBaseFee.toNat then params.minBaseFee.toNat else if ceiling params ≤ value then ceiling params else value := by
  have lowest := params.minBaseFee.toNat_lt
  have highest := params.maxBaseFee.toNat_lt
  have ordered := min_le_ceiling bounds
  unfold clamped ceiling saturated at *
  by_cases unbounded : params.maxBaseFee = 0
  · simp only [unbounded, ne_eq, not_true_eq_false, false_and, if_false, if_true]
    grind
  · simp only [unbounded, ne_eq, not_false_eq_true, true_and, if_false] at ordered ⊢
    grind

theorem clamped_same (first second : Nat) : clamped params (saturated first) = clamped params (saturated second) ↔ SameFee params first second := by
  have ordered := min_le_ceiling bounds
  rw [clamped_saturated bounds, clamped_saturated bounds, SameFee]
  grind

end Steps

-- The 64-bit rule is the exact one unless the product overflows into a different fee.
theorem next_base_fee_exact_iff (params : BaseFeeParams) (configured : Configured params) : (nextBaseFee params).toNat = exactBaseFee params ↔
      product params ≤ 2 ^ 64 - 1 ∨ SameFee params (moved params (wideStep params)) (moved params (exactStep params)) := by
  rw [next_base_fee_nat configured, exactBaseFee, codeStep]
  split
  · next fits =>
    exact iff_of_true rfl (.inl fits)
  · next fits =>
    rw [clamped_same configured.bounds]
    exact (or_iff_right fits).symm

def busyBlock : BaseFeeParams := ⟨10 ^ 12, 60000000, 15000000, 8, 1, 0⟩

theorem overflowed_step_skips_target :
    Configured busyBlock ∧ exactBaseFee busyBlock = 1375000000000 ∧ nextBaseFee busyBlock = 2305844009213693951 := by
  refine ⟨⟨?_, ?_, ?_, ?_⟩, ?_, ?_⟩ <;> decide

def fullBlock : BaseFeeParams := ⟨10 ^ 9, 30000000, 15000000, 8, 1, 0⟩

theorem full_block_exact : Configured fullBlock ∧ (nextBaseFee fullBlock).toNat = exactBaseFee fullBlock ∧ nextBaseFee fullBlock = 1125000000 := by
  have configured : Configured fullBlock := by refine ⟨?_, ?_, ?_, ?_⟩ <;> decide
  exact ⟨configured, (next_base_fee_exact_iff fullBlock configured).mpr (.inl (by decide)), by decide⟩

end Vexo.Economics
