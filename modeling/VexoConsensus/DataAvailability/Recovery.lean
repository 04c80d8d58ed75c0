import Mathlib.Data.List.Sort
import Mathlib.Data.Nat.Bitwise
import Mathlib.Dynamics.PeriodicPts.Defs
import Mathlib.NumberTheory.Divisors
import Mathlib.Tactic.Conv
import VexoConsensus.DataAvailability
import VexoConsensus.Lib.BigEndian
import VexoConsensus.Lib.CyclicField
import VexoConsensus.Lib.GaussJordan
import VexoConsensus.Lib.OrderedMap

namespace Vexo.DataAvailability

open List Function ByteCodec Checks OrderedMap

section

def doubled (value : Nat) : Nat := if (value <<< 1) &&& 0x100 ≠ 0 then (value <<< 1) ^^^ 0x11d else value <<< 1

def powersFrom : Nat → Nat → List Nat
  | 0, _ => []
  | count + 1, value => value :: powersFrom count (doubled value)

-- The second half of the table repeats the first, so that a sum of two logarithms needs no reduction.
@[irreducible] def gfExpTable : List UInt8 := (List.range 512).map fun index => UInt8.ofNat ((powersFrom 255 1).getD (index % 255) 0)

@[irreducible] def gfLogTable : List UInt8 :=
  (powersFrom 255 1).zipIdx.foldl (fun log (value, index) => log.set value (UInt8.ofNat index)) (List.replicate 256 0)

variable (value : UInt8)

def gfLog : Nat := (gfLogTable.getD value.toNat 0).toNat

def gfMul (left right : UInt8) : UInt8 := if left = 0 ∨ right = 0 then 0 else gfExpTable.getD (gfLog left + gfLog right) 0

def gfPow (power : UInt64) : UInt8 :=
  if power = 0 then 1 else if value = 0 then 0 else gfExpTable.getD ((gfLog value * (power.toNat % 255)) % 255) 0

def gfInv : UInt8 := if value = 0 then 0 else gfExpTable.getD (255 - gfLog value) 0

variable (count : Nat) (left right : UInt8) {index value : Nat}

theorem powers_eq (value : Nat) : powersFrom count value = (range count).map fun index => doubled^[index] value := by
  induction count generalizing value with
  | zero => rfl
  | succ count ih =>
    rw [powersFrom, ih, range_succ_eq_map, map_cons, map_map]
    rfl

theorem period_evaluated : doubled^[255] 1 = 1 ∧ doubled^[15] 1 ≠ 1 ∧ doubled^[51] 1 ≠ 1 ∧ doubled^[85] 1 ≠ 1 := by
  decide +kernel

-- The period divides 255 and none of its largest proper divisors.
theorem doubled_period : minimalPeriod doubled 1 = 255 := by
  obtain ⟨returns, notFifteen, notFiftyOne, notEightyFive⟩ := period_evaluated
  have divides : minimalPeriod doubled 1 ∣ 255 := Function.IsPeriodicPt.minimalPeriod_dvd returns
  have excluded : ∀ count, doubled^[count] 1 ≠ 1 → ¬ minimalPeriod doubled 1 ∣ count := fun count other divisor =>
    other ((isPeriodicPt_minimalPeriod doubled 1).trans_dvd divisor)
  have listed : minimalPeriod doubled 1 ∈ Nat.divisors 255 := Nat.mem_divisors.mpr ⟨divides, by decide⟩
  have options : Nat.divisors 255 = {1, 3, 5, 15, 17, 51, 85, 255} := by decide
  simp only [options, Finset.mem_insert, Finset.mem_singleton] at listed
  have fifteen := excluded 15 notFifteen
  have fiftyOne := excluded 51 notFiftyOne
  have eightyFive := excluded 85 notEightyFive
  rcases listed with found | found | found | found | found | found | found | found <;> rw [found] at fifteen fiftyOne eightyFive
  · exact absurd (by decide) fifteen
  · exact absurd (by decide) fifteen
  · exact absurd (by decide) fifteen
  · exact absurd (by decide) fifteen
  · exact absurd (by decide) fiftyOne
  · exact absurd (by decide) fiftyOne
  · exact absurd (by decide) eightyFive
  · exact found

theorem power_injective {first second : Nat} (firstSmall : first < 255) (secondSmall : second < 255)
    (same : doubled^[first] 1 = doubled^[second] 1) : first = second := by
  rw [← doubled_period] at firstSmall secondSmall
  exact iterate_injOn_Iio_minimalPeriod firstSmall secondSmall same

theorem doubled_small : ∀ value < 256, doubled value < 256 := by decide +kernel

theorem doubled_eq (value : Nat) : doubled value = value <<< 1 ^^^ (if value.testBit 7 then 0x11d else 0) := by
  have top : (value <<< 1) &&& 0x100 ≠ 0 ↔ value.testBit 7 = true := by
    rw [show (0x100 : Nat) = 2 ^ 8 from rfl, Nat.and_two_pow, Nat.testBit_shiftLeft]
    cases value.testBit 7 <;> simp
  unfold doubled
  by_cases set : value.testBit 7 = true
  · rw [if_pos (top.mpr set), if_pos set]
  · rw [if_neg (mt top.mp set), if_neg set, Nat.xor_zero]

theorem doubled_xor (left right : Nat) : doubled (left ^^^ right) = doubled left ^^^ doubled right := by
  rw [doubled_eq, doubled_eq, doubled_eq, Nat.testBit_xor, Nat.shiftLeft_xor_distrib]
  cases left.testBit 7 <;> cases right.testBit 7 <;> simp [Nat.xor_assoc, Nat.xor_left_comm, Nat.xor_comm]

def xtime (value : UInt8) : UInt8 := UInt8.ofNat (doubled value.toNat)

theorem xtime_xor : xtime (left ^^^ right) = xtime left ^^^ xtime right := by
  have small := fun value : UInt8 => doubled_small value.toNat value.toNat_lt
  apply UInt8.toNat_inj.mp
  rw [UInt8.toNat_xor, xtime, xtime, xtime, UInt8.toNat_xor, doubled_xor]
  simp only [UInt8.toNat_ofNat', Nat.mod_eq_of_lt (small left), Nat.mod_eq_of_lt (small right)]
  exact Nat.mod_eq_of_lt (Nat.xor_lt_two_pow (small left) (small right))

theorem power_small : doubled^[count] 1 < 256 := by
  induction count with
  | zero => decide
  | succ count ih =>
    rw [iterate_succ_apply']
    exact doubled_small _ ih

theorem power_nonzero {count : Nat} (small : count < 255) : doubled^[count] 1 ≠ 0 := by
  intro zero
  have returns := period_evaluated.1
  rw [← Nat.sub_add_cancel (Nat.le_of_lt small), iterate_add_apply, zero, iterate_fixed (by decide)] at returns
  exact absurd returns (by decide)

theorem powers_cover (positive : value ≠ 0) (small : value < 256) : ∃ index < 255, doubled^[index] 1 = value := by
  have inside : (Finset.range 255).image (fun index => doubled^[index] 1) ⊆ Finset.Ico 1 256 := by
    intro power listed
    obtain ⟨index, below, rfl⟩ := Finset.mem_image.mp listed
    exact Finset.mem_Ico.mpr ⟨Nat.one_le_iff_ne_zero.mpr (power_nonzero (Finset.mem_range.mp below)), power_small index⟩
  have distinct : ((Finset.range 255).image fun index => doubled^[index] 1).card = 255 := by
    rw [Finset.card_image_of_injOn, Finset.card_range]
    exact fun first firstIn second secondIn => power_injective (Finset.mem_range.mp firstIn) (Finset.mem_range.mp secondIn)
  have all := Finset.eq_of_subset_of_card_le inside (by rw [distinct, Nat.card_Ico])
  have listed : value ∈ Finset.Ico 1 256 := Finset.mem_Ico.mpr ⟨Nat.one_le_iff_ne_zero.mpr positive, small⟩
  rw [← all] at listed
  obtain ⟨index, below, same⟩ := Finset.mem_image.mp listed
  exact ⟨index, Finset.mem_range.mp below, same⟩

theorem xtime_power : xtime^[count] 1 = UInt8.ofNat (doubled^[count] 1) := by
  induction count with
  | zero => rfl
  | succ count ih =>
    rw [iterate_succ_apply', iterate_succ_apply', ih, xtime, UInt8.toNat_ofNat', Nat.mod_eq_of_lt (power_small count)]

theorem xtime_returns : xtime^[255] 1 = 1 := by
  rw [xtime_power, period_evaluated.1]
  rfl

theorem xtime_mod : xtime^[count % 255] 1 = xtime^[count] 1 := by
  conv_rhs => rw [← Nat.mod_add_div count 255, iterate_add_apply, iterate_mul, iterate_fixed xtime_returns]

theorem exp_get (inside : index < 512) : gfExpTable.getD index 0 = xtime^[index] 1 := by
  have place : index % 255 < 255 := Nat.mod_lt _ (by decide)
  unfold gfExpTable
  rw [getD_eq_getElem _ _ (by rw [length_map, length_range]; exact inside), getElem_map, getElem_range,
    powers_eq, getD_eq_getElem _ _ (by rw [length_map, length_range]; exact place), getElem_map, getElem_range,
    ← xtime_power, xtime_mod]

theorem writes_other {values : List Nat} (absent : value ∉ values) (start : Nat) (table : List UInt8) :
    ((values.zipIdx start).foldl (fun log (value, index) => log.set value (UInt8.ofNat index)) table).getD value 0 = table.getD value 0 := by
  induction values generalizing start table with
  | nil => rfl
  | cons first rest ih =>
    rw [mem_cons, not_or] at absent
    rw [zipIdx_cons, foldl_cons, ih absent.2, getD_eq_getElem?_getD, getElem?_set_ne (Ne.symm absent.1), ← getD_eq_getElem?_getD]

theorem writes_get {values : List Nat} (distinct : values.Nodup) {table : List UInt8} (inside : ∀ value ∈ values, value < table.length)
    (start : Nat) (here : values[index]? = some value) :
    ((values.zipIdx start).foldl (fun log (value, index) => log.set value (UInt8.ofNat index)) table).getD value 0 = UInt8.ofNat (start + index) := by
  induction values generalizing start table index with
  | nil => simp at here
  | cons first rest ih =>
    rw [nodup_cons] at distinct
    rw [forall_mem_cons] at inside
    rw [zipIdx_cons, foldl_cons]
    cases index with
    | zero =>
      obtain rfl : first = value := by simpa using here
      rw [writes_other distinct.1, getD_eq_getElem?_getD, getElem?_set_self inside.1, Option.getD_some, Nat.add_zero]
    | succ index =>
      rw [ih distinct.2 (by simpa using inside.2) (start + 1) (by simpa using here), Nat.add_assoc, Nat.add_comm 1]

theorem powers_distinct : (powersFrom 255 1).Nodup := by
  rw [powers_eq]
  exact nodup_range.map_on fun first firstIn second secondIn => power_injective (mem_range.mp firstIn) (mem_range.mp secondIn)

theorem log_power (small : index < 255) : gfLog (xtime^[index] 1) = index := by
  have inside : ∀ value ∈ powersFrom 255 1, value < (replicate 256 (0 : UInt8)).length := by
    intro value listed
    rw [powers_eq] at listed
    obtain ⟨place, -, rfl⟩ := mem_map.mp listed
    rw [length_replicate]
    exact power_small place
  have here : (powersFrom 255 1)[index]? = some (doubled^[index] 1) := by
    rw [powers_eq, getElem?_map, getElem?_range small]
    rfl
  have written := writes_get powers_distinct inside 0 here
  unfold gfLog gfLogTable
  rw [xtime_power, UInt8.toNat_ofNat', Nat.mod_eq_of_lt (power_small index), written, UInt8.toNat_ofNat', Nat.zero_add]
  omega

theorem byte_power {value : UInt8} (nonzero : value ≠ 0) : ∃ index < 255, xtime^[index] 1 = value := by
  obtain ⟨index, small, same⟩ := powers_cover (fun zero => nonzero (UInt8.toNat_inj.mp zero)) value.toNat_lt
  exact ⟨index, small, by rw [xtime_power, same, UInt8.ofNat_toNat]⟩

theorem log_lt (value : UInt8) : gfLog value < 255 := by
  by_cases zero : value = 0
  · have absent : (0 : UInt8).toNat ∉ powersFrom 255 1 := by
      rw [powers_eq]
      intro listed
      obtain ⟨index, below, same⟩ := mem_map.mp listed
      exact power_nonzero (mem_range.mp below) same
    unfold gfLog gfLogTable
    rw [zero, writes_other absent]
    decide
  · obtain ⟨index, small, rfl⟩ := byte_power zero
    rw [log_power small]
    exact small

theorem xtime_log {value : UInt8} (nonzero : value ≠ 0) : xtime^[gfLog value] 1 = value := by
  obtain ⟨index, small, rfl⟩ := byte_power nonzero
  rw [log_power small]

section Field

-- A byte as an element of the field with 256 elements: addition is xor.
def Gf256 : Type := UInt8

instance : DecidableEq Gf256 := inferInstanceAs (DecidableEq UInt8)

instance : Add Gf256 := ⟨UInt8.xor⟩

instance : Zero Gf256 := ⟨(0 : UInt8)⟩

instance : Neg Gf256 := ⟨id⟩

instance : AddCommGroup Gf256 where
  nsmul := nsmulRec
  zsmul := zsmulRec
  add_assoc left right third := UInt8.xor_assoc left right third
  zero_add value := UInt8.zero_xor
  add_zero value := UInt8.xor_zero
  neg_add_cancel value := UInt8.xor_self
  add_comm left right := UInt8.xor_comm left right

def gfOrbit : CyclicField.Orbit Gf256 where
  shift := AddMonoidHom.mk' xtime xtime_xor
  one := (1 : UInt8)
  log := gfLog
  period := 255
  one_ne_zero := show (1 : UInt8) ≠ 0 by decide
  positive := by decide
  returns := xtime_returns
  log_le value := Nat.le_of_lt (log_lt value)
  reaches nonzero := xtime_log nonzero

theorem orbit_shift : gfOrbit.shift^[count] gfOrbit.one = xtime^[count] 1 := by
  have same : (gfOrbit.shift : Gf256 → Gf256) = xtime := rfl
  rw [same]
  rfl

theorem gf_mul_eq : gfMul left right = gfOrbit.mul left right := by
  unfold gfMul
  by_cases leftZero : left = 0
  · rw [if_pos (.inl leftZero), leftZero]
    exact (CyclicField.mul_zero_left gfOrbit right).symm
  · by_cases rightZero : right = 0
    · rw [if_pos (.inr rightZero), rightZero]
      exact (CyclicField.mul_zero_right gfOrbit left).symm
    · have leftBound := log_lt left
      have rightBound := log_lt right
      rw [if_neg (not_or.mpr ⟨leftZero, rightZero⟩), exp_get (by omega), ← orbit_shift]
      exact (CyclicField.mul_eq_shift gfOrbit leftZero rightZero).symm

theorem gf_inv_eq (value : UInt8) : gfInv value = gfOrbit.inv value := by
  unfold gfInv
  split
  · next zero =>
    rw [zero]
    exact (CyclicField.inv_zero gfOrbit).symm
  · next zero =>
    rw [exp_get (by omega), ← orbit_shift]
    exact (if_neg zero).symm

instance : Mul Gf256 := ⟨gfMul⟩

instance : One Gf256 := ⟨(1 : UInt8)⟩

instance : Inv Gf256 := ⟨gfInv⟩

theorem mul_eq_orbit (left right : Gf256) : left * right = gfOrbit.mul left right := gf_mul_eq left right

instance : CommRing Gf256 where
  mul_assoc first second third := by simp only [mul_eq_orbit, CyclicField.mul_assoc]
  one_mul value := (mul_eq_orbit _ _).trans (CyclicField.one_mul gfOrbit value)
  mul_one value := by rw [mul_eq_orbit, CyclicField.mul_comm]; exact CyclicField.one_mul gfOrbit value
  left_distrib first second third := by simp only [mul_eq_orbit, CyclicField.mul_comm gfOrbit first, CyclicField.add_mul]
  right_distrib first second third := by simp only [mul_eq_orbit, CyclicField.add_mul]
  zero_mul value := (mul_eq_orbit _ _).trans (CyclicField.mul_zero_left gfOrbit value)
  mul_zero value := (mul_eq_orbit _ _).trans (CyclicField.mul_zero_right gfOrbit value)
  mul_comm left right := by rw [mul_eq_orbit, mul_eq_orbit, CyclicField.mul_comm]
  zsmul := zsmulRec
  neg_add_cancel := neg_add_cancel

instance : Field Gf256 where
  exists_pair_ne := ⟨(0 : UInt8), (1 : UInt8), show (0 : UInt8) ≠ 1 by decide⟩
  mul_inv_cancel value nonzero := by
    rw [mul_eq_orbit, show value⁻¹ = gfOrbit.inv value from gf_inv_eq value]
    exact CyclicField.mul_inv_cancel gfOrbit nonzero
  inv_zero := gf_inv_eq 0
  nnqsmul := _
  qsmul := _

def toField (byte : UInt8) : Gf256 := byte

theorem to_field_injective {first second : UInt8} (same : toField first = toField second) : first = second := same

theorem to_field_xor : toField (left ^^^ right) = toField left + toField right := rfl

theorem to_field_mul : toField (gfMul left right) = toField left * toField right := rfl

theorem to_field_zero : toField 0 = 0 := rfl

theorem to_field_one : toField 1 = 1 := rfl

theorem pow_shift {value : UInt8} (nonzero : value ≠ 0) (power : Nat) : toField value ^ power = toField (xtime^[gfLog value * power] 1) := by
  induction power with
  | zero =>
    rw [pow_zero, Nat.mul_zero]
    rfl
  | succ power ih =>
    have step : gfMul (xtime^[gfLog value * power] 1) value = xtime^[gfLog value] (xtime^[gfLog value * power] 1) :=
      (gf_mul_eq _ _).trans (if_neg nonzero)
    rw [pow_succ, ih, ← to_field_mul, step, ← iterate_add_apply, Nat.add_comm, ← Nat.mul_succ]

theorem gf_pow_eq (value : UInt8) (power : UInt64) : toField (gfPow value power) = toField value ^ power.toNat := by
  unfold gfPow
  by_cases none : power = 0
  · rw [if_pos none, none]
    exact (pow_zero (toField value)).symm
  · have positive : power.toNat ≠ 0 := fun zero => none (UInt64.toNat_inj.mp zero)
    rw [if_neg none]
    by_cases zero : value = 0
    · rw [if_pos zero, zero]
      exact (zero_pow positive).symm
    · have small : gfLog value * (power.toNat % 255) % 255 < 255 := Nat.mod_lt _ (by decide)
      have exponent : gfLog value * (power.toNat % 255) % 255 = gfLog value * power.toNat % 255 := by
        rw [Nat.mul_mod, Nat.mod_mod, ← Nat.mul_mod]
      rw [if_neg zero, exp_get (by omega), pow_shift zero, exponent, xtime_mod]

theorem table_arithmetic_laws (first second third : UInt8) (power more : UInt64) : gfMul first second = gfMul second first ∧
    gfMul first (gfMul second third) = gfMul (gfMul first second) third ∧
    gfMul first (second ^^^ third) = gfMul first second ^^^ gfMul first third ∧ (first ≠ 0 → gfMul first (gfInv first) = 1) ∧
    (power.toNat + more.toNat < 2 ^ 64 → gfPow first (power + more) = gfMul (gfPow first power) (gfPow first more)) := by
  refine ⟨mul_comm (toField first) (toField second), (mul_assoc (toField first) (toField second) (toField third)).symm,
    mul_add (toField first) (toField second) (toField third), fun nonzero => ?_, fun small => to_field_injective ?_⟩
  · exact mul_inv_cancel₀ (show toField first ≠ 0 from nonzero)
  · rw [to_field_mul, gf_pow_eq, gf_pow_eq, gf_pow_eq, UInt64.toNat_add, Nat.mod_eq_of_lt small, pow_add]

theorem two_pow_injective {first second : Nat} (firstSmall : first < 255) (secondSmall : second < 255)
    (same : toField 2 ^ first = toField 2 ^ second) : first = second := by
  have log : gfLog 2 = 1 := log_power (show 1 < 255 by decide)
  rw [pow_shift (by decide), pow_shift (by decide), log, Nat.one_mul, Nat.one_mul] at same
  rw [← log_power firstSmall, ← log_power secondSmall, to_field_injective same]

end Field

end

inductive RecoveryErr where
  | invalidChunkSize | invalidDataShards | invalidParityShards | invalidChunkProof | insufficientChunks | tooManyMissing | invalidEncoding
  | commitmentMismatch | panic
deriving DecidableEq

structure Proof where
  commitment : Hash
  (txCount totalBytes encodedSize chunkSize chunkCount dataShards parityShards parityCount : UInt64)
deriving DecidableEq

def defaultParityShards : UInt64 := 2

def maxErasureShards : UInt64 := 255

-- make panics for more bytes than the runtime's address space has.
def maxAlloc : Nat := 2 ^ 48

def allocate (count width : Nat) : Except RecoveryErr Unit := require (count * width ≤ maxAlloc) .panic

variable (chunks : List Chunk) (txs : List Tx) (chunkSize dataShards parityShards : UInt64)

-- The rounded-up division is an int's: near the largest chunk sizes its dividend wraps around, and a negative count panics in make.
def buildChunks : Except RecoveryErr (List Chunk) := do
  let data := encodeTransactions txs
  require (chunkSize ≠ 0 ∧ chunkSize.toNat < 2 ^ 63) .invalidChunkSize
  require (data.length + chunkSize.toNat - 1 < 2 ^ 63 ∨ 2 ^ 64 < data.length + 2 * chunkSize.toNat - 1) .panic
  let chunks := splitChunks data chunkSize.toNat
  allocate chunks.length 32
  return chunks

def chunkLeaves : List Hash := (chunks.insertionSort fun first second => first.index ≤ second.index).map chunkLeaf

def chunkRoot : Hash := merkleRoot (chunkLeaves chunks)

def parityGroupCount (chunkCount dataShards : UInt64) : UInt64 :=
  if chunkCount = 0 ∨ dataShards = 0 then 0 else (chunkCount + dataShards - 1) / dataShards

def checkShards : Except RecoveryErr Unit := do
  require (dataShards ≠ 0 ∧ dataShards ≤ maxErasureShards) .invalidDataShards
  require (parityShards ≠ 0 ∧ parityShards ≤ maxErasureShards) .invalidParityShards

def buildProofWithErasureOptions : Except RecoveryErr Proof := do
  checkShards dataShards parityShards
  let chunks ← buildChunks txs chunkSize
  let chunkCount := UInt64.ofNat chunks.length
  return ⟨chunkRoot chunks, UInt64.ofNat txs.length, (txs.map fun tx => UInt64.ofNat tx.length).sum,
    UInt64.ofNat (encodeTransactions txs).length, chunkSize, chunkCount, dataShards, parityShards,
    parityGroupCount chunkCount dataShards * parityShards⟩

def buildProofWithOptions : Except RecoveryErr Proof :=
  buildProofWithErasureOptions txs chunkSize dataShards defaultParityShards

variable (data : Bytes)

def paddedChunk (chunkSize : Nat) : Bytes := (data ++ List.replicate chunkSize 0).take chunkSize

def xorMulInto (target source : Bytes) (coefficient : UInt8) : Bytes :=
  if coefficient = 0 then target
  else if coefficient = 1 then List.zipWith (fun left right => left ^^^ right) target source
  else List.zipWith (fun left right => left ^^^ gfMul right coefficient) target source

-- The chunks of one group folded into a buffer, the one at position i with the coefficient x to the i.
def foldChunks (chunkSize : Nat) (x : UInt8) (buffer : Bytes) (placed : List (UInt64 × Bytes)) : Bytes :=
  placed.foldl (fun buffer (position, data) => xorMulInto buffer (paddedChunk data chunkSize) (gfPow x position)) buffer

def groupChunks (dataShards group : Nat) : List (UInt64 × Bytes) :=
  ((chunks.drop (group * dataShards)).take dataShards).mapIdx fun position chunk => (UInt64.ofNat position, chunk.data)

def parityChunk (chunkSize dataShards parityShards group shard : Nat) : Chunk :=
  ⟨UInt64.ofNat (group * parityShards + shard),
    foldChunks chunkSize (UInt8.ofNat (shard + 1)) (List.replicate chunkSize 0) (groupChunks chunks dataShards group)⟩

def reedSolomonParityChunks : List Chunk :=
  (List.range (parityGroupCount (UInt64.ofNat chunks.length) dataShards).toNat).flatMap fun group =>
    (List.range parityShards.toNat).map fun shard =>
      parityChunk chunks chunkSize.toNat dataShards.toNat parityShards.toNat group shard

def buildParityChunksWithOptions : Except RecoveryErr (List Chunk) := do
  checkShards dataShards parityShards
  let chunks ← buildChunks txs chunkSize
  allocate chunkSize.toNat 1
  allocate ((parityGroupCount (UInt64.ofNat chunks.length) dataShards).toNat * parityShards.toNat) 32
  return reedSolomonParityChunks chunks chunkSize dataShards parityShards

def buildParityChunks : Except RecoveryErr (List Chunk) :=
  buildParityChunksWithOptions txs chunkSize dataShards defaultParityShards

-- Gauss-Jordan elimination over the field of the tables; both size checks come first.
def invertMatrix (matrix : List (List UInt8)) : Except RecoveryErr (List (List UInt8)) := do
  require (matrix ≠ [] ∧ ∀ row ∈ matrix, row.length = matrix.length) .insufficientChunks
  match @GaussJordan.invert Gf256 _ _ matrix with
  | none => .error .insufficientChunks
  | some inverse => return inverse

def sortedParityShards (paritySet : Table UInt64 Bytes) : List UInt64 := paritySet.keys.insertionSort fun first second => first ≤ second

def indicesFrom (start stop : UInt64) : List UInt64 := (List.range (stop.toNat - start.toNat)).map fun offset => start + UInt64.ofNat offset

-- One equation of the group: a parity chunk without the part of the chunks that are there.
def equationRow (start : UInt64) (chunkSize : Nat) (missing present : List UInt64) (dataByIndex paritySet : Table UInt64 Bytes) (shard : UInt64) : Except RecoveryErr (List UInt8 × Bytes) := do
  let x := UInt8.ofNat (shard + 1).toNat
  let placed ← present.mapM fun index =>
    match dataByIndex.lookup index with
    | none => .error .tooManyMissing
    | some data => .ok (index - start, data)
  return (missing.map fun index => gfPow x (index - start), foldChunks chunkSize x ((paritySet.lookup shard).getD []) placed)

def combineRows (chunkSize : Nat) (coefficients : List UInt8) (right : List Bytes) : Bytes :=
  (coefficients.zip right).foldl (fun data (coefficient, line) => xorMulInto data line coefficient) (List.replicate chunkSize 0)

def recoverMissingGroupChunks (start stop : UInt64) (chunkSize : Nat) (missing : List UInt64) (dataByIndex paritySet : Table UInt64 Bytes) :
    Except RecoveryErr (List Bytes) := do
  require (missing.length ≤ (sortedParityShards paritySet).length) .insufficientChunks
  let equationShards := (sortedParityShards paritySet).take missing.length
  let present := (indicesFrom start stop).filter fun index => index ∉ missing
  let rows ← equationShards.mapM (equationRow start chunkSize missing present dataByIndex paritySet)
  let inverse ← invertMatrix (rows.map Prod.fst)
  return inverse.map fun coefficients => combineRows chunkSize coefficients (rows.map Prod.snd)

def trimRecoveredChunk (index : UInt64) (proof : Proof) : Bytes :=
  let used := proof.encodedSize - proof.chunkSize * (proof.chunkCount - 1)
  if index = proof.chunkCount - 1 ∧ used < proof.chunkSize then data.take used.toNat else data.take proof.chunkSize.toNat

section Recovering

variable (proof : Proof) (dataByIndex : Table UInt64 Bytes)

def addChunk (chunk : Chunk) : Except RecoveryErr (Table UInt64 Bytes) := do
  require (chunk.index < proof.chunkCount ∧ UInt64.ofNat chunk.data.length ≤ proof.chunkSize) .invalidChunkProof
  require ((dataByIndex.lookup chunk.index).isNone) .invalidChunkProof
  return dataByIndex.insert chunk.index chunk.data

def addParity (parityShards : UInt64) (parityByGroup : Table UInt64 (Table UInt64 Bytes)) (chunk : Chunk) :
    Except RecoveryErr (Table UInt64 (Table UInt64 Bytes)) := do
  require (UInt64.ofNat chunk.data.length = proof.chunkSize) .invalidChunkProof
  let group := chunk.index / parityShards
  let shard := chunk.index % parityShards
  require (group < parityGroupCount proof.chunkCount proof.dataShards) .invalidChunkProof
  let paritySet := (parityByGroup.lookup group).getD ∅
  require ((paritySet.lookup shard).isNone) .invalidChunkProof
  return parityByGroup.insert group (paritySet.insert shard chunk.data)

def groupStop (start : UInt64) : UInt64 := if start + proof.dataShards > proof.chunkCount then proof.chunkCount else start + proof.dataShards

def missingIn (group : UInt64) : List UInt64 :=
  (indicesFrom (group * proof.dataShards) (groupStop proof (group * proof.dataShards))).filter fun index => (dataByIndex.lookup index).isNone

def recoverGroup (parityShards : UInt64) (parityByGroup : Table UInt64 (Table UInt64 Bytes)) (dataByIndex : Table UInt64 Bytes) (group : UInt64) :
    Except RecoveryErr (Table UInt64 Bytes) := do
  let start := group * proof.dataShards
  let missing := missingIn proof dataByIndex group
  if missing = [] then return dataByIndex
  require (missing.length ≤ parityShards.toNat) .tooManyMissing
  let paritySet := (parityByGroup.lookup group).getD ∅
  require (missing.length ≤ paritySet.entries.length) .insufficientChunks
  let recovered ← recoverMissingGroupChunks start (groupStop proof start) proof.chunkSize.toNat missing dataByIndex paritySet
  return (missing.zip recovered).foldl (fun table (index, data) => table.insert index (trimRecoveredChunk data index proof)) dataByIndex

def recoverGroups (parityShards : UInt64) (parityByGroup : Table UInt64 (Table UInt64 Bytes)) :
    Nat → UInt64 → Table UInt64 Bytes → Except RecoveryErr (Table UInt64 Bytes)
  | 0, _, dataByIndex => .ok dataByIndex
  | count + 1, group, dataByIndex => do
      let dataByIndex ← recoverGroup proof parityShards parityByGroup dataByIndex group
      recoverGroups parityShards parityByGroup count (group + 1) dataByIndex

def orderChunks (dataByIndex : Table UInt64 Bytes) : Nat → UInt64 → Except RecoveryErr (List Chunk)
  | 0, _ => .ok []
  | count + 1, index =>
    match dataByIndex.lookup index with
    | none => .error .insufficientChunks
    | some data => do
        let later ← orderChunks dataByIndex count (index + 1)
        return ⟨index, data⟩ :: later

def effectiveParityShards : UInt64 := if proof.parityShards = 0 then 1 else proof.parityShards

-- RecoverData up to the point where the chunks are compared with the commitment.
def recoverChunks (chunks parity : List Chunk) : Except RecoveryErr (List Chunk) := do
  let parityShards := effectiveParityShards proof
  require (proof.chunkSize ≠ 0 ∧ proof.chunkCount ≠ 0 ∧ proof.dataShards ≠ 0 ∧ proof.encodedSize ≠ 0) .invalidChunkProof
  require (proof.dataShards ≤ maxErasureShards ∧ parityShards ≤ maxErasureShards) .invalidChunkProof
  require (proof.encodedSize ≤ proof.chunkSize * proof.chunkCount) .invalidChunkProof
  let groupCount := parityGroupCount proof.chunkCount proof.dataShards
  require (proof.parityCount = 0 ∨ proof.parityCount = groupCount * parityShards) .invalidChunkProof
  let dataByIndex ← chunks.foldlM (addChunk proof) ∅
  let parityByGroup ← parity.foldlM (addParity proof parityShards) ∅
  let dataByIndex ← recoverGroups proof parityShards parityByGroup groupCount.toNat 0 dataByIndex
  allocate proof.chunkCount.toNat 32
  orderChunks dataByIndex proof.chunkCount.toNat 0

-- The result is cut out of a buffer with the claimed capacity, so a claim beyond the chunks reads zeros.
def recoverData (chunks parity : List Chunk) : Except RecoveryErr Bytes := do
  let ordered ← recoverChunks proof chunks parity
  require (chunkRoot ordered = proof.commitment) .commitmentMismatch
  allocate proof.encodedSize.toNat 1
  let encoded := ordered.flatMap Chunk.data
  return (encoded ++ List.replicate (proof.encodedSize.toNat - encoded.length) 0).take proof.encodedSize.toNat

end Recovering

def decodeTxs : Nat → Bytes → Except RecoveryErr (List Tx)
  | 0, rest => do
      require (rest = []) .invalidEncoding
      return []
  | count + 1, data => do
      require (8 ≤ data.length) .invalidEncoding
      let size := BigEndian.value (data.take 8)
      require (size ≤ (data.drop 8).length) .invalidEncoding
      let later ← decodeTxs count ((data.drop 8).drop size)
      return (data.drop 8).take size :: later

def decodeTransactions : Except RecoveryErr (List Tx) := do
  require (8 ≤ data.length) .invalidEncoding
  let count := BigEndian.value (data.take 8)
  allocate count 24
  decodeTxs count (data.drop 8)

def recoverTransactions (proof : Proof) (chunks parity : List Chunk) : Except RecoveryErr (List Tx) := do
  let data ← recoverData proof chunks parity
  decodeTransactions data

end Vexo.DataAvailability
