import Mathlib.Tactic.LinearCombination
import VexoConsensus.DataAvailability.Recovery

namespace Vexo.DataAvailability

open ByteCodec Checks OrderedMap List

def lane (bytes : Bytes) (position : Nat) : Gf256 := toField (bytes.getD position 0)

def weigh (size : Nat) (row : List UInt8) (point : ℕ → Gf256) : Gf256 := ∑ index ∈ Finset.range size, toField (row.getD index 0) * point index

theorem lane_ext {first second : Bytes} (length : first.length = second.length) (same : ∀ position, lane first position = lane second position) :
    first = second := by
  refine ext_getElem length fun position inFirst inSecond => ?_
  have equal := to_field_injective (same position)
  rwa [getD_eq_getElem _ _ inFirst, getD_eq_getElem _ _ inSecond] at equal

theorem lane_zeros (count position : Nat) : lane (replicate count 0) position = 0 := by
  have zero : (replicate count (0 : UInt8)).getD position 0 = 0 := by
    rw [getD_eq_getElem?_getD, getElem?_replicate]
    split <;> rfl
  rw [lane, zero, to_field_zero]

theorem padded_length (data : Bytes) (chunkSize : Nat) : (paddedChunk data chunkSize).length = chunkSize := by
  rw [paddedChunk, length_take, length_append, length_replicate]
  omega

theorem padded_take {data : Bytes} {chunkSize : Nat} (fits : data.length ≤ chunkSize) : (paddedChunk data chunkSize).take data.length = data := by
  rw [paddedChunk, take_take, Nat.min_eq_left fits, take_left]

theorem xor_mul_length {target source : Bytes} (length : target.length = source.length) (coefficient : UInt8) :
    (xorMulInto target source coefficient).length = target.length := by
  unfold xorMulInto
  split
  · rfl
  · split <;> rw [length_zipWith, length, Nat.min_self]

theorem xor_mul_lane {target source : Bytes} (length : target.length = source.length) (coefficient : UInt8) (position : Nat) :
    lane (xorMulInto target source coefficient) position = lane target position + toField coefficient * lane source position := by
  unfold xorMulInto
  by_cases zero : coefficient = 0
  · rw [if_pos zero, zero, to_field_zero, zero_mul, add_zero]
  · by_cases one : coefficient = 1
    · rw [if_neg zero, if_pos one, one, to_field_one, one_mul, lane, GaussJordan.zip_get (by decide) length]
      rfl
    · have nothing : (0 : UInt8) ^^^ gfMul 0 coefficient = 0 := by rw [gfMul, if_pos (.inl rfl)]; rfl
      have value := @GaussJordan.zip_get _ (fun left right => left ^^^ gfMul right coefficient) _ nothing target source length position
      rw [if_neg zero, if_neg one, lane, value, to_field_xor, to_field_mul, mul_comm]
      rfl

section Folds

variable {coefficients : List UInt8} {buffer : Bytes}

theorem fold_length {chunkSize : Nat} (x : UInt8) (length : buffer.length = chunkSize) (placed : List (UInt64 × Bytes)) :
    (foldChunks chunkSize x buffer placed).length = chunkSize := by
  induction placed generalizing buffer with
  | nil => exact length
  | cons first rest ih =>
    refine ih ?_
    rw [xor_mul_length (by rw [length, padded_length]), length]

theorem fold_lane {chunkSize : Nat} (x : UInt8) (length : buffer.length = chunkSize) (placed : List (UInt64 × Bytes)) (position : Nat) :
    lane (foldChunks chunkSize x buffer placed) position =
      lane buffer position + (placed.map fun entry => toField x ^ entry.1.toNat * lane (paddedChunk entry.2 chunkSize) position).sum := by
  induction placed generalizing buffer with
  | nil => rw [map_nil, sum_nil, add_zero]; rfl
  | cons first rest ih =>
    have same : buffer.length = (paddedChunk first.2 chunkSize).length := by rw [length, padded_length]
    have next : (xorMulInto buffer (paddedChunk first.2 chunkSize) (gfPow x first.1)).length = chunkSize := by
      rw [xor_mul_length same, length]
    have step : foldChunks chunkSize x buffer (first :: rest) =
        foldChunks chunkSize x (xorMulInto buffer (paddedChunk first.2 chunkSize) (gfPow x first.1)) rest := rfl
    rw [step, ih next, xor_mul_lane same, gf_pow_eq, map_cons, sum_cons, add_assoc]

variable {chunkSize : Nat} {right : List Bytes} (lengths : ∀ line ∈ right, line.length = chunkSize)
include lengths
variable (count : coefficients.length = right.length)
include count

theorem combine_from (length : buffer.length = chunkSize) :
    ((coefficients.zip right).foldl (fun data (coefficient, line) => xorMulInto data line coefficient) buffer).length = chunkSize ∧
      ∀ position, lane ((coefficients.zip right).foldl (fun data (coefficient, line) => xorMulInto data line coefficient) buffer) position =
        lane buffer position + ∑ row ∈ Finset.range coefficients.length, toField (coefficients.getD row 0) * lane (right.getD row []) position := by
  induction coefficients generalizing right buffer with
  | nil => exact ⟨length, fun position => by rw [length_nil, Finset.sum_range_zero, add_zero]; rfl⟩
  | cons coefficient rest ih =>
    cases right with
    | nil => contradiction
    | cons line others =>
      rw [forall_mem_cons] at lengths
      have same : buffer.length = line.length := by rw [length, lengths.1]
      have next : (xorMulInto buffer line coefficient).length = chunkSize := by rw [xor_mul_length same, length]
      obtain ⟨folded, lanes⟩ := ih lengths.2 (Nat.succ.inj count) next
      refine ⟨folded, fun position => (lanes position).trans ?_⟩
      rw [xor_mul_lane same, length_cons, Finset.sum_range_succ']
      simp only [getD_cons_zero, getD_cons_succ]
      ring

theorem combine_length : (combineRows chunkSize coefficients right).length = chunkSize :=
  (combine_from lengths count length_replicate).1

theorem combine_lane (position : Nat) : lane (combineRows chunkSize coefficients right) position =
      weigh coefficients.length coefficients fun row => lane (right.getD row []) position := by
  rw [combineRows, (combine_from lengths count length_replicate).2, lane_zeros, zero_add]
  rfl

end Folds

theorem add_self (value : Gf256) : value + value = 0 := UInt8.xor_self

theorem dot_map (list : List Nat) (coefficient : Nat → UInt8) (value : Nat → Gf256) :
    (weigh list.length (list.map coefficient) fun column => value (list.getD column 0)) =
      (list.map fun offset => toField (coefficient offset) * value offset).sum := by
  induction list with
  | nil => rfl
  | cons first rest ih =>
    rw [map_cons, map_cons, sum_cons, ← ih]
    exact (Finset.sum_range_succ' _ _).trans (add_comm _ _)

def shardPoint (shard : UInt64) : UInt8 := UInt8.ofNat (shard + 1).toNat

def powerRow (offsets : List Nat) (shard : UInt64) : List UInt8 := offsets.map fun offset => gfPow (shardPoint shard) (UInt64.ofNat offset)

def placedAt (data : Nat → Bytes) (offsets : List Nat) : List (UInt64 × Bytes) := offsets.map fun offset => (UInt64.ofNat offset, data offset)

theorem placed_sum (chunkSize : Nat) (x : UInt8) (data : Nat → Bytes) (offsets : List Nat) (position : Nat) :
    ((placedAt data offsets).map fun entry => toField x ^ entry.1.toNat * lane (paddedChunk entry.2 chunkSize) position).sum =
      (offsets.map fun offset => toField (gfPow x (UInt64.ofNat offset)) * lane (paddedChunk (data offset) chunkSize) position).sum := by
  rw [placedAt, map_map]
  refine congrArg sum (map_congr_left fun offset _ => ?_)
  rw [Function.comp_apply, gf_pow_eq]

theorem equation_lane (chunkSize : Nat) (x : UInt8) (data : Nat → Bytes) (offsets : List Nat) (has : Nat → Prop) [DecidablePred has]
    (position : Nat) :
    lane (foldChunks chunkSize x (foldChunks chunkSize x (replicate chunkSize 0) (placedAt data offsets))
        (placedAt data (offsets.filter fun offset => has offset))) position =
      ((offsets.filter fun offset => ¬ has offset).map fun offset =>
        toField (gfPow x (UInt64.ofNat offset)) * lane (paddedChunk (data offset) chunkSize) position).sum := by
  have parts := sum_map_filter_add_sum_map_filter_not has
    (fun offset => toField (gfPow x (UInt64.ofNat offset)) * lane (paddedChunk (data offset) chunkSize) position) offsets
  rw [fold_lane x (fold_length x length_replicate _), fold_lane x length_replicate, lane_zeros, zero_add, placed_sum, placed_sum,
    ← parts, add_right_comm, add_self, zero_add]

section Solving

theorem sorted_parity_shards (paritySet : Table UInt64 Bytes) {count : Nat} (enough : count ≤ paritySet.entries.length) :
    ((sortedParityShards paritySet).take count).length = count ∧ (∀ shard ∈ (sortedParityShards paritySet).take count, shard ∈ paritySet.keys) ∧
      ((sortedParityShards paritySet).take count).Pairwise (· < ·) := by
  have arranged : (sortedParityShards paritySet).Perm paritySet.keys := perm_insertionSort _ _
  have length : (sortedParityShards paritySet).length = paritySet.entries.length := arranged.length_eq.trans (length_map _)
  have ordered : (sortedParityShards paritySet).Pairwise fun first second => first ≤ second := pairwise_insertionSort _ _
  have distinct : (sortedParityShards paritySet).Nodup := arranged.nodup_iff.mpr paritySet.keys_nodup
  refine ⟨by rw [length_take, length]; omega, fun shard listed => arranged.mem_iff.mp (mem_of_mem_take listed), ?_⟩
  exact ((ordered.and distinct).imp fun both => UInt64.lt_of_le_of_ne both.1 both.2).sublist (take_sublist _ _)

theorem shards_bounded {paritySet : Table UInt64 Bytes} {bound : UInt64} (small : ∀ shard ∈ paritySet.keys, shard < bound) :
    paritySet.entries.length ≤ bound.toNat := by
  have distinct : (paritySet.keys.map UInt64.toNat).Nodup := paritySet.keys_nodup.map fun _ _ => UInt64.toNat_inj.mp
  have inside : paritySet.keys.map UInt64.toNat ⊆ range bound.toNat := by
    intro number listed
    obtain ⟨shard, key, rfl⟩ := mem_map.mp listed
    exact mem_range.mpr (UInt64.lt_iff_toNat_lt.mp (small shard key))
  simpa [AList.keys, keys] using (subperm_of_subset distinct inside).length_le

theorem recovered_rows {start stop : UInt64} {chunkSize : Nat} {missing : List UInt64} {table paritySet : Table UInt64 Bytes}
    {offsets : List Nat} {right : UInt64 → Bytes} {inverse : List (List UInt8)} (enough : missing.length ≤ paritySet.entries.length)
    (rows : ∀ shard ∈ (sortedParityShards paritySet).take missing.length,
      equationRow start chunkSize missing ((indicesFrom start stop).filter fun index => index ∉ missing) table paritySet shard =
        .ok (powerRow offsets shard, right shard))
    (inverted : invertMatrix (((sortedParityShards paritySet).take missing.length).map (powerRow offsets)) = .ok inverse) :
    recoverMissingGroupChunks start stop chunkSize missing table paritySet = .ok (inverse.map fun coefficients =>
      combineRows chunkSize coefficients (((sortedParityShards paritySet).take missing.length).map right)) := by
  have total : (sortedParityShards paritySet).length = paritySet.entries.length := (perm_insertionSort _ _).length_eq.trans (length_map _)
  rw [recoverMissingGroupChunks]
  refine require_bind (total ▸ enough) (bind_ok (map_ok_of_forall rows) (bind_ok_iff.mpr ⟨inverse, ?_, ?_⟩))
  · rw [map_map]
    exact inverted
  · rw [map_map]
    rfl

-- invertMatrix answers with a left inverse.
def Inverted (size : Nat) (matrix : List (List UInt8)) : Prop :=
  ∃ inverse : List (List UInt8), invertMatrix matrix = .ok inverse ∧ inverse.length = size ∧ (∀ row ∈ inverse, row.length = size) ∧
    ∀ (point : ℕ → Gf256), ∀ row < size, weigh size (inverse.getD row []) (fun index => weigh size (matrix.getD index []) point) = point row

theorem invert_matrix_solves {size : Nat} {matrix : List (List UInt8)} (present : matrix ≠ []) (height : matrix.length = size)
    (width : ∀ row ∈ matrix, row.length = size)
    (independent : ∀ point : ℕ → Gf256, (∀ row < size, weigh size (matrix.getD row []) point = 0) → ∀ index < size, point index = 0) :
    Inverted size matrix := by
  have square : @GaussJordan.Shaped Gf256 size size matrix := ⟨height, width⟩
  obtain ⟨inverse, inverted⟩ := GaussJordan.invert_total square independent
  obtain ⟨shaped, recovers⟩ := GaussJordan.invert_correct square inverted
  refine ⟨inverse, ?_, shaped.height, shaped.width, recovers⟩
  have checked : matrix ≠ [] ∧ ∀ row ∈ matrix, row.length = matrix.length := ⟨present, fun row listed => (width row listed).trans height.symm⟩
  simp only [invertMatrix, Checks.require, if_pos checked, inverted]
  rfl

theorem point_nat {shard : UInt64} (small : shard < 255) : (shardPoint shard).toNat = shard.toNat + 1 := by
  have bound : shard.toNat < 255 := UInt64.lt_iff_toNat_lt.mp small
  have sum : (shard + 1).toNat = shard.toNat + 1 := by
    rw [UInt64.toNat_add]
    exact Nat.mod_eq_of_lt (show shard.toNat + 1 < 2 ^ 64 by omega)
  rw [shardPoint, UInt8.toNat_ofNat', sum, Nat.mod_eq_of_lt (by omega)]

theorem point_nonzero {shard : UInt64} (small : shard < 255) : toField (shardPoint shard) ≠ 0 := by
  intro zero
  have byte : (shardPoint shard).toNat = 0 := congrArg UInt8.toNat zero
  rw [point_nat small] at byte
  cases byte

theorem points_differ {first second : UInt64} (small : second < 255) (less : first < second) :
    toField (shardPoint first) ≠ toField (shardPoint second) := by
  intro same
  have bytes : (shardPoint first).toNat = (shardPoint second).toNat := congrArg UInt8.toNat same
  rw [point_nat (UInt64.lt_trans less small), point_nat small] at bytes
  have apart := UInt64.lt_iff_toNat_lt.mp less
  omega

section Equations

variable {x y z : Gf256} {u v w : Gf256}

theorem pair_solved {low high : Nat} (less : low < high) (xSome : x ≠ 0) (ySome : y ≠ 0) (apart : x ^ (high - low) ≠ y ^ (high - low))
    (atX : x ^ low * u + x ^ high * v = 0) (atY : y ^ low * u + y ^ high * v = 0) : u = 0 ∧ v = 0 := by
  have split : ∀ point : Gf256, point ≠ 0 → point ^ low * u + point ^ high * v = 0 → u + point ^ (high - low) * v = 0 := by
    intro point nonzero vanishes
    have factored : point ^ low * (u + point ^ (high - low) * v) = 0 := by
      rw [mul_add, ← mul_assoc, ← pow_add, Nat.add_sub_cancel' less.le, vanishes]
    exact (mul_eq_zero.mp factored).resolve_left (pow_ne_zero _ nonzero)
  have left := split x xSome atX
  have difference : (x ^ (high - low) - y ^ (high - low)) * v = 0 := by linear_combination left - split y ySome atY
  have second : v = 0 := (mul_eq_zero.mp difference).resolve_left (sub_ne_zero.mpr apart)
  exact ⟨by simpa [second] using left, second⟩

theorem triple_solved (xy : x ≠ y) (xz : x ≠ z) (yz : y ≠ z) (atX : u + x * v + x ^ 2 * w = 0) (atY : u + y * v + y ^ 2 * w = 0)
    (atZ : u + z * v + z ^ 2 * w = 0) : u = 0 ∧ v = 0 ∧ w = 0 := by
  have first : (x - y) * (v + (x + y) * w) = 0 := by linear_combination atX - atY
  have second : (x - z) * (v + (x + z) * w) = 0 := by linear_combination atX - atZ
  have linear := (mul_eq_zero.mp first).resolve_left (sub_ne_zero.mpr xy)
  have linear' := (mul_eq_zero.mp second).resolve_left (sub_ne_zero.mpr xz)
  have third : (y - z) * w = 0 := by linear_combination linear - linear'
  have none : w = 0 := (mul_eq_zero.mp third).resolve_left (sub_ne_zero.mpr yz)
  have also : v = 0 := by simpa [none] using linear
  exact ⟨by simpa [none, also] using atX, also, none⟩

end Equations

variable {missing : List Nat}

theorem weigh_powers (below : ∀ offset ∈ missing, offset < 255) (shard : UInt64) (point : ℕ → Gf256) :
    weigh missing.length (powerRow missing shard) point =
      ∑ index ∈ Finset.range missing.length, toField (shardPoint shard) ^ missing.getD index 0 * point index := by
  refine Finset.sum_congr rfl fun index listed => ?_
  have inside := Finset.mem_range.mp listed
  have small := below _ (getElem_mem inside)
  rw [powerRow, getD_eq_getElem _ _ (by simpa using inside), getElem_map, gf_pow_eq, UInt64.toNat_ofNat', getD_eq_getElem _ _ inside,
    Nat.mod_eq_of_lt (by omega)]

-- Two parity points separate any powers below 255, and any three points the first three powers.
structure Separated (missing : List Nat) (shards : List UInt64) : Prop where
  rising : missing.Pairwise (· < ·)
  below : ∀ offset ∈ missing, offset < 255
  sorted : shards.Pairwise (· < ·)
  within : ∀ shard ∈ shards, shard < 255
  count : shards.length = missing.length
  narrow : (∀ shard ∈ shards, shard < 2) ∨ ∀ offset ∈ missing, offset < 3

theorem rows_independent {shards : List UInt64} (separated : Separated missing shards) (point : ℕ → Gf256)
    (vanishes : ∀ row < missing.length, weigh missing.length ((shards.map (powerRow missing)).getD row []) point = 0) :
    ∀ index < missing.length, point index = 0 := by
  obtain ⟨rising, below, sorted, within, count, narrow⟩ := separated
  have equation : ∀ shard ∈ shards, ∑ index ∈ Finset.range missing.length, toField (shardPoint shard) ^ missing.getD index 0 * point index = 0 := by
    intro shard listed
    obtain ⟨row, inside, rfl⟩ := getElem_of_mem listed
    have held := vanishes row (count ▸ inside)
    rwa [getD_eq_getElem _ _ (by simpa using inside), getElem_map, weigh_powers below] at held
  rcases missing with _ | ⟨a, _ | ⟨b, _ | ⟨c, later⟩⟩⟩ <;> rcases shards with _ | ⟨s, _ | ⟨t, _ | ⟨r, rest⟩⟩⟩ <;> try cases count
  · simp
  · have value : toField (shardPoint s) ^ a * point 0 = 0 := by simpa using equation
    have zero := (mul_eq_zero.mp value).resolve_left (pow_ne_zero _ (point_nonzero (within s (by simp))))
    simpa using zero
  · have less : a < b := by simpa using rising
    have order : s < t := by simpa using sorted
    simp only [forall_mem_cons, not_mem_nil, false_implies, implies_true, and_true, length_cons, length_nil, Finset.sum_range_succ,
      Finset.sum_range_zero, zero_add] at below within narrow equation
    have apart : toField (shardPoint s) ^ (b - a) ≠ toField (shardPoint t) ^ (b - a) := by
      rcases narrow with two | three
      · obtain ⟨rfl, rfl⟩ : s = 0 ∧ t = 1 := by grind
        intro same
        have powers : toField 2 ^ 0 = toField 2 ^ (b - a) := by rwa [show toField (shardPoint 0) = 1 from rfl, one_pow] at same
        have zero := two_pow_injective (by omega) (by omega) powers
        omega
      · have different := points_differ within.2 order
        obtain one | two : b - a = 1 ∨ b - a = 2 := by omega
        · rwa [one, pow_one, pow_one]
        · rw [two]
          exact fun same => different ((sq_eq_sq_iff_eq_or_eq_neg.mp same).elim id id)
    obtain ⟨first, second⟩ := pair_solved less (point_nonzero within.1) (point_nonzero within.2) apart equation.1 equation.2
    intro index small
    change index < 2 at small
    interval_cases index <;> assumption
  · simp only [pairwise_cons, mem_cons, forall_eq_or_imp] at rising sorted within narrow
    rcases narrow with two | three
    · grind
    · obtain ⟨rfl, rfl, rfl⟩ : a = 0 ∧ b = 1 ∧ c = 2 := by omega
      obtain rfl : later = [] := eq_nil_iff_forall_not_mem.mpr fun offset listed =>
        absurd (rising.2.2.1 offset listed) (Nat.not_lt.mpr (Nat.le_of_lt_succ (three.2.2.2 offset listed)))
      obtain rfl : rest = [] := length_eq_zero_iff.mp (by simpa using count)
      simp only [mem_cons, not_mem_nil, or_false, forall_eq_or_imp, forall_eq, length_cons, length_nil, Finset.sum_range_succ,
        Finset.sum_range_zero, zero_add] at equation
      obtain ⟨first, second, third⟩ := triple_solved (points_differ within.2.1 sorted.1.1) (points_differ within.2.2.1 sorted.1.2.1)
        (points_differ within.2.2.1 sorted.2.1.1) (by simpa using equation.1) (by simpa using equation.2.1) (by simpa using equation.2.2)
      intro index small
      change index < 3 at small
      interval_cases index <;> assumption

variable (chunkSize : Nat) (data : Nat → Bytes) (offsets : List Nat) (has : Nat → Prop) [DecidablePred has] (shard : UInt64)

def parityBytes : Bytes := foldChunks chunkSize (shardPoint shard) (List.replicate chunkSize 0) (placedAt data offsets)

def rightSide : Bytes :=
  foldChunks chunkSize (shardPoint shard) (parityBytes chunkSize data offsets shard) (placedAt data (offsets.filter fun offset => has offset))

def lost : List Nat := offsets.filter fun offset => ¬ has offset

variable {chunkSize data offsets has} {shards : List UInt64}

theorem right_length : (rightSide chunkSize data offsets has shard).length = chunkSize :=
  fold_length _ (fold_length _ length_replicate _) _

theorem right_lane {row : Nat} (inside : row < shards.length) (position : Nat) :
    lane ((shards.map (rightSide chunkSize data offsets has)).getD row []) position = weigh (lost offsets has).length
        ((shards.map (powerRow (lost offsets has))).getD row [])
        fun column => lane (paddedChunk (data ((lost offsets has).getD column 0)) chunkSize) position := by
  have right : (shards.map (rightSide chunkSize data offsets has)).getD row [] = rightSide chunkSize data offsets has shards[row] := by
    rw [getD_eq_getElem _ _ (by simpa using inside), getElem_map]
  have left : (shards.map (powerRow (lost offsets has))).getD row [] = powerRow (lost offsets has) shards[row] := by
    rw [getD_eq_getElem _ _ (by simpa using inside), getElem_map]
  rw [right, rightSide, parityBytes, equation_lane]
  exact (dot_map _ _ fun offset => lane (paddedChunk (data offset) chunkSize) position).symm.trans
    (congrArg (fun line => weigh _ line _) left.symm)

theorem coefficients_invert {shards : List UInt64} (some_missing : missing ≠ []) (separated : Separated missing shards) :
    Inverted missing.length (shards.map (powerRow missing)) := by
  have given : shards ≠ [] := by
    rintro rfl
    exact some_missing (length_eq_zero_iff.mp separated.count.symm)
  refine invert_matrix_solves (mt map_eq_nil_iff.mp given) ((length_map _).trans separated.count) (fun row inside => ?_)
    (rows_independent separated)
  obtain ⟨shard, -, rfl⟩ := mem_map.mp inside
  exact length_map _

theorem group_solved (some_lost : lost offsets has ≠ []) (separated : Separated (lost offsets has) shards) :
    ∃ inverse, invertMatrix (shards.map (powerRow (lost offsets has))) = .ok inverse ∧
      (inverse.map fun coefficients => combineRows chunkSize coefficients (shards.map (rightSide chunkSize data offsets has))) =
        (lost offsets has).map fun offset => paddedChunk (data offset) chunkSize := by
  obtain ⟨inverse, inverted, height, width, recovers⟩ := coefficients_invert some_lost separated
  have lines : ∀ line ∈ shards.map (rightSide chunkSize data offsets has), line.length = chunkSize := by
    intro line inside
    obtain ⟨shard, -, rfl⟩ := mem_map.mp inside
    exact right_length shard
  refine ⟨inverse, inverted, ext_getElem (by rw [length_map, length_map, height]) fun column inInverse inMissing => ?_⟩
  rw [length_map] at inInverse inMissing
  rw [getElem_map, getElem_map]
  have own := width _ (getElem_mem inInverse)
  have paired : inverse[column].length = (shards.map (rightSide chunkSize data offsets has)).length := by rw [own, length_map, separated.count]
  refine lane_ext (by rw [combine_length lines paired, padded_length]) fun position => ?_
  have solved := recovers (fun column => lane (paddedChunk (data ((lost offsets has).getD column 0)) chunkSize) position)
    column inMissing
  rw [getD_eq_getElem _ _ inMissing, getD_eq_getElem _ _ inInverse] at solved
  rw [combine_lane lines paired, own, ← solved]
  refine Finset.sum_congr rfl fun index below => congrArg (toField (inverse[column].getD index 0) * ·) ?_
  exact right_lane (by rw [separated.count]; exact Finset.mem_range.mp below) position

end Solving

open AList

section Sizes

variable (data : Bytes) (chunkSize : Nat)

def countOf : Nat := max ((data.length + chunkSize - 1) / chunkSize) 1

def chunkAt (index : Nat) : Bytes := (data.drop (index * chunkSize)).take chunkSize

theorem split_chunks_eq :
    splitChunks data chunkSize = (range (countOf data chunkSize)).map fun index => ⟨UInt64.ofNat index, chunkAt data chunkSize index⟩ := rfl

variable {data : Bytes} {chunkSize : Nat}

theorem count_bounds (positive : 0 < chunkSize) (some_data : 0 < data.length) :
    (countOf data chunkSize - 1) * chunkSize < data.length ∧ data.length ≤ countOf data chunkSize * chunkSize ∧ 0 < countOf data chunkSize := by
  have division := Nat.div_add_mod (data.length + chunkSize - 1) chunkSize
  have rest := Nat.mod_lt (data.length + chunkSize - 1) positive
  have least : 1 ≤ (data.length + chunkSize - 1) / chunkSize := (Nat.one_le_div_iff positive).mpr (by omega)
  have count : countOf data chunkSize = (data.length + chunkSize - 1) / chunkSize := Nat.max_eq_left least
  rw [← count, Nat.mul_comm] at division
  rw [← count] at least
  rw [Nat.sub_mul, Nat.one_mul]
  omega

theorem chunk_at_length (positive : 0 < chunkSize) (some_data : 0 < data.length) {index : Nat} (inside : index < countOf data chunkSize) :
    (chunkAt data chunkSize index).length =
      if index = countOf data chunkSize - 1 then data.length - chunkSize * (countOf data chunkSize - 1) else chunkSize := by
  obtain ⟨last, all, -⟩ := count_bounds positive some_data
  rw [chunkAt, length_take, length_drop]
  by_cases final : index = countOf data chunkSize - 1
  · rw [if_pos final, ← final, Nat.mul_comm chunkSize]
    rw [← final] at last
    have whole : countOf data chunkSize * chunkSize = index * chunkSize + chunkSize := by
      rw [show countOf data chunkSize = index + 1 by omega, Nat.succ_mul]
    omega
  · have next : (index + 1) * chunkSize ≤ (countOf data chunkSize - 1) * chunkSize := Nat.mul_le_mul_right _ (by omega)
    rw [Nat.succ_mul] at next
    rw [if_neg final]
    omega

theorem chunk_at_le (data : Bytes) (chunkSize index : Nat) : (chunkAt data chunkSize index).length ≤ chunkSize := by
  rw [chunkAt, length_take]
  exact Nat.min_le_left _ _

end Sizes

-- What the builders leave in a proof, and the limits under which they return.
structure Layout (data : Bytes) (proof : Proof) : Prop where
  size : proof.encodedSize = UInt64.ofNat data.length
  count : proof.chunkCount = UInt64.ofNat (countOf data proof.chunkSize.toNat)
  parityShards : proof.parityShards = defaultParityShards
  parityCount : proof.parityCount = parityGroupCount proof.chunkCount proof.dataShards * defaultParityShards
  positive : 0 < proof.chunkSize.toNat
  shards : 0 < proof.dataShards.toNat ∧ proof.dataShards.toNat ≤ 255
  sizeFits : 8 ≤ data.length ∧ data.length ≤ maxAlloc
  countFits : countOf data proof.chunkSize.toNat * 32 ≤ maxAlloc
  chunkFits : proof.chunkSize.toNat ≤ maxAlloc

def Holds (data : Bytes) (proof : Proof) (present : UInt64 → Prop) (table : Table UInt64 Bytes) : Prop :=
  ∀ index, (present index → index < proof.chunkCount ∧ table.lookup index = some (chunkAt data proof.chunkSize.toNat index.toNat)) ∧
    (¬ present index → table.lookup index = none)

section Numbers

variable {data : Bytes} {proof : Proof} (layout : Layout data proof)
include layout

theorem some_data : 0 < data.length := Nat.lt_of_lt_of_le (by decide) layout.sizeFits.1

theorem layout_count : proof.chunkCount.toNat = countOf data proof.chunkSize.toNat := by
  have fits := layout.countFits
  rw [layout.count, UInt64.toNat_ofNat']
  unfold maxAlloc at fits
  omega

theorem layout_size : proof.encodedSize.toNat = data.length := by
  have fits := layout.sizeFits
  rw [layout.size, UInt64.toNat_ofNat']
  unfold maxAlloc at fits
  omega

def groupSize (count dataShards group : Nat) : Nat := min dataShards (count - group * dataShards)

theorem layout_groups : (parityGroupCount proof.chunkCount proof.dataShards).toNat =
    (countOf data proof.chunkSize.toNat + proof.dataShards.toNat - 1) / proof.dataShards.toNat := by
  have fits := layout.countFits
  have shards := layout.shards
  have count := layout_count layout
  obtain ⟨-, -, positive⟩ := count_bounds layout.positive (some_data layout)
  have nonzero : ¬ (proof.chunkCount = 0 ∨ proof.dataShards = 0) := by
    rintro (none | none)
    · rw [none] at count
      have zero : (0 : UInt64).toNat = 0 := rfl
      omega
    · rw [none] at shards
      have zero : (0 : UInt64).toNat = 0 := rfl
      omega
  unfold maxAlloc at fits
  rw [parityGroupCount, if_neg nonzero, UInt64.toNat_div, UInt64.toNat_sub_of_le, UInt64.toNat_add, count, UInt64.toNat_one]
  · congr 1
    omega
  · rw [UInt64.le_iff_toNat_le, UInt64.toNat_add, count, UInt64.toNat_one]
    omega

end Numbers

section Collecting

variable {data : Bytes} {proof : Proof} {present : UInt64 → Prop} {table : Table UInt64 Bytes}

theorem chunk_fits (data : Bytes) (proof : Proof) (index : Nat) :
    UInt64.ofNat (chunkAt data proof.chunkSize.toNat index).length ≤ proof.chunkSize := by
  have short := chunk_at_le data proof.chunkSize.toNat index
  have bound := proof.chunkSize.toNat_lt
  rw [UInt64.le_iff_toNat_le, UInt64.toNat_ofNat']
  omega

variable (holds : Holds data proof present table)
include holds

theorem holds_insert {index : UInt64} (inside : index < proof.chunkCount) :
    Holds data proof (fun other => present other ∨ other = index) (table.insert index (chunkAt data proof.chunkSize.toNat index.toNat)) := by
  intro other
  by_cases same : other = index
  · subst same
    exact ⟨fun _ => ⟨inside, lookup_insert _⟩, fun absent => absurd (.inr rfl) absent⟩
  · rw [lookup_insert_ne same]
    exact ⟨fun found => (holds other).1 (found.resolve_right same), fun absent => (holds other).2 fun found => absent (.inl found)⟩

theorem holds_congr {now : UInt64 → Prop} (same : ∀ index, now index ↔ present index) : Holds data proof now table :=
  fun index => ⟨fun found => (holds index).1 ((same index).mp found), fun absent => (holds index).2 (mt (same index).mpr absent)⟩

theorem add_chunk_holds {chunk : Chunk} (inside : chunk.index < proof.chunkCount)
    (own : chunk.data = chunkAt data proof.chunkSize.toNat chunk.index.toNat) (fresh : ¬ present chunk.index) :
    ∃ next, addChunk proof table chunk = .ok next ∧ Holds data proof (fun other => present other ∨ other = chunk.index) next := by
  refine ⟨table.insert chunk.index chunk.data, ?_, own ▸ holds_insert holds inside⟩
  have fits : UInt64.ofNat chunk.data.length ≤ proof.chunkSize := own ▸ chunk_fits data proof _
  have unknown : (table.lookup chunk.index).isNone := by rw [(holds chunk.index).2 fresh]; rfl
  rw [addChunk, require, if_pos ⟨inside, fits⟩, require, if_pos unknown]
  rfl

theorem add_chunks_hold {chunks : List Chunk}
    (inside : ∀ chunk ∈ chunks, chunk.index < proof.chunkCount ∧ chunk.data = chunkAt data proof.chunkSize.toNat chunk.index.toNat)
    (fresh : ∀ chunk ∈ chunks, ¬ present chunk.index) (distinct : (chunks.map Chunk.index).Nodup) :
    ∃ next, chunks.foldlM (addChunk proof) table = .ok next ∧
      Holds data proof (fun other => present other ∨ other ∈ chunks.map Chunk.index) next := by
  induction chunks generalizing present table with
  | nil => exact ⟨table, rfl, holds_congr holds fun index => by simp⟩
  | cons chunk later ih =>
    rw [forall_mem_cons] at inside fresh
    rw [map_cons, nodup_cons] at distinct
    obtain ⟨next, added, holds⟩ := add_chunk_holds holds inside.1.1 inside.1.2 fresh.1
    have others : ∀ chunk' ∈ later, ¬ (present chunk'.index ∨ chunk'.index = chunk.index) := by
      rintro chunk' listed (found | same)
      · exact fresh.2 chunk' listed found
      · exact distinct.1 (same ▸ mem_map_of_mem listed)
    obtain ⟨last, folded, holds⟩ := ih holds inside.2 others distinct.2
    refine ⟨last, ?_, holds_congr holds fun index => by simp [or_assoc]⟩
    rw [foldlM_cons, added]
    exact folded

end Collecting

section Parity

variable {data : Bytes} {proof : Proof}

def groupData (data : Bytes) (proof : Proof) (group offset : Nat) : Bytes :=
  chunkAt data proof.chunkSize.toNat (group * proof.dataShards.toNat + offset)

def groupOffsets (data : Bytes) (proof : Proof) (group : Nat) : List Nat :=
  List.range (groupSize (countOf data proof.chunkSize.toNat) proof.dataShards.toNat group)

def groupParity (data : Bytes) (proof : Proof) (group : Nat) (shard : UInt64) : Bytes :=
  parityBytes proof.chunkSize.toNat (groupData data proof group) (groupOffsets data proof group) shard

theorem group_parity_length (group : Nat) (shard : UInt64) : (groupParity data proof group shard).length = proof.chunkSize.toNat :=
  fold_length _ length_replicate _

theorem group_chunks_placed (group : Nat) : groupChunks (splitChunks data proof.chunkSize.toNat) proof.dataShards.toNat group =
    placedAt (groupData data proof group) (groupOffsets data proof group) := by
  refine ext_getElem ?_ fun position inside inside' => ?_
  · simp [groupChunks, split_chunks_eq, placedAt, groupOffsets, groupSize]
  · simp [groupChunks, split_chunks_eq, placedAt, groupOffsets, groupData]

def Parities (data : Bytes) (proof : Proof) (given : UInt64 → UInt64 → Prop) (sets : Table UInt64 (Table UInt64 Bytes)) : Prop :=
  ∀ group shard, (given group shard → ((sets.lookup group).getD ∅).lookup shard = some (groupParity data proof group.toNat shard)) ∧
    (¬ given group shard → ((sets.lookup group).getD ∅).lookup shard = none)

variable {given : UInt64 → UInt64 → Prop} {sets : Table UInt64 (Table UInt64 Bytes)}

theorem parities_congr (kept : Parities data proof given sets) {now : UInt64 → UInt64 → Prop} (same : ∀ group shard, now group shard ↔ given group shard) :
    Parities data proof now sets :=
  fun group shard => ⟨fun found => (kept group shard).1 ((same group shard).mp found),
    fun absent => (kept group shard).2 (mt (same group shard).mpr absent)⟩

theorem parities_insert (kept : Parities data proof given sets) (group shard : UInt64) :
    Parities data proof (fun other part => given other part ∨ other = group ∧ part = shard)
      (sets.insert group (((sets.lookup group).getD ∅).insert shard (groupParity data proof group.toNat shard))) := by
  intro other part
  by_cases same : other = group
  · subst same
    rw [lookup_insert, Option.getD_some]
    by_cases equal : part = shard
    · subst equal
      exact ⟨fun _ => lookup_insert _, fun absent => absurd (.inr ⟨rfl, rfl⟩) absent⟩
    · rw [lookup_insert_ne equal]
      exact ⟨fun found => (kept other part).1 (found.resolve_right fun both => equal both.2),
        fun absent => (kept other part).2 fun found => absent (.inl found)⟩
  · rw [lookup_insert_ne same]
    exact ⟨fun found => (kept other part).1 (found.resolve_right fun both => same both.1),
      fun absent => (kept other part).2 fun found => absent (.inl found)⟩

def IsParity (data : Bytes) (proof : Proof) (chunk : Chunk) : Prop :=
  chunk.index / defaultParityShards < parityGroupCount proof.chunkCount proof.dataShards ∧
    chunk.data = groupParity data proof (chunk.index / defaultParityShards).toNat (chunk.index % defaultParityShards)

theorem add_parity_kept (kept : Parities data proof given sets) {chunk : Chunk} (own : IsParity data proof chunk)
    (fresh : ¬ given (chunk.index / defaultParityShards) (chunk.index % defaultParityShards)) :
    ∃ next, addParity proof defaultParityShards sets chunk = .ok next ∧
      Parities data proof (fun group shard => given group shard ∨ group = chunk.index / defaultParityShards ∧ shard = chunk.index % defaultParityShards)
        next := by
  have inserted := parities_insert kept (chunk.index / defaultParityShards) (chunk.index % defaultParityShards)
  rw [← own.2] at inserted
  refine ⟨_, ?_, inserted⟩
  have length : UInt64.ofNat chunk.data.length = proof.chunkSize := by
    rw [own.2, group_parity_length, UInt64.ofNat_toNat]
  have unknown := (kept _ _).2 fresh
  simp only [addParity, require, if_pos length, if_pos own.1, unknown, Option.isNone_none, if_true]
  rfl

theorem same_index {first second : UInt64} (group : first / defaultParityShards = second / defaultParityShards)
    (shard : first % defaultParityShards = second % defaultParityShards) : first = second := by
  rw [← UInt64.toNat_inj] at group shard ⊢
  rw [UInt64.toNat_div, UInt64.toNat_div] at group
  rw [UInt64.toNat_mod, UInt64.toNat_mod] at shard
  rw [← Nat.div_add_mod first.toNat defaultParityShards.toNat, group, shard, Nat.div_add_mod]

theorem add_parities_kept {parity : List Chunk} (kept : Parities data proof given sets) (own : ∀ chunk ∈ parity, IsParity data proof chunk)
    (fresh : ∀ chunk ∈ parity, ¬ given (chunk.index / defaultParityShards) (chunk.index % defaultParityShards))
    (distinct : (parity.map Chunk.index).Nodup) :
    ∃ next, parity.foldlM (addParity proof defaultParityShards) sets = .ok next ∧ Parities data proof (fun group shard => given group shard ∨
        ∃ chunk ∈ parity, group = chunk.index / defaultParityShards ∧ shard = chunk.index % defaultParityShards) next := by
  induction parity generalizing given sets with
  | nil => exact ⟨sets, rfl, parities_congr kept fun group shard => by simp⟩
  | cons chunk later ih =>
    rw [forall_mem_cons] at own fresh
    rw [map_cons, nodup_cons] at distinct
    obtain ⟨next, added, kept⟩ := add_parity_kept kept own.1 fresh.1
    have others : ∀ chunk' ∈ later, ¬ (given (chunk'.index / defaultParityShards) (chunk'.index % defaultParityShards) ∨
        chunk'.index / defaultParityShards = chunk.index / defaultParityShards ∧
          chunk'.index % defaultParityShards = chunk.index % defaultParityShards) := by
      rintro chunk' listed (found | ⟨group, shard⟩)
      · exact fresh.2 chunk' listed found
      · exact distinct.1 (same_index group shard ▸ mem_map_of_mem listed)
    obtain ⟨last, folded, kept⟩ := ih kept own.2 others distinct.2
    refine ⟨last, ?_, parities_congr kept fun group shard => by simp [or_assoc]⟩
    rw [foldlM_cons, added]
    exact folded

end Parity

section Group

variable {data : Bytes} {proof : Proof} (layout : Layout data proof) {group : Nat}
  (inside : group < (parityGroupCount proof.chunkCount proof.dataShards).toNat)

def indexAt (proof : Proof) (group offset : Nat) : UInt64 := UInt64.ofNat (group * proof.dataShards.toNat + offset)

def missingOffsets (data : Bytes) (proof : Proof) (present : UInt64 → Prop) [DecidablePred present] (group : Nat) : List Nat :=
  (groupOffsets data proof group).filter fun offset => ¬ present (indexAt proof group offset)

include layout inside

theorem group_start_lt : group * proof.dataShards.toNat < countOf data proof.chunkSize.toNat := by
  have shards := layout.shards
  rw [layout_groups layout, Nat.lt_div_iff_mul_lt shards.1] at inside
  obtain ⟨-, -, positive⟩ := count_bounds layout.positive (some_data layout)
  omega

theorem index_at_nat {offset : Nat} (listed : offset ∈ groupOffsets data proof group) :
    (indexAt proof group offset).toNat = group * proof.dataShards.toNat + offset ∧
      group * proof.dataShards.toNat + offset < countOf data proof.chunkSize.toNat ∧ offset < proof.dataShards.toNat := by
  have fits := layout.countFits
  have start := group_start_lt layout inside
  rw [groupOffsets, mem_range, groupSize] at listed
  rw [indexAt, UInt64.toNat_ofNat']
  unfold maxAlloc at fits
  omega

omit inside layout in
theorem start_add (offset : Nat) : UInt64.ofNat group * proof.dataShards + UInt64.ofNat offset = indexAt proof group offset := by
  rw [indexAt, UInt64.ofNat_add, UInt64.ofNat_mul, UInt64.ofNat_toNat]

theorem group_indices : indicesFrom (UInt64.ofNat group * proof.dataShards) (groupStop proof (UInt64.ofNat group * proof.dataShards)) =
    (groupOffsets data proof group).map (indexAt proof group) := by
  have fits := layout.countFits
  have shards := layout.shards
  have count := layout_count layout
  have first := group_start_lt layout inside
  unfold maxAlloc at fits
  have start : (UInt64.ofNat group * proof.dataShards).toNat = group * proof.dataShards.toNat := by
    have value := congrArg UInt64.toNat (@start_add proof group 0)
    rw [indexAt, UInt64.toNat_ofNat', Nat.add_zero] at value
    rw [show UInt64.ofNat 0 = 0 from rfl, UInt64.add_zero] at value
    omega
  have stop : (groupStop proof (UInt64.ofNat group * proof.dataShards)).toNat =
      min (countOf data proof.chunkSize.toNat) (group * proof.dataShards.toNat + proof.dataShards.toNat) := by
    have sum : (UInt64.ofNat group * proof.dataShards + proof.dataShards).toNat = group * proof.dataShards.toNat + proof.dataShards.toNat := by
      rw [UInt64.toNat_add, start]
      omega
    unfold groupStop
    split
    · next beyond =>
      rw [count]
      rw [gt_iff_lt, UInt64.lt_iff_toNat_lt, sum, count] at beyond
      omega
    · next beyond =>
      rw [sum]
      rw [gt_iff_lt, UInt64.lt_iff_toNat_lt, sum, count] at beyond
      omega
  have size : (groupStop proof (UInt64.ofNat group * proof.dataShards)).toNat - (UInt64.ofNat group * proof.dataShards).toNat =
      groupSize (countOf data proof.chunkSize.toNat) proof.dataShards.toNat group := by
    rw [stop, start, groupSize]
    omega
  rw [indicesFrom, size]
  exact map_congr_left fun offset _ => start_add offset

variable {present : UInt64 → Prop} [DecidablePred present] {table : Table UInt64 Bytes} (holds : Holds data proof present table)
include holds

theorem missing_offsets : missingIn proof table (UInt64.ofNat group) = (missingOffsets data proof present group).map (indexAt proof group) := by
  rw [missingIn, group_indices layout inside, filter_map]
  refine congrArg (map _) (filter_congr fun offset _ => ?_)
  rw [Function.comp_apply]
  by_cases found : present (indexAt proof group offset)
  · rw [((holds _).1 found).2]
    simp [found]
  · rw [(holds _).2 found]
    simp [found]

theorem present_offsets : ((indicesFrom (UInt64.ofNat group * proof.dataShards) (groupStop proof (UInt64.ofNat group * proof.dataShards))).filter
      fun index => index ∉ missingIn proof table (UInt64.ofNat group)) =
    ((groupOffsets data proof group).filter fun offset => present (indexAt proof group offset)).map (indexAt proof group) := by
  rw [group_indices layout inside, filter_map]
  refine congrArg (map _) (filter_congr fun offset listed => ?_)
  rw [Function.comp_apply, missingIn, group_indices layout inside]
  have own : indexAt proof group offset ∈ (groupOffsets data proof group).map (indexAt proof group) := mem_map_of_mem listed
  refine decide_eq_decide.mpr ?_
  rw [mem_filter]
  by_cases found : present (indexAt proof group offset)
  · simp [((holds _).1 found).2, found]
  · simp [(holds _).2 found, found, own]

omit inside holds in
theorem trim_recovered {index : UInt64} (below : index < proof.chunkCount) :
    trimRecoveredChunk (paddedChunk (chunkAt data proof.chunkSize.toNat index.toNat) proof.chunkSize.toNat) index proof =
      chunkAt data proof.chunkSize.toNat index.toNat := by
  have count := layout_count layout
  have size := layout_size layout
  have sizeFits := layout.sizeFits
  obtain ⟨last, -, positive⟩ := count_bounds layout.positive (some_data layout)
  rw [UInt64.lt_iff_toNat_lt, count] at below
  have length := chunk_at_length layout.positive (some_data layout) below
  have final : (proof.chunkCount - 1).toNat = countOf data proof.chunkSize.toNat - 1 := by
    rw [UInt64.toNat_sub_of_le, count, UInt64.toNat_one]
    rw [UInt64.le_iff_toNat_le, UInt64.toNat_one, count]
    exact positive
  have used : (proof.encodedSize - proof.chunkSize * (proof.chunkCount - 1)).toNat =
      data.length - proof.chunkSize.toNat * (countOf data proof.chunkSize.toNat - 1) := by
    have product : (proof.chunkSize * (proof.chunkCount - 1)).toNat = proof.chunkSize.toNat * (countOf data proof.chunkSize.toNat - 1) := by
      rw [UInt64.toNat_mul, final]
      rw [Nat.mul_comm] at last
      unfold maxAlloc at sizeFits
      omega
    rw [Nat.mul_comm] at last
    rw [UInt64.toNat_sub_of_le, size, product]
    rw [UInt64.le_iff_toNat_le, size, product]
    omega
  have short := chunk_at_le data proof.chunkSize.toNat index.toNat
  rw [trimRecoveredChunk]
  have same : index = proof.chunkCount - 1 ↔ index.toNat = countOf data proof.chunkSize.toNat - 1 := by
    rw [← final]
    exact UInt64.toNat_inj.symm
  split
  · next cut =>
      rw [used, ← (length.trans (if_pos (same.mp cut.1))), padded_take short]
  · next whole =>
      have full : (chunkAt data proof.chunkSize.toNat index.toNat).length = proof.chunkSize.toNat := by
        by_cases ends : index.toNat = countOf data proof.chunkSize.toNat - 1
        · have long : ¬ proof.encodedSize - proof.chunkSize * (proof.chunkCount - 1) < proof.chunkSize :=
            fun less => whole ⟨same.mpr ends, less⟩
          rw [UInt64.lt_iff_toNat_lt, used, ← length.trans (if_pos ends)] at long
          omega
        · exact length.trans (if_neg ends)
      calc (paddedChunk (chunkAt data proof.chunkSize.toNat index.toNat) proof.chunkSize.toNat).take proof.chunkSize.toNat
          = (paddedChunk (chunkAt data proof.chunkSize.toNat index.toNat) proof.chunkSize.toNat).take
              (chunkAt data proof.chunkSize.toNat index.toNat).length := by rw [full]
        _ = _ := padded_take short

theorem equation_row_of {shard : UInt64} {paritySet : Table UInt64 Bytes} (given : paritySet.lookup shard = some (groupParity data proof group shard)) :
    equationRow (UInt64.ofNat group * proof.dataShards) proof.chunkSize.toNat (missingIn proof table (UInt64.ofNat group))
      ((indicesFrom (UInt64.ofNat group * proof.dataShards) (groupStop proof (UInt64.ofNat group * proof.dataShards))).filter
        fun index => index ∉ missingIn proof table (UInt64.ofNat group)) table paritySet shard =
      .ok (powerRow (missingOffsets data proof present group) shard,
        rightSide proof.chunkSize.toNat (groupData data proof group) (groupOffsets data proof group) (fun offset => present (indexAt proof group offset)) shard) := by
  have relative : ∀ offset, indexAt proof group offset - UInt64.ofNat group * proof.dataShards = UInt64.ofNat offset := by
    intro offset
    rw [← start_add, UInt64.add_comm, UInt64.add_sub_cancel]
  rw [present_offsets layout inside holds, missing_offsets layout inside holds, equationRow]
  refine bind_ok_iff.mpr ⟨placedAt (groupData data proof group)
    ((groupOffsets data proof group).filter fun offset => present (indexAt proof group offset)), ?_, ?_⟩
  · refine (@map_ok_of_forall _ _ _ _ (fun index =>
      (index - UInt64.ofNat group * proof.dataShards, chunkAt data proof.chunkSize.toNat index.toNat)) _ fun index listed => ?_).trans ?_
    · obtain ⟨offset, kept, rfl⟩ := mem_map.mp listed
      have found : present (indexAt proof group offset) := by simpa using (mem_filter.mp kept).2
      rw [((holds _).1 found).2]
    · rw [map_map, placedAt]
      refine congrArg Except.ok (map_congr_left fun offset listed => ?_)
      rw [Function.comp_apply, relative, (index_at_nat layout inside (mem_filter.mp listed).1).1]
      rfl
  · rw [given, map_map]
    refine congrArg Except.ok (Prod.ext (map_congr_left fun offset _ => ?_) rfl)
    rw [Function.comp_apply, relative]
    rfl

variable {paritySet : Table UInt64 Bytes}

theorem recover_missing (small : ∀ shard ∈ paritySet.keys, shard = 0 ∨ shard = 1)
    (given : ∀ shard ∈ paritySet.keys, paritySet.lookup shard = some (groupParity data proof group shard))
    (some_missing : missingIn proof table (UInt64.ofNat group) ≠ [])
    (enough : (missingIn proof table (UInt64.ofNat group)).length ≤ paritySet.entries.length) :
    recoverMissingGroupChunks (UInt64.ofNat group * proof.dataShards) (groupStop proof (UInt64.ofNat group * proof.dataShards))
      proof.chunkSize.toNat (missingIn proof table (UInt64.ofNat group)) table paritySet =
      .ok ((missingOffsets data proof present group).map fun offset => paddedChunk (groupData data proof group offset) proof.chunkSize.toNat) := by
  obtain ⟨count, inKeys, sorted⟩ := sorted_parity_shards paritySet enough
  have listed := missing_offsets layout inside holds
  have two : ∀ shard ∈ (sortedParityShards paritySet).take (missingIn proof table (UInt64.ofNat group)).length, shard < 2 := by
    intro shard chosen
    rcases small shard (inKeys shard chosen) with rfl | rfl <;> decide
  have below : ∀ offset ∈ groupOffsets data proof group, offset < 255 :=
    fun offset inGroup => Nat.lt_of_lt_of_le (index_at_nat layout inside inGroup).2.2 layout.shards.2
  have separated : Separated (missingOffsets data proof present group)
      ((sortedParityShards paritySet).take (missingIn proof table (UInt64.ofNat group)).length) := {
    rising := pairwise_lt_range.filter _
    below := fun offset lost => below offset (mem_filter.mp lost).1
    sorted
    within := fun shard chosen => UInt64.lt_trans (two shard chosen) (by decide)
    count := count.trans (by rw [listed, length_map])
    narrow := .inl two }
  have some_lost : missingOffsets data proof present group ≠ [] := fun none => some_missing (by rw [listed, none, map_nil])
  obtain ⟨inverse, inverted, solved⟩ := @group_solved proof.chunkSize.toNat (groupData data proof group) _ _ _ _ some_lost separated
  rw [recovered_rows enough (fun shard chosen => equation_row_of layout inside holds (given shard (inKeys shard chosen))) inverted]
  exact congrArg Except.ok solved

omit inside holds in
theorem inserted_hold {indices : List UInt64} (inRange : ∀ index ∈ indices, index < proof.chunkCount) (holds : Holds data proof present table) :
    Holds data proof (fun index => present index ∨ index ∈ indices)
      ((indices.zip (indices.map fun index => paddedChunk (chunkAt data proof.chunkSize.toNat index.toNat) proof.chunkSize.toNat)).foldl
        (fun table (index, data) => table.insert index (trimRecoveredChunk data index proof)) table) := by
  induction indices generalizing present table with
  | nil => exact holds_congr holds fun index => by simp
  | cons index later ih =>
    rw [forall_mem_cons] at inRange
    have first := holds_insert holds inRange.1
    rw [← trim_recovered layout inRange.1] at first
    exact holds_congr (ih inRange.2 first) fun other => by simp [or_assoc]

omit holds [DecidablePred present] in
theorem in_group_iff (index : UInt64) : index ∈ (groupOffsets data proof group).map (indexAt proof group) ↔
    index < proof.chunkCount ∧ index.toNat / proof.dataShards.toNat = group := by
  have count := layout_count layout
  have shards := layout.shards
  constructor
  · intro listed
    obtain ⟨offset, kept, rfl⟩ := mem_map.mp listed
    obtain ⟨value, below, short⟩ := index_at_nat layout inside kept
    rw [UInt64.lt_iff_toNat_lt, value, count, Nat.mul_comm group, Nat.mul_add_div shards.1, Nat.div_eq_of_lt short]
    rw [Nat.mul_comm] at below
    exact ⟨below, rfl⟩
  · rintro ⟨below, rfl⟩
    rw [UInt64.lt_iff_toNat_lt, count] at below
    have division := Nat.div_add_mod index.toNat proof.dataShards.toNat
    have rest := Nat.mod_lt index.toNat shards.1
    rw [Nat.mul_comm] at division
    refine mem_map.mpr ⟨index.toNat % proof.dataShards.toNat, ?_, ?_⟩
    · rw [groupOffsets, mem_range, groupSize]
      omega
    · rw [indexAt, division, UInt64.ofNat_toNat]

theorem recover_group_holds {sets : Table UInt64 (Table UInt64 Bytes)} {given : UInt64 → UInt64 → Prop} (kept : Parities data proof given sets)
    (small : ∀ group shard, given group shard → shard = 0 ∨ shard = 1)
    (enough : (missingIn proof table (UInt64.ofNat group)).length ≤ ((sets.lookup (UInt64.ofNat group)).getD ∅).entries.length) :
    ∃ next, recoverGroup proof defaultParityShards sets table (UInt64.ofNat group) = .ok next ∧
      Holds data proof (fun index => present index ∨ index < proof.chunkCount ∧ index.toNat / proof.dataShards.toNat = group) next := by
  have same : (UInt64.ofNat group).toNat = group := by
    have bound := (parityGroupCount proof.chunkCount proof.dataShards).toNat_lt
    rw [UInt64.toNat_ofNat']
    omega
  have inKeys : ∀ shard ∈ ((sets.lookup (UInt64.ofNat group)).getD ∅).keys, given (UInt64.ofNat group) shard := by
    intro shard listed
    by_contra absent
    have none := (kept _ _).2 absent
    rw [AList.lookup_eq_none] at none
    exact none listed
  have members : ∀ index, index ∈ missingIn proof table (UInt64.ofNat group) ↔
      (index < proof.chunkCount ∧ index.toNat / proof.dataShards.toNat = group) ∧ ¬ present index := by
    intro index
    rw [missingIn, group_indices layout inside, mem_filter, in_group_iff layout inside]
    by_cases found : present index
    · simp [((holds index).1 found).2, found]
    · simp [(holds index).2 found, found]
  by_cases none : missingIn proof table (UInt64.ofNat group) = []
  · refine ⟨table, ?_, holds_congr holds fun index => ⟨fun found => ?_, .inl⟩⟩
    · rw [recoverGroup, if_pos none]
      rfl
    · rcases found with found | found
      · exact found
      · by_contra absent
        have listed := (members index).mpr ⟨found, absent⟩
        rw [none] at listed
        cases listed
  · have two : ∀ shard ∈ ((sets.lookup (UInt64.ofNat group)).getD ∅).keys, shard = 0 ∨ shard = 1 :=
      fun shard listed => small _ shard (inKeys shard listed)
    have stored : ∀ shard ∈ ((sets.lookup (UInt64.ofNat group)).getD ∅).keys,
        ((sets.lookup (UInt64.ofNat group)).getD ∅).lookup shard = some (groupParity data proof group shard) := by
      intro shard listed
      have own := (kept _ shard).1 (inKeys shard listed)
      rwa [same] at own
    have chunks := recover_missing layout inside holds two stored none enough
    have few : (missingIn proof table (UInt64.ofNat group)).length ≤ defaultParityShards.toNat := by
      refine enough.trans (shards_bounded fun shard listed => ?_)
      rcases two shard listed with rfl | rfl <;> decide
    refine ⟨_, ?_, holds_congr (inserted_hold layout (fun index listed => ((members index).mp listed).1.1) holds) fun index => ?_⟩
    · rw [recoverGroup, if_neg none]
      refine require_bind few (require_bind enough (bind_ok chunks ?_))
      refine congrArg (fun recovered => Except.ok (((missingIn proof table (UInt64.ofNat group)).zip recovered).foldl
        (fun table (index, data) => table.insert index (trimRecoveredChunk data index proof)) table)) ?_
      rw [missing_offsets layout inside holds, map_map]
      refine map_congr_left fun offset listed => ?_
      rw [Function.comp_apply, (index_at_nat layout inside (mem_filter.mp listed).1).1]
      rfl
    · rw [members index]
      tauto

end Group

end Vexo.DataAvailability
