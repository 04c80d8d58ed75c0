import Mathlib.Data.Nat.Bitwise
import VexoConsensus.App.Store
import VexoConsensus.Lib.TextCodec

namespace Vexo.Address

open ByteCodec App List

def accountHRP : GoString := utf8 "vexo"
def addressDomain : GoString := utf8 "vexo.address.v1"
def addressLength : Nat := 20

def bech32Charset : GoString := utf8 "qpzry9x8gf2tvdw0s3jn54khce6mua7l"

def generators : List Nat := [0x3b6a57b2, 0x26508e6d, 0x1ea119fa, 0x3d4233dd, 0x2a1462b3]

def polymodStep (checksum value : Nat) : Nat :=
  let top := checksum >>> 25
  generators.zipIdx.foldl (fun sum (generator, index) => if top >>> index % 2 = 1 then sum ^^^ generator else sum)
    (((checksum &&& 0x1ffffff) <<< 5) ^^^ value)

def bech32Polymod (values : List Nat) : Nat := values.foldl polymodStep 1

variable (hrp : GoString)

def hrpExpand : List Nat := hrp.map (fun char => char.toNat >>> 5) ++ 0 :: hrp.map fun char => char.toNat &&& 31

def createChecksum (data : List Nat) : List Nat :=
  let polymod := bech32Polymod (hrpExpand hrp ++ data ++ List.replicate 6 0) ^^^ 1
  (List.range 6).map fun index => (polymod >>> (5 * (5 - index))) &&& 31

-- The groups of five bits an accumulator with so many pending bits gives off, and the bits it keeps.
def fiveBits (accumulator : Nat) : Nat → Nat → List Nat × Nat
  | 0, bits => ([], bits)
  | fuel + 1, bits =>
    if bits ≥ 5 then
      let (groups, left) := fiveBits accumulator fuel (bits - 5)
      (((accumulator >>> (bits - 5)) &&& 31) :: groups, left)
    else ([], bits)

-- convertBits from eight to five bits, with padding.
def convertBits (accumulator bits : Nat) : Bytes → List Nat
  | [] => if bits > 0 then [(accumulator <<< (5 - bits)) &&& 31] else []
  | value :: rest =>
    let accumulator := ((accumulator <<< 8) ||| value.toNat) &&& 0xfff
    let (groups, left) := fiveBits accumulator 3 (bits + 8)
    groups ++ convertBits accumulator left rest

def bech32Encode (payload : Bytes) : GoString :=
  let data := convertBits 0 0 payload
  hrp ++ 49 :: (data ++ createChecksum hrp data).map fun value => bech32Charset.getD value 0

-- FromPublicKey for the account prefix, which is a valid one.
def accountFromPublicKey (publicKey : PublicKey) : Except AppErr Address :=
  if publicKey = [] then .error .emptyPublicKey
  else
    let digest := Sha256.sum256 (addressDomain ++ 58 :: accountHRP ++ 58 :: publicKey ++ [10])
    .ok (bech32Encode accountHRP (digest.bytes.take addressLength))

variable (hrp : GoString)

-- hrpExpand of any prefix: the source ranges over the runes of the string and keeps the low byte of each part.
def hrpExpandRunes : Bytes :=
  let runes := (Utf8.runes hrp.length hrp).map fun rune => (rune.getD Utf8.replacement).toNat
  runes.map (fun char => UInt8.ofNat (char >>> 5)) ++ 0 :: runes.map fun char => UInt8.ofNat (char &&& 31)

def verifyChecksum (data : Bytes) : Bool := bech32Polymod ((hrpExpandRunes hrp ++ data).map UInt8.toNat) = 1

def generatorSum (top start : Nat) : Nat :=
  generators.zipIdx.foldl (fun sum (generator, index) => if top >>> index % 2 = 1 then sum ^^^ generator else sum) start

theorem generator_sum_start (top start : Nat) : generatorSum top start = start ^^^ generatorSum top 0 := by
  simp only [generatorSum, generators, zipIdx_cons, zipIdx_nil, foldl_cons, foldl_nil]
  split_ifs <;> simp only [Nat.xor_assoc, Nat.zero_xor, Nat.xor_zero]

-- The low five bits of the added generators are different for every top, so they tell which top was shifted out.
theorem generator_sum_top : ∀ top < 32, generatorSum top 0 < 2 ^ 30 ∧
    ∀ other < 32, generatorSum top 0 % 2 ^ 5 = generatorSum other 0 % 2 ^ 5 → top = other := by decide

theorem polymod_step_eq (checksum value : Nat) :
    polymodStep checksum value = (checksum % 2 ^ 25 * 2 ^ 5) ^^^ generatorSum (checksum / 2 ^ 25) 0 ^^^ value := by
  have shifted : polymodStep checksum value = generatorSum (checksum >>> 25) (((checksum &&& 2 ^ 25 - 1) <<< 5) ^^^ value) := rfl
  rw [shifted, generator_sum_start, Nat.xor_right_comm, Nat.and_two_pow_sub_one_eq_mod, Nat.shiftLeft_eq, Nat.shiftRight_eq_div_pow]

section Injective

variable {checksum other : Nat} (small : checksum < 2 ^ 30) (small' : other < 2 ^ 30)
include small

theorem polymod_step_small {value : Nat} (byte : value < 2 ^ 30) : polymodStep checksum value < 2 ^ 30 := by
  rw [polymod_step_eq]
  have top := (generator_sum_top (checksum / 2 ^ 25) (by omega)).1
  exact Nat.xor_lt_two_pow (Nat.xor_lt_two_pow (by omega) top) byte

include small'

theorem polymod_step_injective {value : Nat} (same : polymodStep checksum value = polymodStep other value) : checksum = other := by
  rw [polymod_step_eq, polymod_step_eq, Nat.xor_left_inj] at same
  have low := congrArg (· % 2 ^ 5) same
  simp only [Nat.xor_mod_two_pow, Nat.mul_mod_left, Nat.zero_xor] at low
  have top := (generator_sum_top (checksum / 2 ^ 25) (by omega)).2 (other / 2 ^ 25) (by omega) low
  rw [top, Nat.xor_left_inj] at same
  omega

theorem polymod_tail_injective {values : Bytes}
    (same : (values.map UInt8.toNat).foldl polymodStep checksum = (values.map UInt8.toNat).foldl polymodStep other) : checksum = other := by
  induction values generalizing checksum other with
  | nil => exact same
  | cons value rest ih =>
    have byte := value.toNat_lt
    exact polymod_step_injective small small' (ih (polymod_step_small small (by omega)) (polymod_step_small small' (by omega)) same)

end Injective

theorem polymod_small (values : Bytes) : bech32Polymod (values.map UInt8.toNat) < 2 ^ 30 := by
  refine foldlRecOn (motive := (· < 2 ^ 30)) _ polymodStep (by decide) fun checksum small value listed => ?_
  obtain ⟨byte, -, rfl⟩ := mem_map.mp listed
  exact polymod_step_small small (byte.toNat_lt.trans (by decide))

-- One step keeps different checksums apart, and so does every further byte.
theorem one_symbol_caught (before after : Bytes) (symbol other : UInt8) (different : other ≠ symbol)
    (passes : verifyChecksum hrp (before ++ symbol :: after) = true) : verifyChecksum hrp (before ++ other :: after) = false := by
  rw [Bool.eq_false_iff]
  intro passes'
  have same := (of_decide_eq_true passes').trans (of_decide_eq_true passes).symm
  simp only [bech32Polymod, ← append_assoc, map_append, map_cons, foldl_append, foldl_cons] at same
  have small := polymod_small (hrpExpandRunes hrp ++ before)
  rw [bech32Polymod, map_append, foldl_append] at small
  have left := other.toNat_lt
  have right := symbol.toNat_lt
  have apart := polymod_tail_injective (polymod_step_small small (by omega)) (polymod_step_small small (by omega)) same
  rw [polymod_step_eq, polymod_step_eq, Nat.xor_right_inj] at apart
  exact different (UInt8.toNat_inj.mp apart)

theorem swapped_in_short_address : verifyChecksum [97] [10, 28, 25, 31, 20, 31] = true ∧ verifyChecksum [97] [10, 28, 24, 31, 20, 31] = false := by
  have passes : verifyChecksum [97] ([10, 28] ++ 25 :: [31, 20, 31]) = true := by with_unfolding_all decide
  exact ⟨passes, one_symbol_caught _ [10, 28] [31, 20, 31] 25 24 (by decide) passes⟩

end Vexo.Address
