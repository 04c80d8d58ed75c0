import Mathlib.Data.List.Basic
import Mathlib.Data.List.Infix

namespace ByteCodec

abbrev Bytes := List UInt8

instance lawfulBytes : LawfulBEq Bytes := inferInstance

def utf8 (text : String) : Bytes := text.toUTF8.toList

def putUint64 (value : UInt64) : Bytes :=
  [56, 48, 40, 32, 24, 16, 8, 0].map fun shift => UInt8.ofNat (value.toNat >>> shift)

def putUint32 (value : UInt32) : Bytes :=
  [24, 16, 8, 0].map fun shift => UInt8.ofNat (value.toNat >>> shift)

@[simp] theorem put_uint64_length (value : UInt64) : (putUint64 value).length = 8 := rfl

@[simp] theorem put_uint32_length (value : UInt32) : (putUint32 value).length = 4 := rfl

theorem put_uint64_injective (left right : UInt64) (same : putUint64 left = putUint64 right) : left = right := by
  have leftBound := left.toNat_lt
  have rightBound := right.toNat_lt
  simp only [putUint64, List.map_cons, List.map_nil, List.cons.injEq, and_true, ← UInt8.toNat_inj,
    UInt8.toNat_ofNat', Nat.shiftRight_eq_div_pow] at same
  apply UInt64.toNat_inj.mp
  omega

end ByteCodec

namespace GoText

open ByteCodec

def trimPrefix (start text : Bytes) : Bytes := if start.isPrefixOf text then text.drop start.length else text

def cutSuffix (tail text : Bytes) : Option Bytes :=
  if tail.isSuffixOf text then some (text.take (text.length - tail.length)) else none

-- Letters outside ASCII are kept: none of them lowers to a letter that is looked for.
def toLower (text : Bytes) : Bytes := text.map fun byte => if 65 ≤ byte ∧ byte ≤ 90 then byte + 32 else byte

-- The encodings of the runes unicode.IsSpace accepts.
def spaces : List Bytes :=
  [[9], [10], [11], [12], [13], [32], [0xC2, 0x85], [0xC2, 0xA0], [0xE1, 0x9A, 0x80], [0xE2, 0x80, 0xA8], [0xE2, 0x80, 0xA9],
    [0xE2, 0x80, 0xAF], [0xE2, 0x81, 0x9F], [0xE3, 0x80, 0x80]] ++
  (List.range 11).map fun index => [0xE2, 0x80, UInt8.ofNat (0x80 + index)]

def dropSpaces (runes : List Bytes) : Nat → Bytes → Bytes
  | 0, text => text
  | fuel + 1, text =>
    match runes.find? fun rune => rune.isPrefixOf text with
    | some rune => dropSpaces runes fuel (text.drop rune.length)
    | none => text

def trimSpace (text : Bytes) : Bytes :=
  let left := dropSpaces spaces text.length text
  (dropSpaces (spaces.map List.reverse) left.length left.reverse).reverse

end GoText
