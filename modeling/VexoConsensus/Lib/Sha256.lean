import VexoConsensus.Lib.ByteCodec

namespace Sha256

open ByteCodec

structure Digest where
  bytes : Bytes
  size : bytes.length = 32
deriving DecidableEq

structure Words where
  (a b c d e f g h : UInt32)

def initial : Words :=
  ⟨0x6a09e667, 0xbb67ae85, 0x3c6ef372, 0xa54ff53a, 0x510e527f, 0x9b05688c, 0x1f83d9ab, 0x5be0cd19⟩

def constants : List UInt32 := [0x428a2f98, 0x71374491, 0xb5c0fbcf, 0xe9b5dba5, 0x3956c25b, 0x59f111f1, 0x923f82a4, 0xab1c5ed5,
  0xd807aa98, 0x12835b01, 0x243185be, 0x550c7dc3, 0x72be5d74, 0x80deb1fe, 0x9bdc06a7, 0xc19bf174,
  0xe49b69c1, 0xefbe4786, 0x0fc19dc6, 0x240ca1cc, 0x2de92c6f, 0x4a7484aa, 0x5cb0a9dc, 0x76f988da,
  0x983e5152, 0xa831c66d, 0xb00327c8, 0xbf597fc7, 0xc6e00bf3, 0xd5a79147, 0x06ca6351, 0x14292967,
  0x27b70a85, 0x2e1b2138, 0x4d2c6dfc, 0x53380d13, 0x650a7354, 0x766a0abb, 0x81c2c92e, 0x92722c85,
  0xa2bfe8a1, 0xa81a664b, 0xc24b8b70, 0xc76c51a3, 0xd192e819, 0xd6990624, 0xf40e3585, 0x106aa070,
  0x19a4c116, 0x1e376c08, 0x2748774c, 0x34b0bcb5, 0x391c0cb3, 0x4ed8aa4a, 0x5b9cca4f, 0x682e6ff3,
  0x748f82ee, 0x78a5636f, 0x84c87814, 0x8cc70208, 0x90befffa, 0xa4506ceb, 0xbef9a3f7, 0xc67178f2]

def rotateRight (word count : UInt32) : UInt32 := (word >>> count) ||| (word <<< (32 - count))

variable (state : Words)

def round (input : UInt32) : Words :=
  let sum1 := rotateRight state.e 6 ^^^ rotateRight state.e 11 ^^^ rotateRight state.e 25
  let choice := (state.e &&& state.f) ^^^ (~~~state.e &&& state.g)
  let first := state.h + sum1 + choice + input
  let sum0 := rotateRight state.a 2 ^^^ rotateRight state.a 13 ^^^ rotateRight state.a 22
  let majority := (state.a &&& state.b) ^^^ (state.a &&& state.c) ^^^ (state.b &&& state.c)
  ⟨first + (sum0 + majority), state.a, state.b, state.c, state.d + first, state.e, state.f, state.g⟩

-- The argument list is a sliding window of the sixteen latest schedule words, oldest first.
def schedule : Nat → List UInt32 → List UInt32
  | count + 1, [w0, w1, w2, w3, w4, w5, w6, w7, w8, w9, w10, w11, w12, w13, w14, w15] =>
    let sigma0 := rotateRight w1 7 ^^^ rotateRight w1 18 ^^^ (w1 >>> 3)
    let sigma1 := rotateRight w14 17 ^^^ rotateRight w14 19 ^^^ (w14 >>> 10)
    w0 :: schedule count [w1, w2, w3, w4, w5, w6, w7, w8, w9, w10, w11, w12, w13, w14, w15, w0 + sigma0 + w9 + sigma1]
  | _, window => window

def blockWords : Bytes → List UInt32
  | b0 :: b1 :: b2 :: b3 :: rest =>
    ((b0.toUInt32 <<< 24) ||| (b1.toUInt32 <<< 16) ||| (b2.toUInt32 <<< 8) ||| b3.toUInt32) :: blockWords rest
  | _ => []

def compress (block : Bytes) : Words :=
  let inputs := List.zipWith (· + ·) constants (schedule 48 (blockWords block))
  let mixed := inputs.foldl round state
  ⟨state.a + mixed.a, state.b + mixed.b, state.c + mixed.c, state.d + mixed.d,
    state.e + mixed.e, state.f + mixed.f, state.g + mixed.g, state.h + mixed.h⟩

def pad (message : Bytes) : Bytes :=
  message ++ 0x80 :: List.replicate ((119 - message.length % 64) % 64) 0 ++ putUint64 (UInt64.ofNat (8 * message.length))

def absorb : Nat → Words → Bytes → Words
  | 0, state, _ => state
  | count + 1, state, padded => absorb count (compress state (padded.take 64)) (padded.drop 64)

def output : Digest where
  bytes := putUint32 state.a ++ putUint32 state.b ++ putUint32 state.c ++ putUint32 state.d ++
    putUint32 state.e ++ putUint32 state.f ++ putUint32 state.g ++ putUint32 state.h
  size := by simp

def sum256 (message : Bytes) : Digest :=
  let padded := pad message
  output (absorb (padded.length / 64) initial padded)

-- The one-block test vector of FIPS 180-4.
example : (sum256 (utf8 "abc")).bytes = [0xba, 0x78, 0x16, 0xbf, 0x8f, 0x01, 0xcf, 0xea, 0x41, 0x41, 0x40, 0xde, 0x5d, 0xae, 0x22, 0x23,
      0xb0, 0x03, 0x61, 0xa3, 0x96, 0x17, 0x7a, 0x9c, 0xb4, 0x10, 0xff, 0x61, 0xf2, 0x00, 0x15, 0xad] := by
  decide +kernel

-- Equal digests are only used to conclude equal messages for the messages a result names:
-- no function into 32 bytes is injective on all of them.
def CollisionFree (messages : Set Bytes) : Prop :=
  ∀ left ∈ messages, ∀ right ∈ messages, sum256 left = sum256 right → left = right

theorem collision_free_mono {small large : Set Bytes} (subset : small ⊆ large) (free : CollisionFree large) : CollisionFree small :=
  fun left leftIn right rightIn same => free left (subset leftIn) right (subset rightIn) same

end Sha256
