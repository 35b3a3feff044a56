/-
This file gives the hash SHA-256, and the keyed hash HMAC over it.
-/

import Mathlib.Algebra.Group.Nat.Defs
import Mathlib.Data.Nat.Basic

namespace Divine.Sha256

/-! ### The hash -/

/-- The words of the hash. -/
abbrev State := Vector UInt32 8

def initialState : State :=
  #v[0x6a09e667, 0xbb67ae85, 0x3c6ef372, 0xa54ff53a, 0x510e527f, 0x9b05688c, 0x1f83d9ab, 0x5be0cd19]

def roundConstants : List UInt32 :=
  [0x428a2f98, 0x71374491, 0xb5c0fbcf, 0xe9b5dba5, 0x3956c25b, 0x59f111f1, 0x923f82a4, 0xab1c5ed5,
    0xd807aa98, 0x12835b01, 0x243185be, 0x550c7dc3, 0x72be5d74, 0x80deb1fe, 0x9bdc06a7, 0xc19bf174,
    0xe49b69c1, 0xefbe4786, 0x0fc19dc6, 0x240ca1cc, 0x2de92c6f, 0x4a7484aa, 0x5cb0a9dc, 0x76f988da,
    0x983e5152, 0xa831c66d, 0xb00327c8, 0xbf597fc7, 0xc6e00bf3, 0xd5a79147, 0x06ca6351, 0x14292967,
    0x27b70a85, 0x2e1b2138, 0x4d2c6dfc, 0x53380d13, 0x650a7354, 0x766a0abb, 0x81c2c92e, 0x92722c85,
    0xa2bfe8a1, 0xa81a664b, 0xc24b8b70, 0xc76c51a3, 0xd192e819, 0xd6990624, 0xf40e3585, 0x106aa070,
    0x19a4c116, 0x1e376c08, 0x2748774c, 0x34b0bcb5, 0x391c0cb3, 0x4ed8aa4a, 0x5b9cca4f, 0x682e6ff3,
    0x748f82ee, 0x78a5636f, 0x84c87814, 0x8cc70208, 0x90befffa, 0xa4506ceb, 0xbef9a3f7, 0xc67178f2]

def rotateRight (word count : UInt32) : UInt32 := (word >>> count) ||| (word <<< (32 - count))

def bigEndian (bytes : List UInt8) (place : Nat) : UInt32 :=
  let byte (offset : Nat) : UInt32 := (bytes.getD (4 * place + offset) 0).toUInt32
  byte 0 <<< 24 ||| byte 1 <<< 16 ||| byte 2 <<< 8 ||| byte 3

/-- The words of the schedule, of which so many are still to be added. -/
def schedule : Nat → List UInt32 → List UInt32
  | 0, words => words
  | left + 1, words =>
      let before (count : Nat) : UInt32 := words.getD (words.length - count) 0
      let early := before 15
      let late := before 2
      let small := rotateRight early 7 ^^^ rotateRight early 18 ^^^ (early >>> 3)
      let large := rotateRight late 17 ^^^ rotateRight late 19 ^^^ (late >>> 10)
      schedule left (words ++ [before 16 + small + before 7 + large])

def round (state : State) (word constant : UInt32) : State :=
  let a := state[0]
  let e := state[4]
  let sumE := rotateRight e 6 ^^^ rotateRight e 11 ^^^ rotateRight e 25
  let choice := (e &&& state[5]) ^^^ ((~~~e) &&& state[6])
  let first := state[7] + sumE + choice + constant + word
  let sumA := rotateRight a 2 ^^^ rotateRight a 13 ^^^ rotateRight a 22
  let majority := (a &&& state[1]) ^^^ (a &&& state[2]) ^^^ (state[1] &&& state[2])
  #v[first + (sumA + majority), a, state[1], state[2], state[3] + first, e, state[5], state[6]]

/-- The hash of the blocks of 64 bytes, of which so many are left. -/
def compress : Nat → List UInt8 → State → State
  | 0, _, state => state
  | left + 1, bytes, state =>
      let words := schedule 48 ((List.range 16).map (bigEndian bytes))
      let mixed := (words.zip roundConstants).foldl
        (fun state pair => round state pair.1 pair.2) state
      compress left (bytes.drop 64)
        (Vector.zipWith (fun after before => after + before) mixed state)

/-- The message with its end marked and its length in bits written into the last eight bytes. -/
def padded (message : List UInt8) : List UInt8 :=
  let zeros := (119 - message.length % 64) % 64
  message ++ [0x80] ++ List.replicate zeros 0 ++
    (List.range 8).map fun place => UInt8.ofNat (8 * message.length / 256 ^ (7 - place))

def bytesOf (word : UInt32) : List UInt8 :=
  [(word >>> 24).toUInt8, (word >>> 16).toUInt8, (word >>> 8).toUInt8, word.toUInt8]

def sha256 (message : List UInt8) : List UInt8 :=
  let bytes := padded message
  (compress (bytes.length / 64) bytes initialState).toList.flatMap bytesOf

theorem length_sha256 (message : List UInt8) : (sha256 message).length = 32 := by
  have each : ∀ word, (bytesOf word).length = 4 := fun _ => rfl
  unfold sha256
  simp only [List.length_flatMap, each, List.map_const', List.sum_replicate_nat,
    Vector.length_toList]

/-! ### The keyed hash -/

/-- The key in a block of 64 bytes, hashed when it is longer. -/
def blockKey (key : List UInt8) : List UInt8 :=
  let short := if key.length > 64 then sha256 key else key
  short ++ List.replicate (64 - short.length) 0

def hmac (key message : List UInt8) : List UInt8 :=
  let inner := (blockKey key).map (· ^^^ 0x36)
  let outer := (blockKey key).map (· ^^^ 0x5c)
  sha256 (outer ++ sha256 (inner ++ message))

theorem length_hmac (key message : List UInt8) : (hmac key message).length = 32 := length_sha256 _

end Divine.Sha256
