/-
This file develops stream ciphers: data is combined with a keystream byte by byte, so that
the same key and nonce give the data back.
-/

import Mathlib.Data.Nat.Basic
import Mathlib.Logic.Function.Iterate

namespace Divine.StreamCipher

/-! ### Combining with a keystream -/

def combine (keystream : Nat → UInt8) (data : List UInt8) : List UInt8 :=
  data.mapIdx fun place byte => byte ^^^ keystream place

theorem length_combine (keystream : Nat → UInt8) (data : List UInt8) :
    (combine keystream data).length = data.length := List.length_mapIdx

theorem combine_combine (keystream : Nat → UInt8) (data : List UInt8) :
    combine keystream (combine keystream data) = data := by
  unfold combine
  rw [List.mapIdx_mapIdx]
  have undone : ∀ place byte, (byte ^^^ keystream place) ^^^ keystream place = byte := by
    intro place byte
    rw [UInt8.xor_assoc, UInt8.xor_self, UInt8.xor_zero]
  refine List.ext_getElem List.length_mapIdx fun place _ _ => ?_
  rw [List.getElem_mapIdx]
  exact undone place _

/-! ### The keystream of ChaCha20 -/

abbrev State := Vector UInt32 16

def rotateLeft (word : UInt32) (count : UInt32) : UInt32 :=
  (word <<< count) ||| (word >>> (32 - count))

def quarterRound (state : State) (a b c d : Fin 16) : State :=
  let state := state.set a (state[a] + state[b])
  let state := state.set d (rotateLeft (state[d] ^^^ state[a]) 16)
  let state := state.set c (state[c] + state[d])
  let state := state.set b (rotateLeft (state[b] ^^^ state[c]) 12)
  let state := state.set a (state[a] + state[b])
  let state := state.set d (rotateLeft (state[d] ^^^ state[a]) 8)
  let state := state.set c (state[c] + state[d])
  state.set b (rotateLeft (state[b] ^^^ state[c]) 7)

def doubleRound (state : State) : State :=
  let state := quarterRound state 0 4 8 12
  let state := quarterRound state 1 5 9 13
  let state := quarterRound state 2 6 10 14
  let state := quarterRound state 3 7 11 15
  let state := quarterRound state 0 5 10 15
  let state := quarterRound state 1 6 11 12
  let state := quarterRound state 2 7 8 13
  quarterRound state 3 4 9 14

def littleEndian (bytes : List UInt8) (place : Nat) : UInt32 :=
  let byte (offset : Nat) : UInt32 := (bytes.getD (4 * place + offset) 0).toUInt32
  byte 0 ||| byte 1 <<< 8 ||| byte 2 <<< 16 ||| byte 3 <<< 24

def initialState (key nonce : List UInt8) (counter : Nat) : State :=
  Vector.ofFn fun place =>
    if place.val < 4 then [0x61707865, 0x3320646e, 0x79622d32, 0x6b206574].getD place.val 0
    else if place.val < 12 then littleEndian key (place.val - 4)
    else if place.val = 12 then UInt32.ofNat counter
    else littleEndian nonce (place.val - 13)

def chacha20Block (key nonce : List UInt8) (counter : Nat) : State :=
  let state := initialState key nonce counter
  Vector.zipWith (fun mixed word => mixed + word) (doubleRound^[10] state) state

def chacha20 (key nonce : List UInt8) (place : Nat) : UInt8 :=
  let block := chacha20Block key nonce (place / 64)
  (block.toList.getD (place % 64 / 4) 0 >>> UInt32.ofNat (8 * (place % 4))).toUInt8

end Divine.StreamCipher
