/-
This file shows that the edge worker encodes a public key as it should.
-/

import Divine.ComputeJs.SubdomainProfile
import Divine.Library.Bits
import Divine.Library.Remainder

namespace Divine.ComputeJs

open List Option JsonText Bits Remainder

/-! ### Keys -/

def keyBytes : Text → List Nat
  | first :: second :: rest =>
      ((hexValue first).getD 0 * 16 + (hexValue second).getD 0) :: keyBytes rest
  | [_] | [] => []

/-- A public key written as 64 hexadecimal digits. -/
structure IsKey (hex : Text) : Prop where
  length : hex.length = 64
  digits : ∀ symbol ∈ hex, (hexValue symbol).isSome

theorem toNat_lt_of_hexValue {symbol : Char} (digit : (hexValue symbol).isSome) :
    symbol.toNat < 103 := by
  unfold hexValue at digit
  split at digit
  · rename_i decimal
    have bounds : 48 ≤ symbol.toNat ∧ symbol.toNat ≤ 57 := by
      simpa [Char.isDigit, Char.le_def, UInt32.le_iff_toNat_le] using decimal
    omega
  · split at digit
    · rename_i lower
      have bounds : 97 ≤ symbol.toNat ∧ symbol.toNat ≤ 102 := by
        simpa [Char.le_def, UInt32.le_iff_toNat_le] using lower
      omega
    · split at digit
      · rename_i upper
        have bounds : 65 ≤ symbol.toNat ∧ symbol.toNat ≤ 70 := by
          simpa [Char.le_def, UInt32.le_iff_toNat_le] using upper
        omega
      · cases digit

/-- A hexadecimal digit is no white space, no sign and no `x`, and its value is below 16. -/
structure PlainDigit (symbol : Char) : Prop where
  shown : isWhiteSpace symbol = false
  unsigned : symbol ≠ '-' ∧ symbol ≠ '+'
  unprefixed : symbol ≠ 'x' ∧ symbol ≠ 'X'
  below : (hexValue symbol).getD 0 < 16

theorem plainDigit {symbol : Char} (digit : (hexValue symbol).isSome) : PlainDigit symbol := by
  have each : ∀ code < 103, (hexValue (Char.ofNat code)).isSome →
      isWhiteSpace (Char.ofNat code) = false ∧ Char.ofNat code ≠ '-' ∧ Char.ofNat code ≠ '+' ∧
        Char.ofNat code ≠ 'x' ∧ Char.ofNat code ≠ 'X' ∧
          (hexValue (Char.ofNat code)).getD 0 < 16 := by
    decide +kernel
  have own := each symbol.toNat (toNat_lt_of_hexValue digit)
  rw [Char.ofNat_toNat] at own
  obtain ⟨shown, minus, plus, small, large, below⟩ := own digit
  exact ⟨shown, ⟨minus, plus⟩, ⟨small, large⟩, below⟩

theorem parseHex_pair {first second : Char} (one : (hexValue first).isSome)
    (other : (hexValue second).isSome) :
    parseHex [first, second] =
      Int.ofNat ((hexValue first).getD 0 * 16 + (hexValue second).getD 0) := by
  have plain := plainDigit one
  have behind := plainDigit other
  obtain ⟨high, sameHigh⟩ := isSome_iff_exists.mp one
  obtain ⟨low, sameLow⟩ := isSome_iff_exists.mp other
  simp [parseHex, plain.shown, plain.unsigned, behind.unprefixed, sameHigh, sameLow]

theorem parseHex_slices {hex : Text} (digits : ∀ symbol ∈ hex, (hexValue symbol).isSome)
    (even : hex.length % 2 = 0) :
    (slices (codeUnits hex)).map parseHex = (keyBytes hex).map Int.ofNat := by
  have units : codeUnits hex = hex := by
    have each : ∀ symbol ∈ hex, (if symbol.toNat < 0x10000 then [symbol]
        else ['\uFFFD', '\uFFFD']) = [symbol] := fun symbol member =>
      if_pos (Nat.lt_trans (toNat_lt_of_hexValue (digits symbol member)) (by decide))
    rw [codeUnits, flatMap_congr each, flatMap_singleton']
  rw [units]
  clear units
  induction hex using keyBytes.induct with
  | case1 first second rest ih =>
    have later := ih
      (fun symbol member => digits symbol (mem_cons_of_mem _ (mem_cons_of_mem _ member)))
      (by rw [length_cons, length_cons] at even; omega)
    have pair := parseHex_pair (digits first mem_cons_self)
      (digits second (mem_cons_of_mem _ mem_cons_self))
    rw [slices, keyBytes, map_cons, map_cons, later, pair]
  | case2 only => cases even
  | case3 => rfl

theorem keyBytes_lt {hex : Text} (digits : ∀ symbol ∈ hex, (hexValue symbol).isSome) :
    ∀ byte ∈ keyBytes hex, byte < 2 ^ 8 := by
  induction hex using keyBytes.induct with
  | case1 first second rest ih =>
    have high := (plainDigit (digits first mem_cons_self)).below
    have low := (plainDigit (digits second (mem_cons_of_mem _ mem_cons_self))).below
    refine forall_mem_cons.mpr ⟨by omega, ih fun symbol member => ?_⟩
    exact digits symbol (mem_cons_of_mem _ (mem_cons_of_mem _ member))
  | case2 only => exact nofun
  | case3 => exact nofun

theorem keyBytes_length (hex : Text) : (keyBytes hex).length = hex.length / 2 := by
  induction hex using keyBytes.induct with
  | case1 first second rest ih =>
    rw [keyBytes, length_cons, length_cons, length_cons, ih]
    omega
  | case2 only => simp [keyBytes]
  | case3 => rfl

/-! ### Regrouping -/

theorem mask_toNat {toBits : Nat} (narrow : toBits < 32) :
    (((1 <<< toBits : Nat) : BitVec 32) - 1).toNat = 2 ^ toBits - 1 := by
  have power : 2 ^ toBits < 2 ^ 32 := Nat.pow_lt_pow_right (by decide) narrow
  have positive : 0 < 2 ^ toBits := Nat.two_pow_pos toBits
  show (2 ^ 32 - 1 + 1 <<< toBits % 2 ^ 32) % 2 ^ 32 = _
  omega

theorem bits_group {toBits shift : Nat} (acc : BitVec 32) (narrow : toBits < 32)
    (inside : shift + toBits ≤ 32) :
    bits toBits (acc.sshiftRight shift &&& (1 <<< toBits) - 1).toNat =
      bits toBits (acc.toNat >>> shift) := by
  refine bits_eq_iff.mpr fun index below => ?_
  rw [BitVec.toNat_and, mask_toNat narrow, Nat.testBit_and, Nat.testBit_two_pow_sub_one,
    decide_eq_true below, Bool.and_true, BitVec.testBit_toNat, BitVec.getLsbD_sshiftRight,
    Nat.testBit_shiftRight, BitVec.testBit_toNat]
  have present : shift + index < 32 := by omega
  have placed : ¬32 ≤ index := by omega
  simp [present, placed]

theorem group_lt {toBits : Nat} (value : BitVec 32) (narrow : toBits < 32) :
    (value &&& (1 <<< toBits) - 1).toNat < 2 ^ toBits := by
  rw [BitVec.toNat_and, mask_toNat narrow]
  exact Nat.and_lt_two_pow _ (Nat.sub_lt (Nat.two_pow_pos toBits) Nat.one_pos)

theorem flatBits_groups {toBits count rest : Nat} (acc : BitVec 32) (narrow : toBits < 32)
    (inside : count * toBits + rest ≤ 32) :
    flatBits toBits (((List.range count).map fun group =>
        acc.sshiftRight (count * toBits + rest - (group + 1) * toBits) &&&
          (1 <<< toBits) - 1).map BitVec.toNat) =
      bits (count * toBits) (acc.toNat >>> rest) := by
  induction count generalizing rest with
  | zero => rw [Nat.zero_mul]; rfl
  | succ count ih =>
    have room : (count + 1) * toBits + rest = count * toBits + (toBits + rest) := by
      rw [Nat.succ_mul, Nat.add_assoc]
    have last : (count + 1) * toBits + rest - (count + 1) * toBits = rest :=
      Nat.add_sub_cancel_left _ _
    have fits : rest + toBits ≤ 32 := by omega
    rw [range_succ, map_append, map_append, flatBits_append, room,
      ih (by omega), ← room, map_singleton, map_singleton, flatBits_cons,
      flatBits_nil, append_nil, last, bits_group acc narrow fits, Nat.succ_mul, bits_add,
      Nat.add_comm toBits rest, Nat.shiftRight_add]

theorem bits_accumulated {fromBits held byte : Nat} (acc : BitVec 32)
    (byteLt : byte < 2 ^ fromBits) (room : held + fromBits ≤ 32) :
    bits (held + fromBits) (acc <<< fromBits ||| BitVec.ofInt 32 (Int.ofNat byte)).toNat =
      bits held acc.toNat ++ bits fromBits byte := by
  have byteFits : byte < 2 ^ 32 :=
    Nat.lt_of_lt_of_le byteLt (Nat.pow_le_pow_right (Nat.succ_pos 1) (by omega))
  have value : (BitVec.ofInt 32 (Int.ofNat byte)).toNat = byte := by
    rw [Int.ofNat_eq_natCast, BitVec.ofInt_natCast, BitVec.toNat_ofNat, Nat.mod_eq_of_lt byteFits]
  rw [← bits_shiftLeft_or byteLt]
  refine bits_eq_iff.mpr fun index below => ?_
  have inside : index < 32 := by omega
  rw [BitVec.toNat_or, value, BitVec.toNat_shiftLeft, Nat.testBit_or, Nat.testBit_or,
    Nat.testBit_mod_two_pow, decide_eq_true inside, Bool.true_and]

theorem bits_padded {toBits held : Nat} (acc : BitVec 32) (narrow : toBits < 32)
    (heldLt : held < toBits) :
    bits toBits (acc <<< (toBits - held) &&& (1 <<< toBits) - 1).toNat =
      bits held acc.toNat ++ List.replicate (toBits - held) false := by
  have zeros : bits (toBits - held) 0 = replicate (toBits - held) false :=
    bits_eq_replicate_false_iff.mpr fun index _ => Nat.zero_testBit index
  have whole : held + (toBits - held) = toBits := Nat.add_sub_cancel' (Nat.le_of_lt heldLt)
  have shifted := bits_shiftLeft_or (Nat.two_pow_pos (toBits - held)) held acc.toNat
  rw [zeros, Nat.or_zero, whole] at shifted
  rw [← shifted]
  refine bits_eq_iff.mpr fun index below => ?_
  have inside : index < 32 := Nat.lt_trans below narrow
  rw [BitVec.toNat_and, mask_toNat narrow, Nat.testBit_and, Nat.testBit_two_pow_sub_one,
    decide_eq_true below, Bool.and_true, BitVec.toNat_shiftLeft, Nat.testBit_mod_two_pow,
    decide_eq_true inside, Bool.true_and]

theorem convertBits_lt {fromBits toBits : Nat} {pad : Bool} (narrow : toBits < 32)
    (values : List Int) (acc : BitVec 32) (held : Nat) :
    ∀ group ∈ convertBits fromBits toBits pad values acc held, group.toNat < 2 ^ toBits := by
  induction values generalizing acc held with
  | nil =>
    intro group member
    rw [convertBits] at member
    split at member
    · obtain rfl := mem_singleton.mp member
      exact group_lt _ narrow
    · cases member
  | cons value values ih =>
    intro group member
    rcases mem_append.mp member with complete | later
    · obtain ⟨index, -, rfl⟩ := mem_map.mp complete
      exact group_lt _ narrow
    · exact ih _ _ group later

/-- The groups have the bits that are held and those of the bytes, and zeros up to the end of a
group. -/
theorem flatBits_convertBits {fromBits toBits : Nat} (narrow : 0 < toBits)
    (room : fromBits + toBits ≤ 32) (narrow32 : toBits < 32) (values : List Nat)
    (valuesLt : ∀ value ∈ values, value < 2 ^ fromBits) (acc : BitVec 32) (held : Nat)
    (heldLt : held < toBits) :
    ∃ padding < toBits,
      flatBits toBits ((convertBits fromBits toBits true (values.map Int.ofNat) acc held).map
        BitVec.toNat) =
        bits held acc.toNat ++ flatBits fromBits values ++ List.replicate padding false := by
  induction values generalizing acc held with
  | nil =>
    rw [map_nil, convertBits, flatBits_nil, append_nil]
    by_cases some : 0 < held
    · refine ⟨toBits - held, Nat.sub_lt narrow some, ?_⟩
      rw [decide_eq_true some, Bool.and_self, if_pos rfl, map_singleton, flatBits_cons,
        flatBits_nil, append_nil, bits_padded acc narrow32 heldLt]
    · obtain rfl := Nat.eq_zero_of_not_pos some
      exact ⟨0, narrow, rfl⟩
  | cons value values ih =>
    have later := forall_mem_cons.mp valuesLt
    have below : (held + fromBits) % toBits < toBits := Nat.mod_lt _ narrow
    obtain ⟨padding, paddingLt, same⟩ := ih later.2
      (acc <<< fromBits ||| BitVec.ofInt 32 (Int.ofNat value)) ((held + fromBits) % toBits) below
    refine ⟨padding, paddingLt, ?_⟩
    have split : held + fromBits =
        (held + fromBits) / toBits * toBits + (held + fromBits) % toBits :=
      (Nat.div_add_mod' _ _).symm
    have groups := @flatBits_groups toBits ((held + fromBits) / toBits) ((held + fromBits) % toBits)
      (acc <<< fromBits ||| BitVec.ofInt 32 (Int.ofNat value)) narrow32 (by omega)
    rw [← split] at groups
    rw [map_cons, convertBits, map_append, flatBits_append, same, groups, flatBits_cons,
      ← append_assoc, ← append_assoc, ← bits_add, ← split,
      bits_accumulated acc later.1 (by omega), append_assoc (bits held acc.toNat)]

/-! ### The checksum -/

def feedback (state : BitVec 32) (position : Nat) (generator : BitVec 32) : BitVec 32 :=
  if state.getLsbD position then generator else 0

/-- How the register of `polymod` moves on. -/
def advance (state : BitVec 32) : BitVec 32 :=
  (state &&& 0x1ffffff) <<< 5 ^^^ feedback state 25 0x3b6a57b2 ^^^ feedback state 26 0x26508e6d ^^^
    feedback state 27 0x1ea119fa ^^^ feedback state 28 0x3d4233dd ^^^ feedback state 29 0x2a1462b3

theorem and_one_eq_zero_iff (value : BitVec 32) : value &&& 1 = 0 ↔ value.getLsbD 0 = false := by
  rw [show (1 : BitVec 32) = 1#32 from rfl, BitVec.and_one_eq_setWidth_ofBool_getLsbD]
  cases value.getLsbD 0 <;> decide

theorem feedback_eq (state chk generator : BitVec 32) {shift : Nat} (inside : shift < 7) :
    (if (state.sshiftRight 25).sshiftRight shift &&& 1 = 0 then chk else chk ^^^ generator) =
      chk ^^^ feedback state (25 + shift) generator := by
  have low : ((state.sshiftRight 25).sshiftRight shift).getLsbD 0 = state.getLsbD (25 + shift) := by
    have present : 25 + shift < 32 := by omega
    have near : shift < 32 := by omega
    rw [BitVec.getLsbD_sshiftRight, BitVec.getLsbD_sshiftRight]
    simp [present, near]
  rw [feedback, ← low]
  by_cases clear : ((state.sshiftRight 25).sshiftRight shift).getLsbD 0 = false
  · rw [if_pos ((and_one_eq_zero_iff _).mpr clear), clear]
    exact BitVec.xor_zero.symm
  · rw [if_neg (mt (and_one_eq_zero_iff _).mp clear), if_pos (Bool.eq_true_of_not_eq_false clear)]

theorem polymod_eq (values : List (BitVec 32)) : polymod values = register advance 1 values := by
  refine congrArg (fun step => List.foldl step 1 values) (funext₂ fun state value => ?_)
  simp only [foldl_cons, foldl_nil]
  rw [feedback_eq _ _ _ (by decide), feedback_eq _ _ _ (by decide), feedback_eq _ _ _ (by decide),
    feedback_eq _ _ _ (by decide), feedback_eq _ _ _ (by decide), advance]
  ac_rfl

theorem feedback_xor (state other generator : BitVec 32) (position : Nat) :
    feedback (state ^^^ other) position generator =
      feedback state position generator ^^^ feedback other position generator := by
  simp only [feedback, BitVec.getLsbD_xor]
  cases state.getLsbD position <;> cases other.getLsbD position <;> simp

theorem advance_additive : Additive advance := by
  intro state other
  simp only [advance, feedback_xor]
  have masked : (state ^^^ other) &&& 0x1ffffff = state &&& 0x1ffffff ^^^ other &&& 0x1ffffff := by
    refine BitVec.eq_of_getLsbD_eq fun index _ => ?_
    simp only [BitVec.getLsbD_and, BitVec.getLsbD_xor]
    exact Bool.and_xor_distrib_right _ _ _
  rw [masked, BitVec.shiftLeft_xor_distrib]
  ac_rfl

theorem advance_shifts : ShiftsBelow advance 5 25 := by
  intro state low
  have clear : ∀ position generator, 25 ≤ position → feedback state position generator = 0 := by
    intro position generator high
    have off : state.getLsbD position = false := by
      exact Nat.testBit_lt_two_pow
        (Nat.lt_of_lt_of_le low (Nat.pow_le_pow_right (Nat.succ_pos 1) high))
    rw [feedback, off]
    rfl
  have masked : state &&& 0x1ffffff = state := by
    refine BitVec.eq_of_toNat_eq ?_
    show state.toNat &&& (2 ^ 25 - 1) = state.toNat
    rw [Nat.and_two_pow_sub_one_eq_mod, Nat.mod_eq_of_lt low]
  rw [advance, clear 25 _ (by decide), clear 26 _ (by decide), clear 27 _ (by decide),
    clear 28 _ (by decide), clear 29 _ (by decide), masked]
  simp

theorem advance_lt (state : BitVec 32) : (advance state).toNat < 2 ^ 30 := by
  have fed : ∀ position, ∀ generator : BitVec 32, generator.toNat < 2 ^ 30 →
      (feedback state position generator).toNat < 2 ^ 30 := by
    intro position generator below
    rw [feedback]
    split
    · exact below
    · decide
  have moved : ((state &&& 0x1ffffff) <<< 5).toNat < 2 ^ 30 := by
    have masked : (state &&& 0x1ffffff).toNat < 2 ^ 25 :=
      Nat.and_lt_two_pow state.toNat (by decide)
    rw [BitVec.toNat_shiftLeft, Nat.shiftLeft_eq]
    omega
  refine Nat.xor_lt_two_pow (Nat.xor_lt_two_pow (Nat.xor_lt_two_pow (Nat.xor_lt_two_pow
    (Nat.xor_lt_two_pow moved ?_) ?_) ?_) ?_) ?_
  all_goals exact fed _ _ (by decide)

theorem register_lt {state : BitVec 32} {words : List (BitVec 32)} (stateLt : state.toNat < 2 ^ 30)
    (wordsLt : ∀ word ∈ words, word.toNat < 2 ^ 5) :
      (register advance state words).toNat < 2 ^ 30 := by
  induction words generalizing state with
  | nil => exact stateLt
  | cons word words ih =>
    have later := forall_mem_cons.mp wordsLt
    refine ih ?_ later.2
    exact Nat.xor_lt_two_pow (advance_lt state) (Nat.lt_trans later.1 (by decide))

variable {data : List (BitVec 32)}

section

variable (dataLt : ∀ group ∈ data, group.toNat < 2 ^ 5)

include dataLt

theorem difference_lt :
    (register advance 1 (data ++ List.replicate 6 0) ^^^ 1).toNat < 2 ^ 30 := by
  have zerosLt : ∀ group ∈ replicate 6 (0 : BitVec 32), group.toNat < 2 ^ 5 := by
    intro group member
    rw [eq_of_mem_replicate member]
    decide
  refine Nat.xor_lt_two_pow (register_lt (by decide) fun group member => ?_) (by decide)
  rcases mem_append.mp member with own | zero
  · exact dataLt group own
  · exact zerosLt group zero

theorem createChecksum_eq :
    createChecksum data =
      digits 5 6 (register advance 1 (data ++ List.replicate 6 0) ^^^ 1) := by
  have small := difference_lt dataLt
  have positive : (register advance 1 (data ++ replicate 6 0) ^^^ 1).msb = false := by
    rw [BitVec.msb_eq_decide, decide_eq_false]
    exact Nat.not_le.mpr (Nat.lt_trans small (by decide))
  rw [createChecksum, polymod_eq]
  refine map_congr_left fun index _ => ?_
  have place : 6 - (index + 1) = 5 - index := Nat.add_sub_add_right 5 1 index
  show (register advance 1 (data ++ replicate 6 0) ^^^ 1).sshiftRight (5 * (5 - index)) &&&
    31 = _
  rw [BitVec.sshiftRight_eq_of_msb_false positive, place]
  rfl

theorem polymod_createChecksum :
    polymod (data ++ createChecksum data) = 1 := by
  rw [createChecksum_eq dataLt, polymod_eq]
  exact register_check advance_additive (by decide) advance_shifts (difference_lt dataLt)

end

/-! ### The npub -/

def character (group : BitVec 32) : Char := charset[group.toNat]?.getD ' '

/-- A text is `npub1` and 58 characters, with a right checksum and the bits of the bytes and four
zeros. -/
structure Encodes (npub : Text) (bytes : List Nat) (groups : List (BitVec 32)) : Prop where
  length : groups.length = 58
  below : ∀ group ∈ groups, group.toNat < 32
  written : npub = "npub1".toList ++ groups.map character
  verifies : polymod (hrpExpand "npub".toList ++ groups) = 1
  regroups : flatBits 5 ((groups.take 52).map BitVec.toNat) =
    flatBits 8 bytes ++ List.replicate 4 false

theorem createChecksum_lt (data : List (BitVec 32)) :
    ∀ group ∈ createChecksum data, group.toNat < 32 := by
  intro group member
  obtain ⟨index, -, rfl⟩ := mem_map.mp member
  exact Nat.and_lt_two_pow (n := 5) _ (by decide)

theorem flatMap_charset {groups : List (BitVec 32)} (below : ∀ group ∈ groups, group.toNat < 32) :
    (groups.flatMap fun group =>
      (charset[group.toNat]?).elim "undefined".toList fun symbol => [symbol]) =
        groups.map character := by
  rw [map_eq_flatMap]
  refine flatMap_congr fun group member => ?_
  have inside : group.toNat < charset.length := below group member
  rw [character, getElem?_eq_getElem inside]
  rfl

theorem hrpExpand_lt : ∀ group ∈ hrpExpand "npub".toList, group.toNat < 2 ^ 5 := by
  have each : ((hrpExpand "npub".toList).all fun group => group.toNat < 2 ^ 5) = true := by
    decide +kernel
  exact fun group member => of_decide_eq_true (all_eq_true.mp each group member)

theorem encodes_hexToNpub {hex : Text} (key : IsKey hex) :
    ∃ groups, Encodes (hexToNpub hex) (keyBytes hex) groups := by
  have converts : (slices (codeUnits hex)).map parseHex = (keyBytes hex).map Int.ofNat :=
    parseHex_slices key.digits (by rw [key.length])
  have size : (keyBytes hex).length = 32 := by rw [keyBytes_length, key.length]
  obtain ⟨padding, paddingLt, same⟩ := flatBits_convertBits (by decide) (by decide) (by decide)
    (keyBytes hex) (keyBytes_lt key.digits) 0 0 (by decide : 0 < 5)
  rw [bits, nil_append] at same
  have convertedLt : ∀ group ∈ convertBits 8 5 true ((keyBytes hex).map Int.ofNat) 0 0,
      group.toNat < 32 := convertBits_lt (by decide) _ _ _
  generalize written : convertBits 8 5 true ((keyBytes hex).map Int.ofNat) 0 0 = converted
    at same convertedLt
  -- the 256 bits fill 52 groups up to four bits
  have total := congrArg List.length same
  rw [length_append, flatBits_length, flatBits_length, length_replicate, length_map,
    size] at total
  have count : converted.length = 52 := by omega
  obtain rfl : padding = 4 := by omega
  have dataLt : ∀ group ∈ hrpExpand "npub".toList ++ converted, group.toNat < 2 ^ 5 := by
    intro group member
    rcases mem_append.mp member with expanded | own
    · exact hrpExpand_lt group expanded
    · exact convertedLt group own
  have allLt : ∀ group ∈ converted ++ createChecksum (hrpExpand "npub".toList ++ converted),
      group.toNat < 32 := by
    intro group member
    rcases mem_append.mp member with own | check
    · exact convertedLt group own
    · exact createChecksum_lt _ group check
  refine ⟨converted ++ createChecksum (hrpExpand "npub".toList ++ converted), ?_, allLt, ?_, ?_, ?_⟩
  · rw [length_append, count]
    rfl
  · rw [hexToNpub, converts, written, flatMap_charset allLt]
  · rw [← append_assoc]
    exact polymod_createChecksum dataLt
  · rw [take_append_of_le_length (Nat.le_of_eq count.symm), take_of_length_le
      (Nat.le_of_eq count)]
    exact same

theorem character_injective {group other : BitVec 32} (below : group.toNat < 32)
    (otherBelow : other.toNat < 32) (same : character group = character other) : group = other := by
  have each : ∀ first < 32, ∀ second < 32,
      charset[first]?.getD ' ' = charset[second]?.getD ' ' → first = second := by decide +kernel
  exact BitVec.eq_of_toNat_eq (each _ below _ otherBelow same)

theorem Encodes.unique {npub : Text} {bytes others : List Nat} {groups : List (BitVec 32)}
    {otherGroups : List (BitVec 32)} (encodes : Encodes npub bytes groups)
    (other : Encodes npub others otherGroups) (bytesLt : ∀ byte ∈ bytes, byte < 2 ^ 8)
    (othersLt : ∀ byte ∈ others, byte < 2 ^ 8) (lengths : bytes.length = others.length) :
    bytes = others := by
  have characters : groups.map character = otherGroups.map character :=
    append_cancel_left (encodes.written.symm.trans other.written)
  have sameGroups : groups = otherGroups := by
    refine ext_getElem
      (encodes.length.trans other.length.symm) fun index inside otherInside => ?_
    have place := congrArg (fun symbols => symbols[index]?) characters
    simp only [getElem?_map, getElem?_eq_getElem inside,
      getElem?_eq_getElem otherInside, map_some, Option.some.injEq] at place
    exact character_injective (encodes.below _ (getElem_mem inside))
      (other.below _ (getElem_mem otherInside)) place
  have regrouped := other.regroups
  rw [← sameGroups, encodes.regroups] at regrouped
  exact eq_of_flatBits_eq lengths bytesLt othersLt (append_cancel_right regrouped)

/-- Every key of 64 hexadecimal digits is encoded, and different keys differently. -/
theorem hexToNpub_encodes {hex : Text} (key : IsKey hex) :
    (∃ groups, Encodes (hexToNpub hex) (keyBytes hex) groups) ∧
      ∀ other, IsKey other → keyBytes other ≠ keyBytes hex → hexToNpub other ≠ hexToNpub hex := by
  refine ⟨encodes_hexToNpub key, fun other otherKey different same => different ?_⟩
  obtain ⟨groups, encodes⟩ := encodes_hexToNpub key
  obtain ⟨otherGroups, otherEncodes⟩ := encodes_hexToNpub otherKey
  rw [same] at otherEncodes
  refine otherEncodes.unique encodes (keyBytes_lt otherKey.digits) (keyBytes_lt key.digits) ?_
  rw [keyBytes_length, keyBytes_length, otherKey.length, key.length]

def sampleKey : Text := List.replicate 32 '0' ++ List.replicate 16 'f' ++ List.replicate 16 'F'

theorem hexToNpub_encodes_sample :
    (∃ groups, Encodes (hexToNpub sampleKey) (keyBytes sampleKey) groups) ∧
      ∀ other, IsKey other → keyBytes other ≠ keyBytes sampleKey →
        hexToNpub other ≠ hexToNpub sampleKey := by
  have digits : (sampleKey.all fun symbol => (hexValue symbol).isSome) = true := by decide +kernel
  exact hexToNpub_encodes ⟨by decide, all_eq_true.mp digits⟩

end Divine.ComputeJs
