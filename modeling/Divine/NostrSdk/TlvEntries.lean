/-
This file shows that the text of a list of entries carries the entries.
-/

import Divine.NostrSdk.Nip19
import Divine.Library.Bits
import Mathlib.Data.List.Infix

namespace Divine.NostrSdk.Nip19

open List Bits Fallible

/-! ### Regrouping bits -/

section Regroup

variable {fromBits toBits acc held rounds : Nat} {data words : List Nat}

theorem emit_bits (toBits acc rounds held : Nat) :
    flatBits toBits (emit toBits acc rounds held).1 ++ bits (emit toBits acc rounds held).2 acc =
      bits held acc := by
  induction rounds generalizing held with
  | zero => rfl
  | succ rounds ih =>
    unfold emit
    by_cases enough : toBits ≤ held
    · rw [if_pos enough]
      rw [flatBits_cons, bits_mask, append_assoc, ih, ← bits_add,
        Nat.add_sub_cancel' enough]
    · rw [if_neg enough]
      rfl

theorem emit_left (positive : 0 < toBits) (enough : held ≤ rounds) :
    (emit toBits acc rounds held).2 < toBits := by
  induction rounds generalizing held with
  | zero =>
    rw [Nat.le_zero.mp enough]
    exact positive
  | succ rounds ih =>
    unfold emit
    by_cases more : toBits ≤ held
    · rw [if_pos more]
      exact ih (by omega)
    · rw [if_neg more]
      exact Nat.lt_of_not_le more

theorem mask_lt (width value : Nat) : value &&& (2 ^ width - 1) < 2 ^ width := by
  rw [Nat.and_two_pow_sub_one_eq_mod]
  exact Nat.mod_lt _ (Nat.two_pow_pos width)

theorem emit_lt {value : Nat} (member : value ∈ (emit toBits acc rounds held).1) :
    value < 2 ^ toBits := by
  induction rounds generalizing held with
  | zero => cases member
  | succ rounds ih =>
    unfold emit at member
    by_cases more : toBits ≤ held
    · rw [if_pos more] at member
      rcases mem_cons.mp member with rfl | later
      · exact mask_lt toBits _
      · exact ih later
    · rw [if_neg more] at member
      cases member

/-- What the loops of `convertBits` read is what they wrote and what they hold. -/
structure Regrouped (fromBits toBits acc held : Nat) (data words : List Nat) (ended : Nat × Nat) :
    Prop where
  bits : flatBits toBits words ++ Bits.bits ended.2 ended.1 =
    Bits.bits held acc ++ flatBits fromBits data
  held : ended.2 < toBits
  wordsLt : ∀ word ∈ words, word < 2 ^ toBits
  dataLt : ∀ value ∈ data, value < 2 ^ fromBits

theorem shiftRight_eq_zero_iff {value width : Nat} : value >>> width = 0 ↔ value < 2 ^ width := by
  rw [Nat.shiftRight_eq_div_pow, Nat.div_eq_zero_iff]
  exact or_iff_right (Nat.two_pow_pos width).ne'

theorem regroup_regrouped (fits : fromBits + toBits ≤ 64) (heldLt : held < toBits)
    {ended : Nat × Nat} (ran : regroup fromBits toBits acc held data = .ok (words, ended)) :
    Regrouped fromBits toBits acc held data words ended := by
  induction data generalizing acc held words with
  | nil =>
    cases ran
    exact ⟨by simp, heldLt, nofun, nofun⟩
  | cons value rest ih =>
    unfold regroup at ran
    by_cases big : value >>> fromBits ≠ 0
    · rw [if_pos big] at ran
      cases ran
    · rw [if_neg big] at ran
      have valueLt := shiftRight_eq_zero_iff.mp (not_not.mp big)
      dsimp only at ran
      generalize shiftedEq : (acc <<< fromBits ||| value) % 2 ^ 64 = shifted at ran
      have read := emit_bits toBits shifted (held + fromBits) (held + fromBits)
      have left : (emit toBits shifted (held + fromBits) (held + fromBits)).2 < toBits :=
        emit_left (Nat.zero_lt_of_lt heldLt) le_rfl
      cases later : regroup fromBits toBits shifted
          (emit toBits shifted (held + fromBits) (held + fromBits)).2 rest with
      | error _ =>
        rw [later] at ran
        cases ran
      | ok results =>
        rw [later] at ran
        cases ran
        obtain ⟨bitsEq, heldLt', wordsLt, dataLt⟩ := ih left later
        refine ⟨?_, heldLt', fun word member => ?_, fun other member => ?_⟩
        · rw [flatBits_append, append_assoc, bitsEq, ← append_assoc, read, ← shiftedEq,
            bits_mod (by omega), bits_shiftLeft_or valueLt, flatBits_cons, append_assoc]
        · rcases mem_append.mp member with first | second
          · exact emit_lt first
          · exact wordsLt word second
        · rcases mem_cons.mp member with rfl | second
          · exact valueLt
          · exact dataLt other second

theorem regroup_ok (dataLt : ∀ value ∈ data, value < 2 ^ fromBits) (toBits acc held : Nat) :
    ∃ results, regroup fromBits toBits acc held data = .ok results := by
  induction data generalizing acc held with
  | nil => exact ⟨_, rfl⟩
  | cons value rest ih =>
    unfold regroup
    rw [if_neg (not_not_intro (shiftRight_eq_zero_iff.mpr (dataLt value mem_cons_self)))]
    dsimp only
    obtain ⟨results, later⟩ :=
      ih (fun other member => dataLt other (mem_cons_of_mem _ member)) _ _
    rw [later]
    exact ⟨_, rfl⟩

theorem convertBits_pad (fits : fromBits + toBits ≤ 64) (positive : 0 < toBits)
    (converted : convertBits data fromBits toBits true = .ok words) :
    (∀ value ∈ data, value < 2 ^ fromBits) ∧ (∀ word ∈ words, word < 2 ^ toBits) ∧
      ∃ padding < toBits,
        flatBits toBits words = flatBits fromBits data ++ List.replicate padding false := by
  obtain ⟨⟨result, acc, held⟩, ran, rest⟩ := bind_eq_ok.mp converted
  obtain ⟨bitsEq, heldLt, wordsLt, dataLt⟩ := regroup_regrouped fits positive ran
  dsimp only at rest bitsEq heldLt
  by_cases some : held > 0
  · rw [if_pos some] at rest
    cases rest
    refine ⟨dataLt, fun word member => ?_, toBits - held, by omega, ?_⟩
    · rcases mem_append.mp member with before | last
      · exact wordsLt word before
      · rw [mem_singleton.mp last]
        exact mask_lt toBits _
    · have last : bits toBits (acc <<< (toBits - held)) =
          bits held acc ++ replicate (toBits - held) false := by
        have joined := bits_shiftLeft_or (Nat.two_pow_pos (toBits - held)) held acc
        rw [Nat.or_zero, Nat.add_sub_cancel' heldLt.le] at joined
        rw [joined, bits_eq_replicate_false_iff.mpr fun index _ => Nat.zero_testBit index]
      rw [flatBits_append, flatBits_cons, flatBits_nil, append_nil, bits_mask, last,
        ← append_assoc, bitsEq]
      rfl
  · rw [if_neg some] at rest
    cases rest
    obtain rfl : held = 0 := Nat.eq_zero_of_not_pos some
    refine ⟨dataLt, wordsLt, 0, positive, ?_⟩
    rw [replicate_zero, append_nil]
    exact (append_nil _).symm.trans bitsEq

theorem convertBits_back {wide narrow : Nat} (positive : 0 < narrow) (narrower : narrow ≤ wide)
    (fits : wide + narrow ≤ 64) (converted : convertBits data wide narrow true = .ok words) :
    convertBits words narrow wide false = .ok data := by
  obtain ⟨dataLt, wordsLt, padding, paddingLt, flat⟩ := convertBits_pad fits positive converted
  obtain ⟨⟨result, acc, held⟩, ran⟩ := regroup_ok wordsLt wide 0 0
  obtain ⟨bitsEq, heldLt, resultLt, -⟩ :=
    regroup_regrouped (Nat.add_comm wide narrow ▸ fits) (by omega) ran
  rw [bits, nil_append, flat] at bitsEq
  -- the bits that are left over are the padding, since both are fewer than a word
  have lengths := congrArg List.length bitsEq
  rw [length_append, length_append, flatBits_length, flatBits_length, bits_length,
    length_replicate] at lengths
  have counts := congrArg (· / wide) lengths
  have left := congrArg (· % wide) lengths
  simp only [Nat.mul_add_div (Nat.lt_of_lt_of_le positive narrower), Nat.div_eq_of_lt heldLt,
    Nat.div_eq_of_lt (Nat.lt_of_lt_of_le paddingLt narrower), Nat.add_zero] at counts
  simp only [Nat.mul_add_mod, Nat.mod_eq_of_lt heldLt,
    Nat.mod_eq_of_lt (Nat.lt_of_lt_of_le paddingLt narrower)] at left
  obtain ⟨whole, rest⟩ := append_inj bitsEq (by rw [flatBits_length, flatBits_length, counts])
  rw [left] at rest
  have zero : (acc <<< (wide - held)) &&& (2 ^ wide - 1) = 0 := by
    refine Nat.eq_of_testBit_eq fun index => ?_
    rw [Nat.and_two_pow_sub_one_eq_mod, Nat.testBit_mod_two_pow, Nat.testBit_shiftLeft,
      Nat.zero_testBit]
    by_cases inside : index < wide ∧ wide - held ≤ index
    · rw [bits_eq_replicate_false_iff.mp rest (index - (wide - held)) (by omega), Bool.and_false,
        Bool.and_false]
    · rcases not_and_or.mp inside with outside | below
      · rw [decide_eq_false outside, Bool.false_and]
      · rw [decide_eq_false below, Bool.false_and, Bool.and_false]
  unfold convertBits
  rw [ran]
  dsimp only [bind, Except.bind]
  rw [if_neg Bool.false_ne_true, if_neg (by omega), if_neg (not_not_intro zero),
    eq_of_flatBits_eq counts resultLt dataLt whole]

end Regroup

/-! ### Texts -/

def Marked (text : String) : Prop := text.toList.head? = some '\uFEFF'

theorem dropMark_eq_self_iff {text : String} : dropMark text = text ↔ ¬Marked text := by
  unfold dropMark Marked
  cases chars : text.toList with
  | nil => exact iff_of_true rfl nofun
  | cons first rest =>
    dsimp only
    by_cases mark : first = '\uFEFF'
    · rw [if_pos mark]
      refine iff_of_false (fun same => ?_) (not_not_intro (congrArg some mark))
      have shorter := congrArg String.toList same
      rw [String.toList_ofList, chars] at shorter
      exact cons_ne_self first rest shorter.symm
    · rw [if_neg mark]
      exact iff_of_true rfl fun same => mark (Option.some.inj same)

theorem utf8Decode_utf8Encode (text : String) :
    utf8Decode (utf8Encode text) = .ok (dropMark text) := by
  have bytes : (utf8Encode text).map UInt8.ofNat = text.toByteArray.data.toList := by
    unfold utf8Encode
    rw [map_map]
    exact (map_congr_left fun byte _ => UInt8.ofNat_toNat).trans (map_id _)
  unfold utf8Decode
  rw [bytes, Array.toArray_toList, String.fromUTF8?, dif_pos text.isValidUTF8]
  rfl

theorem utf8Encode_length (text : String) : (utf8Encode text).length = text.utf8ByteSize :=
  length_map _

theorem dropReferences_self {chars : List Char} (absent : ':' ∉ chars) :
    dropReferences 0 chars = chars := by
  induction chars with
  | nil => rfl
  | cons char rest ih =>
    unfold dropReferences
    have differs : ¬noteReferences.isPrefixOf (char :: rest) = true := by
      intro isPrefix
      have member : ':' ∈ noteReferences := by decide
      exact absent (( isPrefixOf_iff_prefix.mp isPrefix).subset member)
    rw [if_neg differs, ih fun member => absent (mem_cons_of_mem char member)]

/-! ### Numbers -/

theorem getInt32_setInt32 (kind : Int) :
    ∃ read, getInt32 (setInt32 kind) = .ok read ∧
      (read = kind ↔ -2 ^ 31 ≤ kind ∧ kind < 2 ^ 31) := by
  generalize lowEq : (kind % 2 ^ 32).toNat = low
  refine ⟨_, rfl, ?_⟩
  split <;> omega

/-! ### Entries -/

def entryBytes (entry : Nat × List Nat) : List Nat := entry.1 :: entry.2.length :: entry.2

def entryRead (entry : Nat × List Nat) : TLVData := ⟨entry.1, entry.2.length, entry.2⟩

theorem readTLVEntry_written (done rest : List Nat) (entry : Nat × List Nat) :
    readTLVEntry (done ++ (entryBytes entry ++ rest)) done.length = some (entryRead entry) := by
  unfold readTLVEntry
  have first : (done ++ (entryBytes entry ++ rest))[done.length]? = some entry.1 := by
    rw [getElem?_append_right le_rfl, Nat.sub_self]
    rfl
  have second : (done ++ (entryBytes entry ++ rest))[done.length + 1]? = some entry.2.length := by
    rw [getElem?_append_right (Nat.le_add_right _ _), Nat.add_sub_cancel_left]
    rfl
  have value : (done ++ (entryBytes entry ++ rest)).drop (done.length + 2) = entry.2 ++ rest := by
    rw [drop_append, drop_eq_nil_of_le (Nat.le_add_right _ _), Nat.add_sub_cancel_left]
    rfl
  have bound : done.length + 2 + entry.2.length ≤ (done ++ (entryBytes entry ++ rest)).length := by
    simp only [entryBytes, length_append, length_cons]
    omega
  rw [first, second]
  dsimp only
  rw [if_pos bound, value, take_left]
  rfl

theorem readTLVEntry_end (data : List Nat) : readTLVEntry data data.length = none := by
  unfold readTLVEntry
  rw [getElem?_eq_none le_rfl]

theorem readTLVEntries_written (written : List (Nat × List Nat)) {rounds : Nat}
    (enough : written.length ≤ rounds) (done : List Nat) :
    readTLVEntries (done ++ written.flatMap entryBytes) rounds done.length =
      written.map entryRead := by
  induction written generalizing rounds done with
  | nil =>
    rw [flatMap_nil, append_nil]
    cases rounds with
    | zero => rfl
    | succ rounds =>
      unfold readTLVEntries
      rw [readTLVEntry_end]
      rfl
  | cons entry rest ih =>
    obtain ⟨rounds, rfl⟩ := Nat.exists_eq_add_of_le' (Nat.le_trans (Nat.succ_pos _) enough)
    unfold readTLVEntries
    rw [flatMap_cons, readTLVEntry_written]
    dsimp only
    have moved : done.length + ((entryRead entry).length + 2) =
      (done ++ entryBytes entry).length := by
      rw [length_append]
      rfl
    rw [moved, ← append_assoc, ih (Nat.le_of_succ_le_succ enough)]
    rfl

theorem length_le_flatMap (written : List (Nat × List Nat)) :
    written.length ≤ (written.flatMap entryBytes).length := by
  induction written with
  | nil => exact le_rfl
  | cons entry rest ih =>
    rw [flatMap_cons, length_append, length_cons, entryBytes, length_cons]
    omega

def relayEntries (relays : Option (List String)) : List (Nat × List Nat) :=
  (relays.getD []).map fun relay => (TLVType.relay, utf8Encode relay)

theorem writeTLVEntry_eq (buf : List Nat) (typ : Nat) (data : List Nat) :
    writeTLVEntry buf typ data = buf ++ entryBytes (typ, data) := rfl

theorem writeRelays_eq (buf : List Nat) (relays : Option (List String)) :
    writeRelays buf relays = buf ++ (relayEntries relays).flatMap entryBytes := by
  unfold writeRelays relayEntries
  generalize relays.getD [] = listed
  induction listed generalizing buf with
  | nil => exact (append_nil buf).symm
  | cons relay rest ih =>
    rw [foldl_cons, ih, writeTLVEntry_eq, map_cons, flatMap_cons,
      append_assoc]

theorem foldlM_relays {State : Type} {step : State → TLVData → Except Unit State}
    (add : State → String → State)
    (each : ∀ state relay, step state (entryRead (TLVType.relay, utf8Encode relay)) =
      .ok (add state (dropMark relay)))
    (relays : Option (List String)) (state : State) :
    ((relayEntries relays).map entryRead).foldlM step state =
      .ok (((relays.getD []).map dropMark).foldl add state) := by
  unfold relayEntries
  rw [map_map, foldlM_map, foldl_map]
  exact foldlM_eq_ok (fun state relay _ => each state relay) state

/-! ### Bech32 -/

def entityHrps : List String := [Hrps.nprofile, Hrps.nevent, Hrps.nrelay, Hrps.naddr]

/-- What the bech32 package documents of texts with these parts: their length, their letters, the
limit, and that the decoder gives back what the encoder took. -/
structure Bech32Codec.Lawful (bech32 : Bech32Codec) : Prop where
  text : ∀ hrp ∈ entityHrps, ∀ words limit text, bech32.encode hrp words limit = .ok text →
    ∃ letters, text.toList = hrp.toList ++ '1' :: letters ∧ letters.length = words.length + 6 ∧
      ':' ∉ letters
  tooLong : ∀ text limit, limit < text.length → bech32.decode text limit = .error ()
  inverse : ∀ hrp ∈ entityHrps, ∀ words limit text, bech32.encode hrp words limit = .ok text →
    ∀ other, text.length ≤ other → bech32.decode text other = .ok (hrp, words)

def textLength (hrp : String) (size : Nat) : Nat := hrp.length + 1 + (8 * size + 4) / 5 + 6

def decodeLimit : Nat := 1000

variable {bech32 : Bech32Codec} {hrp text : String}

theorem colon_not_mem_hrp (member : hrp ∈ entityHrps) : ':' ∉ hrp.toList := by
  revert hrp
  decide

/-- A text within the limit is decoded to the bytes it was made of, and a longer one to none. -/
theorem decodePreHandle_encoded (lawful : bech32.Lawful) (member : hrp ∈ entityHrps)
    {buf : List Nat} (encoded : handleEncodeResult bech32 hrp buf = .ok text) :
    decodePreHandle bech32 text = if textLength hrp buf.length ≤ decodeLimit then buf else [] := by
  obtain ⟨words, converted, written⟩ := bind_eq_ok.mp encoded
  obtain ⟨letters, chars, lengthEq, noColon⟩ := lawful.text hrp member words 2000 text written
  have unchanged : String.ofList (dropReferences 0 text.toList) = text := by
    rw [dropReferences_self, String.ofList_toList]
    rw [chars, mem_append, mem_cons]
    rintro (inHrp | separator | inLetters)
    · exact colon_not_mem_hrp member inHrp
    · exact absurd separator (by decide)
    · exact noColon inLetters
  have wordsLength : words.length = (8 * buf.length + 4) / 5 := by
    obtain ⟨-, -, padding, paddingLt, flat⟩ := convertBits_pad (by decide) (by decide) converted
    have lengths := congrArg List.length flat
    rw [length_append, flatBits_length, flatBits_length, length_replicate] at lengths
    omega
  have size : text.length = textLength hrp buf.length := by
    rw [← String.length_toList, chars, length_append, length_cons, lengthEq, wordsLength,
      textLength, String.length_toList]
    omega
  unfold decodePreHandle
  dsimp only
  rw [unchanged]
  by_cases fits : textLength hrp buf.length ≤ decodeLimit
  · rw [if_pos fits, lawful.inverse hrp member words 2000 text written 1000 (size ▸ fits)]
    rw [ok_bind, convertBits_back (by decide) (by decide) (by decide) converted]
  · rw [if_neg fits, lawful.tooLong text 1000 (size ▸ Nat.lt_of_not_le fits)]
    rfl

theorem decodeEntries_encoded (lawful : bech32.Lawful) (member : hrp ∈ entityHrps)
    {written : List (Nat × List Nat)}
    (encoded : handleEncodeResult bech32 hrp (written.flatMap entryBytes) = .ok text) :
    decodeEntries bech32 text =
      if textLength hrp (written.flatMap entryBytes).length ≤ decodeLimit then
        written.map entryRead
      else [] := by
  unfold decodeEntries
  rw [decodePreHandle_encoded lawful member encoded]
  by_cases fits : textLength hrp (written.flatMap entryBytes).length ≤ decodeLimit
  · rw [if_pos fits, if_pos fits]
    exact readTLVEntries_written written (length_le_flatMap written) []
  · rw [if_neg fits, if_neg fits]
    rfl

end Divine.NostrSdk.Nip19
