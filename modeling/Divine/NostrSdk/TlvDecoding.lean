/-
This file settles what the decoders of TLV entities do with an arbitrary text.
-/

import Divine.Library.LastWins
import Divine.NostrSdk.TlvRoundTrip

namespace Divine.NostrSdk.Nip19

open List Option Fallible LastWins

variable (bech32 : Bech32Codec) (hex : HexCodec)

/-! ### Safe decoding -/

def humanReadablePart (text : String) : Option String :=
  (bech32.decode (String.ofList (dropReferences 0 text.toList)) 1000).toOption.map Prod.fst

def lastData (entries : List TLVData) (typ : Nat) : Option (List Nat) :=
  (lastItem entries fun entry => entry.typ = typ).map TLVData.data

def isText (data : List Nat) : Bool := (utf8Decode data).toOption.isSome

def IsKey (key : String) : Prop := key.length = 64

def Safe {Entity : Type} (own : String) (keys : Entity → List String) (part : Option String)
    (result : Except Unit (Option Entity)) : Prop :=
  ∃ found, result = .ok found ∧
    ∀ entity, found = some entity → part = some own ∧ ∀ key ∈ keys entity, IsKey key

def Nprofile.keys (o : Nprofile) : List String := [o.pubkey]
def Nevent.keys (o : Nevent) : List String := o.id :: o.author.toList
def Nrelay.keys (_ : Nrelay) : List String := []
def Naddr.keys (o : Naddr) : List String := [o.author]

/-! ### The conditions -/

def RelaysDecode (entries : List TLVData) : Prop :=
  ∀ entry ∈ entries, entry.typ = TLVType.relay → isText entry.data = true

def KindsDecode (entries : List TLVData) : Prop :=
  ∀ entry ∈ entries, entry.typ = TLVType.kind → 4 ≤ entry.data.length

def TextsDecode (entries : List TLVData) : Prop :=
  ∀ entry ∈ entries, entry.typ = TLVType.defaultType → isText entry.data = true

def ProfileFits (part : Option String) (entries : List TLVData) : Prop :=
  RelaysDecode entries ∧ ∀ key, lastData entries TLVType.defaultType = some key →
    part = some Hrps.nprofile ∧ key.length = 32

def EventFits (part : Option String) (entries : List TLVData) : Prop :=
  (RelaysDecode entries ∧ KindsDecode entries) ∧
    ∀ id, lastData entries TLVType.defaultType = some id →
      part = some Hrps.nevent ∧ id.length = 32 ∧
        ∀ author, lastData entries TLVType.author = some author → author.length = 32

def RelayFits (part : Option String) (entries : List TLVData) : Prop :=
  TextsDecode entries ∧ ∀ addr, lastData entries TLVType.defaultType = some addr →
    part = some Hrps.nrelay

/-- What an address needs, when there is nothing that is thrown and caught. -/
def AddressFits (part : Option String) (entries : List TLVData) : Prop :=
  TextsDecode entries → RelaysDecode entries → KindsDecode entries →
    ∀ id author kind, lastData entries TLVType.defaultType = some id →
      lastData entries TLVType.author = some author →
      lastData entries TLVType.kind = some kind →
        part = some Hrps.naddr ∧ author.length = 32

def HexCodec.TwoDigits (hex : HexCodec) : Prop :=
  ∀ bytes : List Nat, (∀ byte ∈ bytes, byte < 2 ^ 8) → (hex.encode bytes).length = 2 * bytes.length

/-! ### The entries of a text -/

section

variable {bech32 hex} {text : String}

def consumed (entries : List TLVData) : Nat := (entries.map fun entry => entry.length + 2).sum

theorem readTLVEntries_ends (data : List Nat) {rounds startIndex : Nat}
    (enough : data.length < startIndex + 2 * rounds + 2) :
    readTLVEntry data (startIndex + consumed (readTLVEntries data rounds startIndex)) = none := by
  induction rounds generalizing startIndex with
  | zero =>
    show readTLVEntry data (startIndex + 0) = none
    unfold readTLVEntry
    cases data[startIndex + 0]? with
    | none => rfl
    | some typ => rw [getElem?_eq_none (by omega)]
  | succ rounds ih =>
    unfold readTLVEntries
    cases read : readTLVEntry data startIndex with
    | none => exact read
    | some entry =>
      have later := @ih (startIndex + (entry.length + 2)) (by omega)
      rw [Nat.add_assoc] at later
      exact later
variable {data : List Nat}


theorem readTLVEntry_data {startIndex : Nat} {entry : TLVData}
    (read : readTLVEntry data startIndex = some entry) : entry.data ⊆ data := by
  unfold readTLVEntry at read
  split at read
  · obtain ⟨_, same⟩ := ite_none_right_eq_some.mp read
    rw [← Option.some.inj same]
    exact List.Subset.trans (take_subset _ _) (drop_subset _ _)
  · cases read

theorem readTLVEntries_data {rounds startIndex : Nat} {entry : TLVData}
    (member : entry ∈ readTLVEntries data rounds startIndex) : entry.data ⊆ data := by
  induction rounds generalizing startIndex with
  | zero => cases member
  | succ rounds ih =>
    unfold readTLVEntries at member
    cases read : readTLVEntry data startIndex with
    | none =>
      rw [read] at member
      cases member
    | some first =>
      rw [read] at member
      rcases mem_cons.mp member with rfl | later
      · exact readTLVEntry_data read
      · exact ih later

theorem decodePreHandle_lt {value : Nat} (member : value ∈ decodePreHandle bech32 text) :
    value < 2 ^ 8 := by
  unfold decodePreHandle at member
  dsimp only at member
  split at member
  · rename_i buf decoded
    obtain ⟨⟨part, words⟩, -, converted⟩ := bind_eq_ok.mp decoded
    obtain ⟨⟨result, acc, held⟩, ran, rest⟩ := bind_eq_ok.mp converted
    have resultLt := (regroup_regrouped (by decide) (by decide) ran).wordsLt
    dsimp only at rest
    rw [if_neg Bool.false_ne_true] at rest
    split at rest
    · cases rest
    · split at rest
      · cases rest
      · exact resultLt value (Except.ok.inj rest ▸ member)
  · cases member

theorem lastData_lt {typ : Nat} (last : lastData (decodeEntries bech32 text) typ = some data)
    {value : Nat} (member : value ∈ data) : value < 2 ^ 8 := by
  obtain ⟨entry, found, rfl⟩ := map_eq_some_iff.mp last
  exact decodePreHandle_lt (readTLVEntries_data (lastItem_mem found) member)

theorem isKey_encode (digits : hex.TwoDigits) {typ : Nat}
    (last : lastData (decodeEntries bech32 text) typ = some data) :
    IsKey (hex.encode data) ↔ data.length = 32 := by
  unfold IsKey
  rw [digits data fun _ member => lastData_lt last member]
  omega

theorem getInt32_isSome (data : List Nat) :
    (getInt32 data).toOption.isSome = decide (4 ≤ data.length) := by
  rcases data with _ | ⟨first, _ | ⟨second, _ | ⟨third, _ | ⟨fourth, rest⟩⟩⟩⟩
  · rfl
  · rfl
  · rfl
  · rfl
  · exact (decide_eq_true (by simp [length_cons])).symm

def textOf (data : List Nat) : String := (utf8Decode data).toOption.getD ""

def kindOf (data : List Nat) : Int := (getInt32 data).toOption.getD 0

theorem map_utf8Decode {Value : Type} (read : String → Value) (data : List Nat) :
    (utf8Decode data).map read = if isText data then .ok (read (textOf data)) else .error () := by
  unfold isText textOf
  cases utf8Decode data <;> rfl

theorem map_getInt32 {Value : Type} (read : Int → Value) (data : List Nat) :
    (getInt32 data).map read =
      if decide (4 ≤ data.length) then .ok (read (kindOf data)) else .error () := by
  rw [← getInt32_isSome]
  unfold kindOf
  cases getInt32 data <;> rfl

end

/-! ### What the decoders read -/

section

variable {bech32 hex} {text : String}

def decodes (typ : Nat) (decodable : List Nat → Bool) (entry : TLVData) : Bool :=
  !decide (entry.typ = typ) || decodable entry.data

theorem all_decodes {entries : List TLVData} {typ : Nat} {decodable : List Nat → Bool} :
    entries.all (decodes typ decodable) = true ↔
      ∀ entry ∈ entries, entry.typ = typ → decodable entry.data = true := by
  rw [List.all_eq_true]
  refine forall₂_congr fun entry _ => ?_
  unfold decodes
  rw [Bool.or_eq_true, Bool.not_eq_true', decide_eq_false_iff_not, ← imp_iff_not_or]

theorem foldl_lastData {State Value : Type} {next : State → TLVData → State}
    (field : State → Option Value) (typ : Nat) (read : List Nat → Value)
    (each : ∀ state entry, field (next state entry) =
      if entry.typ = typ then some (read entry.data) else field state)
    (entries : List TLVData) {start : State} (unset : field start = none) :
    field (entries.foldl next start) = (lastData entries typ).map read := by
  have sets : ∀ state entry, field (next state entry) =
      if decide (entry.typ = typ) then some (read entry.data) else field state := by
    intro state entry
    rw [each]
    simp only [decide_eq_true_eq]
  have last := foldl_field field (fun entry => decide (entry.typ = typ))
    (fun entry => read entry.data) sets entries start
  rw [last, unset, Option.or_none]
  unfold lastData
  rw [Option.map_map]
  rfl

/-- A step of `decodeNprofile` on an entry that can be decoded. -/
def nprofileNext (hex : HexCodec) (state : Option String × List String) (entry : TLVData) :
    Option String × List String :=
  if entry.typ = TLVType.defaultType then (some (hex.encode entry.data), state.2)
  else if entry.typ = TLVType.relay then (state.1, state.2 ++ [textOf entry.data])
  else state

theorem readNprofile_eq (state : Option String × List String) (entry : TLVData) :
    readNprofile hex state entry =
      if decodes TLVType.relay isText entry then .ok (nprofileNext hex state entry)
      else .error () := by
  unfold readNprofile nprofileNext decodes
  rw [map_utf8Decode]
  by_cases isDefault : entry.typ = TLVType.defaultType
  · simp [isDefault, TLVType.defaultType, TLVType.relay]
  · by_cases isRelay : entry.typ = TLVType.relay
    · simp [isRelay, TLVType.defaultType, TLVType.relay]
    · simp [isDefault, isRelay]

theorem nprofileNext_pubkey (state : Option String × List String) (entry : TLVData) :
    (nprofileNext hex state entry).1 =
      if entry.typ = TLVType.defaultType then some (hex.encode entry.data) else state.1 := by
  unfold nprofileNext
  by_cases isDefault : entry.typ = TLVType.defaultType
  · rw [if_pos isDefault, if_pos isDefault]
  · rw [if_neg isDefault, if_neg isDefault]
    split <;> rfl

theorem decodeNprofile_eq :
    decodeNprofile bech32 hex text =
      if (decodeEntries bech32 text).all (decodes TLVType.relay isText) then
        .ok ((lastData (decodeEntries bech32 text) TLVType.defaultType).map fun key =>
          ⟨hex.encode key,
            some ((decodeEntries bech32 text).foldl (nprofileNext hex) (none, [])).2⟩)
      else .error () := by
  unfold decodeNprofile
  rw [foldlM_eq_ite readNprofile_eq]
  cases (decodeEntries bech32 text).all (decodes TLVType.relay isText) with
  | false => rfl
  | true =>
    have pubkey : ((decodeEntries bech32 text).foldl (nprofileNext hex) (none, [])).1 =
        (lastData (decodeEntries bech32 text) TLVType.defaultType).map hex.encode :=
      foldl_lastData Prod.fst TLVType.defaultType hex.encode nprofileNext_pubkey _ rfl
    rw [if_pos rfl, if_pos rfl, ok_bind]
    dsimp only
    rw [pubkey, Option.map_map]
    rfl

/-- A step of `decodeNevent` or `decodeNaddr` on an entry that can be decoded. -/
def readingNext (hex : HexCodec) (readId : List Nat → String)
    (add : List String → String → List String) (state : Reading) (entry : TLVData) : Reading :=
  if entry.typ = TLVType.defaultType then { state with id := some (readId entry.data) }
  else if entry.typ = TLVType.relay then
    { state with relays := add state.relays (textOf entry.data) }
  else if entry.typ = TLVType.kind then { state with kind := some (kindOf entry.data) }
  else if entry.typ = TLVType.author then { state with author := some (hex.encode entry.data) }
  else state

section

variable {readId : List Nat → String} {add : List String → String → List String}
  (entries : List TLVData)

theorem foldl_id : (entries.foldl (readingNext hex readId add) .empty).id =
    (lastData entries TLVType.defaultType).map readId := by
  refine foldl_lastData Reading.id TLVType.defaultType readId (fun state entry => ?_) entries rfl
  unfold readingNext
  split_ifs <;> rfl

theorem foldl_author : (entries.foldl (readingNext hex readId add) .empty).author =
    (lastData entries TLVType.author).map hex.encode := by
  refine foldl_lastData Reading.author TLVType.author hex.encode (fun state entry => ?_) entries rfl
  unfold readingNext
  split_ifs <;> first | rfl | simp_all
    [TLVType.defaultType, TLVType.relay, TLVType.kind, TLVType.author]

theorem foldl_kind : (entries.foldl (readingNext hex readId add) .empty).kind =
    (lastData entries TLVType.kind).map kindOf := by
  refine foldl_lastData Reading.kind TLVType.kind kindOf (fun state entry => ?_) entries rfl
  unfold readingNext
  split_ifs <;> first | rfl | simp_all [TLVType.defaultType, TLVType.relay, TLVType.kind]

end

def neventDecodes (entry : TLVData) : Bool :=
  decodes TLVType.relay isText entry && decodes TLVType.kind (fun data => 4 ≤ data.length) entry

/-- `decodeNevent` and `decodeNaddr` read an entry that is no id alike, but for adding a relay. -/
theorem reading_eq (readId : List Nat → String) (add : List String → String → List String)
    {state : Reading} {entry : TLVData} (noId : entry.typ ≠ TLVType.defaultType) :
    (if entry.typ = TLVType.relay then
        (utf8Decode entry.data).map fun relay => { state with relays := add state.relays relay }
      else if entry.typ = TLVType.kind then
        (getInt32 entry.data).map fun kind => { state with kind := some kind }
      else if entry.typ = TLVType.author then
        .ok { state with author := some (hex.encode entry.data) }
      else .ok state) =
      if neventDecodes entry then
        (.ok (readingNext hex readId add state entry) : Except Unit Reading)
      else .error () := by
  unfold readingNext neventDecodes decodes
  rw [map_utf8Decode, map_getInt32, if_neg noId]
  by_cases isRelay : entry.typ = TLVType.relay
  · simp [isRelay, TLVType.relay, TLVType.kind]
  · by_cases isKind : entry.typ = TLVType.kind
    · simp [isKind, TLVType.relay, TLVType.kind]
    · simp only [isRelay, isKind, if_false, decide_false, Bool.not_false, Bool.true_or,
        Bool.and_self, if_true]
      split <;> rfl

theorem readNevent_eq (state : Reading) (entry : TLVData) :
    readNevent hex state entry =
      if neventDecodes entry then
        .ok (readingNext hex hex.encode (fun relays relay => relays ++ [relay]) state entry)
      else .error () := by
  unfold readNevent
  by_cases isDefault : entry.typ = TLVType.defaultType
  · simp [readingNext, neventDecodes, decodes, isDefault, TLVType.defaultType, TLVType.relay,
      TLVType.kind]
  · rw [if_neg isDefault]
    exact reading_eq hex.encode (fun relays relay => relays ++ [relay]) isDefault

def naddrDecodes (entry : TLVData) : Bool :=
  decodes TLVType.defaultType isText entry && neventDecodes entry

theorem readNaddr_eq (state : Reading) (entry : TLVData) :
    readNaddr hex state entry =
      if naddrDecodes entry then .ok (readingNext hex textOf putRelay state entry)
      else .error () := by
  unfold readNaddr naddrDecodes
  by_cases isDefault : entry.typ = TLVType.defaultType
  · rw [map_utf8Decode]
    simp [readingNext, neventDecodes, decodes, isDefault, TLVType.defaultType, TLVType.relay,
      TLVType.kind]
  · have skipped : decodes TLVType.defaultType isText entry = true := by
      simp [decodes, isDefault]
    rw [if_neg isDefault, skipped, Bool.true_and]
    exact reading_eq textOf putRelay isDefault

theorem decodeNevent_eq :
    decodeNevent bech32 hex text =
      if (decodeEntries bech32 text).all neventDecodes then
        .ok ((lastData (decodeEntries bech32 text) TLVType.defaultType).map fun id =>
          ⟨hex.encode id,
            some ((decodeEntries bech32 text).foldl
              (readingNext hex hex.encode fun relays relay => relays ++ [relay]) .empty).relays,
            (lastData (decodeEntries bech32 text) TLVType.kind).map kindOf,
            (lastData (decodeEntries bech32 text) TLVType.author).map hex.encode⟩)
      else .error () := by
  unfold decodeNevent
  rw [foldlM_eq_ite readNevent_eq]
  cases (decodeEntries bech32 text).all neventDecodes with
  | false => rfl
  | true =>
    rw [if_pos rfl, if_pos rfl, ok_bind, foldl_id, foldl_kind, foldl_author, Option.map_map]
    rfl

theorem readNrelay_eq (addr : Option String) (entry : TLVData) :
    readNrelay addr entry =
      if decodes TLVType.defaultType isText entry then
        .ok (if entry.typ = TLVType.defaultType then some (textOf entry.data) else addr)
      else .error () := by
  unfold readNrelay decodes
  rw [map_utf8Decode]
  by_cases isDefault : entry.typ = TLVType.defaultType
  · simp [isDefault]
  · simp [isDefault]

theorem decodeNrelay_eq :
    decodeNrelay bech32 text =
      if (decodeEntries bech32 text).all (decodes TLVType.defaultType isText) then
        .ok ((lastData (decodeEntries bech32 text) TLVType.defaultType).map fun addr =>
          ⟨textOf addr⟩)
      else .error () := by
  unfold decodeNrelay
  rw [foldlM_eq_ite readNrelay_eq]
  cases (decodeEntries bech32 text).all (decodes TLVType.defaultType isText) with
  | false => rfl
  | true =>
    have addr : (decodeEntries bech32 text).foldl (fun addr entry =>
        if entry.typ = TLVType.defaultType then some (textOf entry.data) else addr) none =
        (lastData (decodeEntries bech32 text) TLVType.defaultType).map textOf :=
      foldl_lastData id TLVType.defaultType textOf (fun _ _ => rfl) _ rfl
    rw [if_pos rfl, if_pos rfl, ok_bind, addr, Option.map_map]
    rfl

theorem decodeNaddr_eq :
    decodeNaddr bech32 hex text =
      if (decodeEntries bech32 text).all naddrDecodes then
        (lastData (decodeEntries bech32 text) TLVType.defaultType).bind fun id =>
          (lastData (decodeEntries bech32 text) TLVType.author).bind fun author =>
            (lastData (decodeEntries bech32 text) TLVType.kind).map fun kind =>
              ⟨textOf id, hex.encode author, kindOf kind,
                some ((decodeEntries bech32 text).foldl
                  (readingNext hex textOf putRelay) .empty).relays⟩
      else none := by
  unfold decodeNaddr
  rw [foldlM_eq_ite readNaddr_eq]
  cases (decodeEntries bech32 text).all naddrDecodes with
  | false => rfl
  | true =>
    rw [if_pos rfl, if_pos rfl]
    dsimp only
    rw [foldl_id, foldl_kind, foldl_author]
    cases lastData (decodeEntries bech32 text) TLVType.defaultType with
    | none => rfl
    | some id =>
      cases lastData (decodeEntries bech32 text) TLVType.author with
      | none => rfl
      | some author => cases lastData (decodeEntries bech32 text) TLVType.kind <;> rfl

end

/-! ### What is safe -/

section

variable {bech32 hex} {text : String}

theorem safe_iff {Entity : Type} {own : String} {keys : Entity → List String}
    {part : Option String} {decodable : Bool} {found : Option Entity} :
    Safe own keys part (if decodable then .ok found else .error ()) ↔
      decodable = true ∧
        ∀ entity, found = some entity → part = some own ∧ ∀ key ∈ keys entity, IsKey key := by
  unfold Safe
  cases decodable with
  | false => simp
  | true => simp

theorem all_and {accepts also : TLVData → Bool} {entries : List TLVData} :
    entries.all (fun entry => accepts entry && also entry) = true ↔
      entries.all accepts = true ∧ entries.all also = true := by
  rw [List.all_eq_true, List.all_eq_true, List.all_eq_true, ← forall₂_and]
  exact forall₂_congr fun _ _ => Bool.and_eq_true_iff

theorem all_neventDecodes {entries : List TLVData} :
    entries.all neventDecodes = true ↔ RelaysDecode entries ∧ KindsDecode entries := by
  refine all_and.trans (and_congr all_decodes (all_decodes.trans ?_))
  exact forall₃_congr fun _ _ _ => decide_eq_true_iff

theorem nprofile_safe_iff (digits : hex.TwoDigits) :
    Safe Hrps.nprofile Nprofile.keys (humanReadablePart bech32 text)
        (decodeNprofile bech32 hex text) ↔
      ProfileFits (humanReadablePart bech32 text) (decodeEntries bech32 text) := by
  rw [decodeNprofile_eq, safe_iff, all_decodes]
  refine and_congr_right fun _ => ?_
  cases last : lastData (decodeEntries bech32 text) TLVType.defaultType with
  | none => simp
  | some key => simp [Nprofile.keys, isKey_encode digits last]

theorem nevent_safe_iff (digits : hex.TwoDigits) :
    Safe Hrps.nevent Nevent.keys (humanReadablePart bech32 text)
        (decodeNevent bech32 hex text) ↔
      EventFits (humanReadablePart bech32 text) (decodeEntries bech32 text) := by
  rw [decodeNevent_eq, safe_iff, all_neventDecodes]
  refine and_congr_right fun _ => ?_
  cases last : lastData (decodeEntries bech32 text) TLVType.defaultType with
  | none => simp
  | some id =>
    cases author : lastData (decodeEntries bech32 text) TLVType.author with
    | none => simp [Nevent.keys, isKey_encode digits last]
    | some key => simp [Nevent.keys, isKey_encode digits last, isKey_encode digits author]

theorem nrelay_safe_iff :
    Safe Hrps.nrelay Nrelay.keys (humanReadablePart bech32 text) (decodeNrelay bech32 text) ↔
      RelayFits (humanReadablePart bech32 text) (decodeEntries bech32 text) := by
  rw [decodeNrelay_eq, safe_iff, all_decodes]
  refine and_congr_right fun _ => ?_
  simp [Nrelay.keys]

theorem naddr_safe_iff (digits : hex.TwoDigits) :
    Safe Hrps.naddr Naddr.keys (humanReadablePart bech32 text)
        (.ok (decodeNaddr bech32 hex text)) ↔
      AddressFits (humanReadablePart bech32 text) (decodeEntries bech32 text) := by
  have returned := @safe_iff Naddr Hrps.naddr Naddr.keys (humanReadablePart bech32 text) true
    (decodeNaddr bech32 hex text)
  have decodable : (decodeEntries bech32 text).all naddrDecodes = true ↔
      TextsDecode (decodeEntries bech32 text) ∧
        RelaysDecode (decodeEntries bech32 text) ∧ KindsDecode (decodeEntries bech32 text) :=
    all_and.trans (and_congr all_decodes all_neventDecodes)
  rw [if_pos rfl] at returned
  rw [returned, and_iff_right rfl, decodeNaddr_eq]
  unfold AddressFits
  rw [← and_imp, ← and_imp, and_assoc, ← decodable]
  cases (decodeEntries bech32 text).all naddrDecodes with
  | false => simp
  | true =>
    cases last : lastData (decodeEntries bech32 text) TLVType.defaultType with
    | none => simp
    | some id =>
      cases author : lastData (decodeEntries bech32 text) TLVType.author with
      | none => simp
      | some key =>
        cases lastData (decodeEntries bech32 text) TLVType.kind with
        | none => simp
        | some kind => simp [Naddr.keys, isKey_encode digits author]

end

/-- The loop over the entries ends, and each decoder is safe exactly when its condition holds of the
text's parts. -/
theorem decoders_safe_iff (bech32 : Bech32Codec) (hex : HexCodec) (digits : hex.TwoDigits)
    (text : String) :
    readTLVEntry (decodePreHandle bech32 text) (consumed (decodeEntries bech32 text)) = none ∧
    (Safe Hrps.nprofile Nprofile.keys (humanReadablePart bech32 text)
        (decodeNprofile bech32 hex text) ↔
      ProfileFits (humanReadablePart bech32 text) (decodeEntries bech32 text)) ∧
    (Safe Hrps.nevent Nevent.keys (humanReadablePart bech32 text)
        (decodeNevent bech32 hex text) ↔
      EventFits (humanReadablePart bech32 text) (decodeEntries bech32 text)) ∧
    (Safe Hrps.nrelay Nrelay.keys (humanReadablePart bech32 text) (decodeNrelay bech32 text) ↔
      RelayFits (humanReadablePart bech32 text) (decodeEntries bech32 text)) ∧
    (Safe Hrps.naddr Naddr.keys (humanReadablePart bech32 text)
        (.ok (decodeNaddr bech32 hex text)) ↔
      AddressFits (humanReadablePart bech32 text) (decodeEntries bech32 text)) := by
  refine ⟨?_, nprofile_safe_iff digits, nevent_safe_iff digits, nrelay_safe_iff,
    naddr_safe_iff digits⟩
  have ends := @readTLVEntries_ends (decodePreHandle bech32 text)
    (decodePreHandle bech32 text).length 0 (by omega)
  rw [Nat.zero_add] at ends
  exact ends

/-! ### Samples -/

theorem sampleHex_twoDigits : sampleHex.TwoDigits := by
  intro bytes _
  have digits : ∀ byte : Nat,
      [hexDigits[byte / 16]?.getD '0', hexDigits[byte % 16]?.getD '0'].length = 2 := fun _ => rfl
  show (String.ofList _).length = _
  rw [String.length_ofList, length_flatMap]
  simp only [digits, map_const', sum_replicate_nat]
  rw [Nat.mul_comm]

/-- The text of a profile with a key of 32 bytes, safe for one decoder and not for another. -/
theorem decoders_safe_sample :
    Safe Hrps.nprofile Nprofile.keys
      (humanReadablePart sampleBech32
        "nprofile1qqsrkwem8vankwem8vankwem8vankwem8vankwem8vankwem8vankwcapk0us")
      (decodeNprofile sampleBech32 sampleHex
        "nprofile1qqsrkwem8vankwem8vankwem8vankwem8vankwem8vankwem8vankwcapk0us") ∧
    ¬Safe Hrps.nrelay Nrelay.keys
      (humanReadablePart sampleBech32
        "nprofile1qqsrkwem8vankwem8vankwem8vankwem8vankwem8vankwem8vankwcapk0us")
      (decodeNrelay sampleBech32
        "nprofile1qqsrkwem8vankwem8vankwem8vankwem8vankwem8vankwem8vankwcapk0us") := by
  obtain ⟨part, entries⟩ : humanReadablePart sampleBech32
      "nprofile1qqsrkwem8vankwem8vankwem8vankwem8vankwem8vankwem8vankwcapk0us" =
        some "nprofile" ∧ decodeEntries sampleBech32
      "nprofile1qqsrkwem8vankwem8vankwem8vankwem8vankwem8vankwem8vankwcapk0us" =
        [⟨0, 32, replicate 32 0x3b⟩] := by
    decide +kernel
  have key : lastData [⟨0, 32, replicate 32 0x3b⟩] TLVType.defaultType =
      some (replicate 32 0x3b) := rfl
  have safe := decoders_safe_iff sampleBech32 sampleHex sampleHex_twoDigits
    "nprofile1qqsrkwem8vankwem8vankwem8vankwem8vankwem8vankwem8vankwcapk0us"
  rw [part, entries] at safe
  rw [part]
  obtain ⟨-, profile, -, relay, -⟩ := safe
  refine ⟨profile.mpr ⟨?_, fun data last => ?_⟩, fun read => ?_⟩
  · unfold RelaysDecode
    decide
  · rw [key] at last
    rw [← Option.some.inj last]
    decide
  · exact absurd ((relay.mp read).2 _ key) (by decide)

/-- A relay or an address that is no text and a kind of no bytes are thrown, and a keyless event is
read as a profile. -/
theorem decoders_throw :
    decodeNprofile sampleBech32 sampleHex "nprofile1qyql72gfhmz" = .error () ∧
    decodeNevent sampleBech32 sampleHex "nevent1qvqq0l5kgp" = .error () ∧
    decodeNrelay sampleBech32 "nrelay1qqql7rax5ln" = .error () ∧
    decodeNprofile sampleBech32 sampleHex "nevent1qqqqh8ryq9" = .ok (some ⟨"", some []⟩) := by
  decide +kernel

end Divine.NostrSdk.Nip19
