/-
This file settles which TLV entities come back from the text they are encoded to.
-/

import Divine.NostrSdk.TlvEntries
import Mathlib.Algebra.GroupWithZero.Nat

namespace Divine.NostrSdk.Nip19

open List Option Fallible

variable {bech32 : Bech32Codec} {hex : HexCodec} {text : String}

/-! ### Profiles -/

def entrySize (dataLength : Nat) : Nat := 2 + dataLength

def keySize (hex : HexCodec) (key : String) : Nat :=
  match hex.decode key with
  | .ok bytes => entrySize bytes.length
  | .error _ => 0

def relaysSize (relays : Option (List String)) : Nat :=
  ((relays.getD []).map fun relay => entrySize relay.utf8ByteSize).sum

/-- A key is written as the hex package writes its bytes. -/
def Canonical (hex : HexCodec) (key : String) : Prop :=
  (hex.decode key).map hex.encode = .ok key

/-- There is a list of relays, none with a byte order mark. -/
def Listed (relays : Option (List String)) : Prop :=
  ∃ listed, relays = some listed ∧ ∀ relay ∈ listed, ¬Marked relay

theorem keySize_of_decode {key : String} {bytes : List Nat} (decoded : hex.decode key = .ok bytes) :
    keySize hex key = entrySize bytes.length := by
  unfold keySize
  rw [decoded]

theorem canonical_iff {key : String} {bytes : List Nat} (decoded : hex.decode key = .ok bytes) :
    Canonical hex key ↔ hex.encode bytes = key := by
  unfold Canonical
  rw [decoded]
  change Except.ok (hex.encode bytes) = Except.ok key ↔ hex.encode bytes = key
  rw [Except.ok.injEq]

theorem length_entryBytes (entry : Nat × List Nat) :
    (entryBytes entry).length = entrySize entry.2.length := by
  rw [entryBytes, length_cons, length_cons, entrySize]
  omega

theorem length_relayEntries (relays : Option (List String)) :
    ((relayEntries relays).flatMap entryBytes).length = relaysSize relays := by
  unfold relayEntries relaysSize
  rw [List.length_flatMap, List.map_map]
  refine congrArg List.sum (List.map_congr_left fun relay _ => ?_)
  rw [Function.comp_apply, length_entryBytes, utf8Encode_length]

theorem map_dropMark_eq_self_iff {listed : List String} :
    listed.map dropMark = listed ↔ ∀ relay ∈ listed, ¬Marked relay := by
  have same : listed.map dropMark = listed ↔ listed.map dropMark = listed.map id := by
    rw [List.map_id]
  rw [same, map_inj_left]
  exact forall₂_congr fun relay _ => dropMark_eq_self_iff

theorem listed_iff {relays : Option (List String)} :
    some ((relays.getD []).map dropMark) = relays ↔ Listed relays := by
  cases relays with
  | none => exact iff_of_false nofun (fun ⟨_, absurd, _⟩ => some_ne_none _ absurd.symm)
  | some listed =>
    rw [getD_some, Option.some.injEq, map_dropMark_eq_self_iff]
    exact ⟨fun unmarked => ⟨listed, rfl, unmarked⟩, fun ⟨_, same, unmarked⟩ =>
      Option.some.inj same ▸ unmarked⟩

/-- The profile has the relays and a key, each as it is read, and fits the decoder's limit. -/
structure Nprofile.Fits (hex : HexCodec) (o : Nprofile) : Prop where
  pubkey : Canonical hex o.pubkey
  relays : Listed o.relays
  size : textLength Hrps.nprofile (keySize hex o.pubkey + relaysSize o.relays) ≤ decodeLimit

theorem readNprofile_relay (state : Option String × List String) (relay : String) :
    readNprofile hex state (entryRead (TLVType.relay, utf8Encode relay)) =
      .ok (state.1, state.2 ++ [dropMark relay]) := by
  change (utf8Decode (utf8Encode relay)).map _ = _
  rw [utf8Decode_utf8Encode]
  rfl

theorem foldl_profileRelays (relays : List String) (state : Option String × List String) :
    relays.foldl (fun state relay => (state.1, state.2 ++ [relay])) state =
      (state.1, state.2 ++ relays) := by
  induction relays generalizing state with
  | nil => exact Prod.ext rfl (append_nil _).symm
  | cons relay rest ih =>
    rw [foldl_cons, ih, append_assoc]
    rfl

theorem decodeNprofile_encoded (lawful : bech32.Lawful) {o : Nprofile}
    (encoded : encodeNprofile bech32 hex o = .ok text) :
    ∃ bytes, hex.decode o.pubkey = .ok bytes ∧ decodeNprofile bech32 hex text = .ok
      (if textLength Hrps.nprofile (keySize hex o.pubkey + relaysSize o.relays) ≤ decodeLimit then
        some ⟨hex.encode bytes, some ((o.relays.getD []).map dropMark)⟩
      else none) := by
  obtain ⟨bytes, decoded, written⟩ := bind_eq_ok.mp encoded
  refine ⟨bytes, decoded, ?_⟩
  dsimp only at written
  rw [writeRelays_eq, writeTLVEntry_eq, nil_append, ← flatMap_cons] at written
  have read := decodeEntries_encoded lawful (by decide) written
  rw [flatMap_cons, length_append, length_entryBytes, length_relayEntries,
    ← keySize_of_decode decoded] at read
  unfold decodeNprofile
  rw [read]
  by_cases fits :
    textLength Hrps.nprofile (keySize hex o.pubkey + relaysSize o.relays) ≤ decodeLimit
  · rw [if_pos fits, if_pos fits, map_cons, foldlM_cons]
    change ((((relayEntries o.relays).map entryRead).foldlM (readNprofile hex)
      (some (hex.encode bytes), [])).bind fun state => Except.ok (state.1.map fun pubkey =>
        Nprofile.mk pubkey (some state.2))) = _
    rw [foldlM_relays (fun state relay => (state.1, state.2 ++ [relay])) readNprofile_relay,
      foldl_profileRelays]
    rfl
  · rw [if_neg fits, if_neg fits]
    rfl

theorem nprofile_roundTrip (lawful : bech32.Lawful) {o : Nprofile}
    (encoded : encodeNprofile bech32 hex o = .ok text) :
    decodeNprofile bech32 hex text = .ok (some o) ↔ o.Fits hex := by
  obtain ⟨bytes, decoded, read⟩ := decodeNprofile_encoded lawful encoded
  rw [read, Except.ok.injEq]
  constructor
  · intro same
    obtain ⟨size, same⟩ := ite_none_right_eq_some.mp same
    have parts := Option.some.inj same
    exact ⟨(canonical_iff decoded).mpr (congrArg Nprofile.pubkey parts),
      listed_iff.mp (congrArg Nprofile.relays parts), size⟩
  · rintro ⟨pubkey, relays, size⟩
    rw [if_pos size, (canonical_iff decoded).mp pubkey, listed_iff.mpr relays]

/-! ### Events -/

/-- The event has the relays, its keys and no kind, each as it is read, and fits the decoder's
limit. -/
structure Nevent.Fits (hex : HexCodec) (o : Nevent) : Prop where
  id : Canonical hex o.id
  relays : Listed o.relays
  kind : o.kind = none
  author : ∀ author, o.author = some author → Canonical hex author
  size : textLength Hrps.nevent (keySize hex o.id + relaysSize o.relays +
    (o.author.map (keySize hex)).getD 0) ≤ decodeLimit

theorem readNevent_relay (state : Reading) (relay : String) :
    readNevent hex state (entryRead (TLVType.relay, utf8Encode relay)) =
      .ok { state with relays := state.relays ++ [dropMark relay] } := by
  change (utf8Decode (utf8Encode relay)).map _ = _
  rw [utf8Decode_utf8Encode]
  rfl

theorem foldl_eventRelays (relays : List String) (state : Reading) :
    relays.foldl (fun state relay => { state with relays := state.relays ++ [relay] }) state =
      { state with relays := state.relays ++ relays } := by
  induction relays generalizing state with
  | nil => exact congrArg (Reading.mk state.id · state.kind state.author) (append_nil _).symm
  | cons relay rest ih =>
    rw [foldl_cons, ih, append_assoc]
    rfl

def authorEntries (author : Option (List Nat)) : List (Nat × List Nat) :=
  (author.map fun bytes => (TLVType.author, bytes)).toList

def AuthorBytes (hex : HexCodec) (author : Option String) (bytes : Option (List Nat)) : Prop :=
  match author with
  | none => bytes = none
  | some key => ∃ decoded, bytes = some decoded ∧ hex.decode key = .ok decoded

theorem AuthorBytes.size {author : Option String} {bytes : Option (List Nat)}
    (decoded : AuthorBytes hex author bytes) :
    ((authorEntries bytes).flatMap entryBytes).length = (author.map (keySize hex)).getD 0 := by
  cases author with
  | none =>
    obtain rfl : bytes = none := decoded
    rfl
  | some key =>
    obtain ⟨data, rfl, decoded⟩ := decoded
    rw [map_some, getD_some, keySize_of_decode decoded, authorEntries, map_some,
      toList_some, flatMap_singleton, length_entryBytes]

theorem AuthorBytes.same_iff {author : Option String} {bytes : Option (List Nat)}
    (decoded : AuthorBytes hex author bytes) :
    bytes.map hex.encode = author ↔ ∀ key, author = some key → Canonical hex key := by
  cases author with
  | none =>
    obtain rfl : bytes = none := decoded
    exact iff_of_true rfl nofun
  | some key =>
    obtain ⟨data, rfl, decoded⟩ := decoded
    rw [map_some, Option.some.injEq, ← canonical_iff decoded]
    exact ⟨fun canonical other same => Option.some.inj same ▸ canonical, fun all => all key rfl⟩

theorem encodeNevent_written {o : Nevent} (encoded : encodeNevent bech32 hex o = .ok text) :
    ∃ id author, hex.decode o.id = .ok id ∧ AuthorBytes hex o.author author ∧
      handleEncodeResult bech32 Hrps.nevent (((TLVType.defaultType, id) ::
        (relayEntries o.relays ++ authorEntries author)).flatMap entryBytes) = .ok text := by
  obtain ⟨id, decoded, written⟩ := bind_eq_ok.mp encoded
  rw [writeRelays_eq, writeTLVEntry_eq, nil_append, ← flatMap_cons] at written
  cases author : o.author with
  | none =>
    rw [author] at written
    refine ⟨id, none, decoded, rfl, ?_⟩
    rw [authorEntries, map_none, toList_none, append_nil]
    exact written
  | some key =>
    rw [author] at written
    obtain ⟨bytes, authorDecoded, written⟩ := bind_eq_ok.mp written
    refine ⟨id, some bytes, decoded, ⟨bytes, rfl, authorDecoded⟩, ?_⟩
    rw [← cons_append, flatMap_append, authorEntries, map_some, toList_some,
      flatMap_singleton]
    exact written

theorem decodeNevent_encoded (lawful : bech32.Lawful) {o : Nevent}
    (encoded : encodeNevent bech32 hex o = .ok text) :
    ∃ id author, hex.decode o.id = .ok id ∧ AuthorBytes hex o.author author ∧
      decodeNevent bech32 hex text = .ok
        (if textLength Hrps.nevent (keySize hex o.id + relaysSize o.relays +
            (o.author.map (keySize hex)).getD 0) ≤ decodeLimit then
          some ⟨hex.encode id, some ((o.relays.getD []).map dropMark), none,
            author.map hex.encode⟩
        else none) := by
  obtain ⟨id, author, decoded, authorDecoded, written⟩ := encodeNevent_written encoded
  refine ⟨id, author, decoded, authorDecoded, ?_⟩
  have read := decodeEntries_encoded lawful (by decide) written
  rw [flatMap_cons, length_append, length_entryBytes, flatMap_append,
    length_append, length_relayEntries, authorDecoded.size, ← keySize_of_decode decoded,
    ← Nat.add_assoc] at read
  unfold decodeNevent
  rw [read]
  by_cases fits : textLength Hrps.nevent (keySize hex o.id + relaysSize o.relays +
      (o.author.map (keySize hex)).getD 0) ≤ decodeLimit
  · rw [if_pos fits, if_pos fits, map_cons, map_append, foldlM_cons]
    change (((((relayEntries o.relays).map entryRead) ++
      (authorEntries author).map entryRead).foldlM
      (readNevent hex) { Reading.empty with id := some (hex.encode id) }).bind fun state =>
        Except.ok (state.id.map fun id =>
          Nevent.mk id (some state.relays) state.kind state.author)) = _
    rw [foldlM_append, foldlM_relays
      (fun state relay => { state with relays := state.relays ++ [relay] }) readNevent_relay,
      foldl_eventRelays]
    cases author <;> rfl
  · rw [if_neg fits, if_neg fits]
    rfl

theorem nevent_roundTrip (lawful : bech32.Lawful) {o : Nevent}
    (encoded : encodeNevent bech32 hex o = .ok text) :
    decodeNevent bech32 hex text = .ok (some o) ↔ o.Fits hex := by
  obtain ⟨id, author, decoded, authorDecoded, read⟩ := decodeNevent_encoded lawful encoded
  rw [read, Except.ok.injEq]
  constructor
  · intro same
    obtain ⟨size, same⟩ := ite_none_right_eq_some.mp same
    have parts := Option.some.inj same
    exact ⟨(canonical_iff decoded).mpr (congrArg Nevent.id parts),
      listed_iff.mp (congrArg Nevent.relays parts), (congrArg Nevent.kind parts).symm,
      authorDecoded.same_iff.mp (congrArg Nevent.author parts), size⟩
  · rintro ⟨canonical, relays, kind, authors, size⟩
    rw [if_pos size, (canonical_iff decoded).mp canonical, listed_iff.mpr relays,
      authorDecoded.same_iff.mpr authors, ← kind]

/-! ### Relays -/

/-- The address has no byte order mark and fits the decoder's limit. -/
structure Nrelay.Fits (o : Nrelay) : Prop where
  addr : ¬Marked o.addr
  size : textLength Hrps.nrelay (entrySize o.addr.utf8ByteSize) ≤ decodeLimit

theorem decodeNrelay_encoded (lawful : bech32.Lawful) {o : Nrelay}
    (encoded : encodeNrelay bech32 o = .ok text) :
    decodeNrelay bech32 text = .ok
      (if textLength Hrps.nrelay (entrySize o.addr.utf8ByteSize) ≤ decodeLimit then
        some ⟨dropMark o.addr⟩
      else none) := by
  unfold encodeNrelay at encoded
  rw [writeTLVEntry_eq, nil_append, ← flatMap_singleton entryBytes] at encoded
  have read := decodeEntries_encoded lawful (by decide) encoded
  rw [flatMap_singleton, length_entryBytes, utf8Encode_length] at read
  unfold decodeNrelay
  rw [read]
  by_cases fits : textLength Hrps.nrelay (entrySize o.addr.utf8ByteSize) ≤ decodeLimit
  · rw [if_pos fits, if_pos fits, map_cons, map_nil, foldlM_cons]
    change ((((utf8Decode (utf8Encode o.addr)).map some).bind fun addr => Except.ok addr).bind
      fun addr => Except.ok (addr.map Nrelay.mk)) = _
    rw [utf8Decode_utf8Encode]
    rfl
  · rw [if_neg fits, if_neg fits]
    rfl

theorem nrelay_roundTrip (lawful : bech32.Lawful) {o : Nrelay}
    (encoded : encodeNrelay bech32 o = .ok text) :
    decodeNrelay bech32 text = .ok (some o) ↔ o.Fits := by
  rw [decodeNrelay_encoded lawful encoded, Except.ok.injEq]
  constructor
  · intro same
    obtain ⟨size, same⟩ := ite_none_right_eq_some.mp same
    exact ⟨dropMark_eq_self_iff.mp (congrArg Nrelay.addr (Option.some.inj same)), size⟩
  · rintro ⟨addr, size⟩
    rw [if_pos size, dropMark_eq_self_iff.mpr addr]

/-! ### Addresses -/

theorem putRelay_eq (relays : List String) (relay : String) :
    putRelay relays relay = if relay ∈ relays then relays else relays ++ [relay] := by
  unfold putRelay Dictionary.put
  have known : ((relays.map fun relay => (relay, 1)).any fun entry => entry.1 = relay) = true ↔
      relay ∈ relays := by
    simp [List.any_eq_true]
  by_cases member : relay ∈ relays
  · rw [if_pos (known.mpr member), if_pos member, List.map_map, List.map_map]
    refine (map_congr_left fun other _ => ?_).trans (map_id relays)
    by_cases same : other = relay
    · simp [same]
    · simp [same]
  · rw [if_neg (mt known.mp member), if_neg member, List.map_append, List.map_map]
    exact congrArg (· ++ [relay]) (map_id relays)

theorem foldl_putRelay_sublist (relays known : List String) :
    ∃ added, added.Sublist relays ∧ relays.foldl putRelay known = known ++ added := by
  induction relays generalizing known with
  | nil => exact ⟨[], .slnil, (append_nil known).symm⟩
  | cons relay rest ih =>
    obtain ⟨added, sublist, folded⟩ := ih (putRelay known relay)
    rw [foldl_cons, folded, putRelay_eq]
    by_cases member : relay ∈ known
    · rw [if_pos member]
      exact ⟨added, sublist.cons relay, rfl⟩
    · rw [if_neg member, append_assoc]
      exact ⟨relay :: added, sublist.cons_cons relay, rfl⟩

theorem foldl_putRelay_nodup (relays : List String) {known : List String} (nodup : known.Nodup) :
    (relays.foldl putRelay known).Nodup := by
  induction relays generalizing known with
  | nil => exact nodup
  | cons relay rest ih =>
    refine ih ?_
    rw [putRelay_eq]
    by_cases member : relay ∈ known
    · rw [if_pos member]
      exact nodup
    · rw [if_neg member]
      refine nodup_append.mpr ⟨nodup, nodup_singleton relay, ?_⟩
      rintro other inKnown last single rfl
      exact member (mem_singleton.mp single ▸ inKnown)

theorem foldl_putRelay_of_nodup {relays known : List String} (nodup : (known ++ relays).Nodup) :
    relays.foldl putRelay known = known ++ relays := by
  induction relays generalizing known with
  | nil => exact (append_nil known).symm
  | cons relay rest ih =>
    have fresh : relay ∉ known := fun member =>
      (nodup_append.mp nodup).2.2 relay member relay mem_cons_self rfl
    rw [append_cons] at nodup
    rw [foldl_cons, putRelay_eq, if_neg fresh, ih nodup, append_assoc]
    rfl

theorem putRelays_iff {relays : Option (List String)} :
    some (((relays.getD []).map dropMark).foldl putRelay []) = relays ↔
      Listed relays ∧ ∀ listed, relays = some listed → listed.Nodup := by
  constructor
  · intro same
    cases relays with
    | none => cases same
    | some listed =>
      rw [getD_some, Option.some.injEq] at same
      obtain ⟨added, sublist, folded⟩ := foldl_putRelay_sublist (listed.map dropMark) []
      rw [same, nil_append] at folded
      rw [← folded] at sublist
      have unmarked := sublist.eq_of_length (length_map _).symm
      have distinct : listed.Nodup :=
        same ▸ foldl_putRelay_nodup (listed.map dropMark) nodup_nil
      exact ⟨⟨listed, rfl, map_dropMark_eq_self_iff.mp unmarked.symm⟩,
        fun other same => Option.some.inj same ▸ distinct⟩
  · rintro ⟨⟨listed, rfl, unmarked⟩, distinct⟩
    have nodup : ([] ++ listed).Nodup := distinct listed rfl
    rw [getD_some, map_dropMark_eq_self_iff.mpr unmarked, foldl_putRelay_of_nodup nodup,
      nil_append]

/-- The identifier has no byte order mark, no relay is repeated, the kind is in the signed range,
and the text fits the limit. -/
structure Naddr.Fits (hex : HexCodec) (o : Naddr) : Prop where
  id : ¬Marked o.id
  author : Canonical hex o.author
  kind : -2 ^ 31 ≤ o.kind ∧ o.kind < 2 ^ 31
  relays : Listed o.relays
  distinct : ∀ listed, o.relays = some listed → listed.Nodup
  size : textLength Hrps.naddr (entrySize o.id.utf8ByteSize + keySize hex o.author + entrySize 4 +
    relaysSize o.relays) ≤ decodeLimit

theorem readNaddr_relay (state : Reading) (relay : String) :
    readNaddr hex state (entryRead (TLVType.relay, utf8Encode relay)) =
      .ok { state with relays := putRelay state.relays (dropMark relay) } := by
  change (utf8Decode (utf8Encode relay)).map _ = _
  rw [utf8Decode_utf8Encode]
  rfl

theorem readNaddr_kind (state : Reading) (data : List Nat) :
    readNaddr hex state (entryRead (TLVType.kind, data)) =
      (getInt32 data).map fun kind => { state with kind := some kind } := rfl

theorem foldl_addressRelays (relays : List String) (state : Reading) :
    relays.foldl (fun state relay => { state with relays := putRelay state.relays relay }) state =
      { state with relays := relays.foldl putRelay state.relays } := by
  induction relays generalizing state with
  | nil => rfl
  | cons relay rest ih => rw [foldl_cons, ih, foldl_cons]

theorem encodeNaddr_written {o : Naddr} (encoded : encodeNaddr bech32 hex o = .ok text) :
    ∃ author, hex.decode o.author = .ok author ∧
      handleEncodeResult bech32 Hrps.naddr (((TLVType.defaultType, utf8Encode o.id) ::
        (TLVType.author, author) :: (TLVType.kind, setInt32 o.kind) ::
          relayEntries o.relays).flatMap entryBytes) = .ok text := by
  obtain ⟨author, decoded, written⟩ := bind_eq_ok.mp encoded
  refine ⟨author, decoded, ?_⟩
  dsimp only at written
  rw [writeRelays_eq, writeTLVEntry_eq, writeTLVEntry_eq, writeTLVEntry_eq, nil_append] at written
  rw [flatMap_cons, flatMap_cons, flatMap_cons, ← append_assoc,
    ← append_assoc]
  exact written

theorem decodeNaddr_encoded (lawful : bech32.Lawful) {o : Naddr}
    (encoded : encodeNaddr bech32 hex o = .ok text) :
    ∃ author kind, hex.decode o.author = .ok author ∧ getInt32 (setInt32 o.kind) = .ok kind ∧
      decodeNaddr bech32 hex text =
        if textLength Hrps.naddr (entrySize o.id.utf8ByteSize + keySize hex o.author + entrySize 4 +
            relaysSize o.relays) ≤ decodeLimit then
          some ⟨dropMark o.id, hex.encode author, kind,
            some (((o.relays.getD []).map dropMark).foldl putRelay [])⟩
        else none := by
  obtain ⟨author, decoded, written⟩ := encodeNaddr_written encoded
  obtain ⟨kind, kindRead, -⟩ := getInt32_setInt32 o.kind
  refine ⟨author, kind, decoded, kindRead, ?_⟩
  have read := decodeEntries_encoded lawful (by decide) written
  have kindSize : (entryBytes (TLVType.kind, setInt32 o.kind)).length = entrySize 4 := rfl
  rw [flatMap_cons, flatMap_cons, flatMap_cons, length_append,
    length_append, length_append, length_entryBytes, length_entryBytes, kindSize,
    length_relayEntries, utf8Encode_length, ← keySize_of_decode decoded, ← Nat.add_assoc,
    ← Nat.add_assoc] at read
  unfold decodeNaddr
  rw [read]
  by_cases fits : textLength Hrps.naddr (entrySize o.id.utf8ByteSize + keySize hex o.author +
      entrySize 4 + relaysSize o.relays) ≤ decodeLimit
  · rw [if_pos fits, if_pos fits, map_cons, map_cons, map_cons, foldlM_cons]
    have id : readNaddr hex .empty (entryRead (TLVType.defaultType, utf8Encode o.id)) =
        .ok { Reading.empty with id := some (dropMark o.id) } := by
      change (utf8Decode (utf8Encode o.id)).map _ = _
      rw [utf8Decode_utf8Encode]
      rfl
    have kinds : ∀ state, readNaddr hex state (entryRead (TLVType.kind, setInt32 o.kind)) =
        .ok { state with kind := some kind } := by
      intro state
      rw [readNaddr_kind, kindRead]
      rfl
    have folded :
      (entryRead (TLVType.author, author) :: entryRead (TLVType.kind, setInt32 o.kind) ::
        (relayEntries o.relays).map entryRead).foldlM (readNaddr hex)
          { Reading.empty with id := some (dropMark o.id) } =
        .ok ⟨some (dropMark o.id), ((o.relays.getD []).map dropMark).foldl putRelay [], some kind,
          some (hex.encode author)⟩ := by
      change ((entryRead (TLVType.kind, setInt32 o.kind) ::
        (relayEntries o.relays).map entryRead).foldlM (readNaddr hex) _) = _
      rw [foldlM_cons, kinds]
      change ((relayEntries o.relays).map entryRead).foldlM (readNaddr hex) _ = _
      rw [foldlM_relays (fun state relay => { state with relays := putRelay state.relays relay })
        readNaddr_relay, foldl_addressRelays]
      rfl
    rw [id, ok_bind, folded]
  · rw [if_neg fits, if_neg fits]
    rfl

theorem naddr_roundTrip (lawful : bech32.Lawful) {o : Naddr}
    (encoded : encodeNaddr bech32 hex o = .ok text) :
    decodeNaddr bech32 hex text = some o ↔ o.Fits hex := by
  obtain ⟨author, kind, decoded, kindRead, read⟩ := decodeNaddr_encoded lawful encoded
  have sameKind : kind = o.kind ↔ -2 ^ 31 ≤ o.kind ∧ o.kind < 2 ^ 31 := by
    obtain ⟨other, otherRead, same⟩ := getInt32_setInt32 o.kind
    rw [Except.ok.inj (kindRead.symm.trans otherRead)]
    exact same
  rw [read]
  constructor
  · intro same
    obtain ⟨size, same⟩ := ite_none_right_eq_some.mp same
    have parts := Option.some.inj same
    obtain ⟨listed, distinct⟩ := putRelays_iff.mp (congrArg Naddr.relays parts)
    exact ⟨dropMark_eq_self_iff.mp (congrArg Naddr.id parts),
      (canonical_iff decoded).mpr (congrArg Naddr.author parts),
      sameKind.mp (congrArg Naddr.kind parts), listed, distinct, size⟩
  · rintro ⟨id, canonical, range, listed, distinct, size⟩
    rw [if_pos size, dropMark_eq_self_iff.mpr id, (canonical_iff decoded).mp canonical,
      sameKind.mpr range, putRelays_iff.mpr ⟨listed, distinct⟩]

/-! ### All entities -/

/-- Whenever an entity is encoded, its text is decoded to the same entity exactly when it fits. -/
theorem tlv_roundTrip (bech32 : Bech32Codec) (hex : HexCodec) (lawful : bech32.Lawful) :
    (∀ o text, encodeNprofile bech32 hex o = .ok text →
      (decodeNprofile bech32 hex text = .ok (some o) ↔ o.Fits hex)) ∧
    (∀ o text, encodeNevent bech32 hex o = .ok text →
      (decodeNevent bech32 hex text = .ok (some o) ↔ o.Fits hex)) ∧
    (∀ o text, encodeNrelay bech32 o = .ok text →
      (decodeNrelay bech32 text = .ok (some o) ↔ o.Fits)) ∧
    ∀ o text, encodeNaddr bech32 hex o = .ok text →
      (decodeNaddr bech32 hex text = some o ↔ o.Fits hex) :=
  ⟨fun _ _ encoded => nprofile_roundTrip lawful encoded,
    fun _ _ encoded => nevent_roundTrip lawful encoded,
    fun _ _ encoded => nrelay_roundTrip lawful encoded,
    fun _ _ encoded => naddr_roundTrip lawful encoded⟩

/-! ### Samples -/

def charset : List Char :=
  ['q', 'p', 'z', 'r', 'y', '9', 'x', '8', 'g', 'f', '2', 't', 'v', 'd', 'w', '0',
    's', '3', 'j', 'n', '5', '4', 'k', 'h', 'c', 'e', '6', 'm', 'u', 'a', '7', 'l']

def polymod (values : List Nat) : Nat :=
  values.foldl (fun checksum value =>
    let top := checksum >>> 25
    let mixed := ((checksum &&& 0x1ffffff) <<< 5) ^^^ value
    [0x3b6a57b2, 0x26508e6d, 0x1ea119fa, 0x3d4233dd, 0x2a1462b3].zipIdx.foldl
      (fun mixed generator => if top.testBit generator.2 then mixed ^^^ generator.1 else mixed)
      mixed) 1

def checksum (hrp : String) (words : List Nat) : List Nat :=
  let expanded := hrp.toList.map (fun char => char.toNat >>> 5) ++ 0 ::
    hrp.toList.map fun char => char.toNat &&& 31
  let sum := polymod (expanded ++ words ++ List.replicate 6 0) ^^^ 1
  (List.range 6).map fun place => (sum >>> (5 * (5 - place))) &&& 31

def letter (value : Nat) : Char := charset[value]?.getD 'q'

def sampleBech32 : Bech32Codec where
  encode hrp words limit :=
    if hrp.length + 1 + words.length + 6 > limit then .error ()
    else if words.all fun word => word < 32 then
      .ok (String.ofList (hrp.toList ++ '1' :: (words ++ checksum hrp words).map letter))
    else .error ()
  decode text limit :=
    if text.length > limit then .error ()
    else
      let letters := (text.toList.reverse.takeWhile fun char => char ≠ '1').reverse
      let hrp := String.ofList (text.toList.take (text.length - letters.length - 1))
      let values := letters.map charset.idxOf
      let words := values.take (values.length - 6)
      if values.drop (values.length - 6) = checksum hrp words then .ok (hrp, words) else .error ()

theorem idxOf_letter {value : Nat} (valueLt : value < 32) :
    charset.idxOf (letter value) = value := by
  revert value
  decide

theorem checksum_lt (hrp : String) (words : List Nat) {value : Nat}
    (member : value ∈ checksum hrp words) : value < 32 := by
  obtain ⟨place, -, rfl⟩ := mem_map.mp member
  exact mask_lt 5 _

theorem letter_mem (value : Nat) : letter value ∈ charset := by
  unfold letter
  cases found : charset[value]? with
  | none => decide
  | some char => exact mem_of_getElem? found

theorem sampleBech32_lawful : sampleBech32.Lawful := by
  have encodes : ∀ {hrp words limit text}, sampleBech32.encode hrp words limit = .ok text →
      (∀ word ∈ words, word < 32) ∧
        text = String.ofList (hrp.toList ++ '1' :: (words ++ checksum hrp words).map letter) := by
    intro hrp words limit text encoded
    dsimp only [sampleBech32] at encoded
    split at encoded
    · cases encoded
    · split at encoded
      · next wordsLt =>
        rw [List.all_eq_true] at wordsLt
        exact ⟨fun word member => of_decide_eq_true (wordsLt word member),
          (Except.ok.inj encoded).symm⟩
      · cases encoded
  have length : ∀ hrp words, (checksum hrp words).length = 6 := fun _ _ => rfl
  refine ⟨fun hrp _ words limit text encoded => ?_, fun text limit long => if_pos long,
    fun hrp _ words limit text encoded other fits => ?_⟩
  · obtain ⟨-, rfl⟩ := encodes encoded
    refine ⟨(words ++ checksum hrp words).map letter, String.toList_ofList, ?_, fun colon => ?_⟩
    · rw [length_map, length_append, length]
    · obtain ⟨value, -, same⟩ := mem_map.mp colon
      exact absurd (same ▸ letter_mem value) (by decide)
  · obtain ⟨wordsLt, rfl⟩ := encodes encoded
    generalize lettersEq : (words ++ checksum hrp words).map letter = letters
    have separated : (((hrp.toList ++ '1' :: letters).reverse).takeWhile
        fun char => char ≠ '1').reverse = letters := by
      rw [reverse_append, reverse_cons, append_assoc, singleton_append,
        takeWhile_append_of_pos, takeWhile_cons_of_neg (by decide), append_nil,
        reverse_reverse]
      intro char member
      rw [mem_reverse, ← lettersEq] at member
      obtain ⟨value, -, rfl⟩ := mem_map.mp member
      exact decide_eq_true fun same => absurd (same ▸ letter_mem value) (by decide)
    have values : letters.map charset.idxOf = words ++ checksum hrp words := by
      rw [← lettersEq, List.map_map]
      refine (map_congr_left fun value member => ?_).trans (map_id _)
      rcases mem_append.mp member with word | sum
      · exact idxOf_letter (wordsLt value word)
      · exact idxOf_letter (checksum_lt hrp words sum)
    have front : (hrp.toList ++ '1' :: letters).take
        ((hrp.toList ++ '1' :: letters).length - letters.length - 1) = hrp.toList := by
      have count : (hrp.toList ++ '1' :: letters).length - letters.length - 1 =
          hrp.toList.length := by
        rw [length_append, length_cons]
        omega
      rw [count, take_left]
    have short : (words ++ checksum hrp words).length - 6 = words.length := by
      rw [length_append, length, Nat.add_sub_cancel]
    dsimp only [sampleBech32]
    rw [lettersEq] at fits
    rw [if_neg (Nat.not_lt.mpr fits), String.toList_ofList, ← String.length_toList,
      String.toList_ofList, separated, front, String.ofList_toList, values, short, take_left,
      drop_left, if_pos rfl]

def hexDigits : List Char :=
  ['0', '1', '2', '3', '4', '5', '6', '7', '8', '9', 'a', 'b', 'c', 'd', 'e', 'f']

def sampleHexDecode : List Char → Except Unit (List Nat)
  | [] => .ok []
  | high :: low :: rest =>
      if high ∈ hexDigits ∧ low ∈ hexDigits then
        (sampleHexDecode rest).map fun bytes =>
          (hexDigits.idxOf high * 16 + hexDigits.idxOf low) :: bytes
      else .error ()
  | [_] => .error ()

def sampleHex : HexCodec where
  encode bytes := String.ofList (bytes.flatMap fun byte =>
    [hexDigits[byte / 16]?.getD '0', hexDigits[byte % 16]?.getD '0'])
  decode key := sampleHexDecode key.toList

/-- One entity of each kind, and its text. -/
theorem tlv_roundTrip_sample :
    decodeNprofile sampleBech32 sampleHex "nprofile1qqqnkqg8waehxw309aeq2g0ruv" =
      .ok (some ⟨"3b", some ["wss://r"]⟩) ∧
    decodeNevent sampleBech32 sampleHex "nevent1qqqnkqg8waehxw309aeqyqwx0htr87" =
      .ok (some ⟨"3b", some ["wss://r"], none, some "c6"⟩) ∧
    decodeNrelay sampleBech32 "nrelay1qqrhwumn8ghj7uswa6jjh" = .ok (some ⟨"wss://r"⟩) ∧
    decodeNaddr sampleBech32 sampleHex "naddr1qqqkgqsp8vpsgqqqw4rszpmhwden5te0wgt4zhq3" =
      some ⟨"d", "3b", 30023, some ["wss://r"]⟩ := by
  have listed : Listed (some ["wss://r"]) := by
    refine ⟨_, rfl, fun relay member => ?_⟩
    rw [mem_singleton.mp member]
    unfold Marked
    decide
  obtain ⟨profiles, events, relays, addresses⟩ :=
    tlv_roundTrip sampleBech32 sampleHex sampleBech32_lawful
  refine ⟨(profiles _ _ (by decide +kernel)).mpr ⟨rfl, listed, by decide +kernel⟩,
    (events _ _ (by decide +kernel)).mpr ⟨rfl, listed, rfl, ?_, by decide +kernel⟩,
    (relays _ _ (by decide +kernel)).mpr ⟨?_, by decide +kernel⟩,
    (addresses _ _ (by decide +kernel)).mpr
      ⟨?_, rfl, by decide, listed, ?_, by decide +kernel⟩⟩
  · rintro author same
    rw [← Option.some.inj same]
    rfl
  · unfold Marked
    decide
  · unfold Marked
    decide
  · rintro others same
    rw [← Option.some.inj same]
    exact nodup_singleton _

/-- An event comes back without its kind, and an address with another one. -/
theorem kind_not_read :
    (∃ text, encodeNevent sampleBech32 sampleHex ⟨"3b", some [], some 1, none⟩ = .ok text ∧
      decodeNevent sampleBech32 sampleHex text ≠ .ok (some ⟨"3b", some [], some 1, none⟩)) ∧
    ∃ text, encodeNaddr sampleBech32 sampleHex ⟨"d", "3b", 2 ^ 31, some []⟩ = .ok text ∧
      decodeNaddr sampleBech32 sampleHex text ≠ some ⟨"d", "3b", 2 ^ 31, some []⟩ := by
  refine ⟨⟨"nevent1qqqnkdw8vsz", by decide +kernel, ?_⟩, ⟨"naddr1qqqkgqsp8vpsfqqqqqqqfmjlc9",
    by decide +kernel, ?_⟩⟩
  · exact fun same => some_ne_none _
      ((nevent_roundTrip sampleBech32_lawful (by decide +kernel)).mp same).kind
  · exact fun same => absurd
      ((naddr_roundTrip sampleBech32_lawful (by decide +kernel)).mp same).kind (by decide)

end Divine.NostrSdk.Nip19
