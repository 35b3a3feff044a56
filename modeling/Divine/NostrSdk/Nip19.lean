/-
This file embeds the TLV entities of NIP-19: the regrouping of bits, the entries of type,
length and value, and the encoders and decoders of profiles, events, relays and addresses.
-/

import Divine.Library.Dictionary
import Divine.Library.Fallible
import Mathlib.Algebra.Group.Int.Defs
import Mathlib.Algebra.Group.Nat.Defs

namespace Divine.NostrSdk.Nip19

/-! ### Packages -/

/-- The bech32 package: its encoder and its decoder, each with a limit on the length. -/
structure Bech32Codec where
  encode : String → List Nat → Nat → Except Unit String
  decode : String → Nat → Except Unit (String × List Nat)

structure HexCodec where
  encode : List Nat → String
  decode : String → Except Unit (List Nat)

def utf8Encode (text : String) : List Nat := text.toByteArray.data.toList.map UInt8.toNat

def dropMark (text : String) : String :=
  match text.toList with
  | [] => text
  | first :: rest => if first = '\uFEFF' then String.ofList rest else text

def utf8Decode (bytes : List Nat) : Except Unit String :=
  match String.fromUTF8? ⟨(bytes.map UInt8.ofNat).toArray⟩ with
  | none => .error ()
  | some text => .ok (dropMark text)

/-! ### Regrouping bits -/

/-- The inner loop of `convertBits`: the complete words and the bits left over. As many rounds as
bits are enough. -/
def emit (toBits acc : Nat) : Nat → Nat → List Nat × Nat
  | 0, bits => ([], bits)
  | rounds + 1, bits =>
      if toBits ≤ bits then
        let (values, left) := emit toBits acc rounds (bits - toBits)
        (((acc >>> (bits - toBits)) &&& (2 ^ toBits - 1)) :: values, left)
      else ([], bits)

/-- The outer loop of `convertBits`, over an accumulator of 64 bits. -/
def regroup (fromBits toBits : Nat) (acc bits : Nat) : List Nat → Except Unit (List Nat × Nat × Nat)
  | [] => .ok ([], acc, bits)
  | v :: rest =>
      if v >>> fromBits ≠ 0 then .error ()
      else
        let shifted := (acc <<< fromBits ||| v) % 2 ^ 64
        let (values, left) := emit toBits shifted (bits + fromBits) (bits + fromBits)
        (regroup fromBits toBits shifted left rest).map fun (more, ended) => (values ++ more, ended)

def convertBits (data : List Nat) (fromBits toBits : Nat) (pad : Bool) :
    Except Unit (List Nat) := do
  let (result, acc, bits) ← regroup fromBits toBits 0 0 data
  if pad then
    if bits > 0 then .ok (result ++ [(acc <<< (toBits - bits)) &&& (2 ^ toBits - 1)])
    else .ok result
  else if bits ≥ fromBits then .error ()
  else if (acc <<< (toBits - bits)) &&& (2 ^ toBits - 1) ≠ 0 then .error ()
  else .ok result

/-! ### Entries -/

structure TLVData where
  typ : Nat
  length : Nat
  data : List Nat
  deriving DecidableEq

namespace TLVType

def defaultType : Nat := 0
def relay : Nat := 1
def author : Nat := 2
def kind : Nat := 3

end TLVType

def readTLVEntry (data : List Nat) (startIndex : Nat) : Option TLVData :=
  match data[startIndex]?, data[startIndex + 1]? with
  | some typ, some length =>
      if startIndex + 2 + length ≤ data.length then
        some ⟨typ, length, (data.drop (startIndex + 2)).take length⟩
      else none
  | _, _ => none

/-- The entries the loop of a decoder reads, each of two bytes at least. -/
def readTLVEntries (data : List Nat) : Nat → Nat → List TLVData
  | 0, _ => []
  | rounds + 1, startIndex =>
      match readTLVEntry data startIndex with
      | none => []
      | some entry => entry :: readTLVEntries data rounds (startIndex + (entry.length + 2))

/-- `writeTLVEntry`. The length is written as it is, also where it fits no byte. -/
def writeTLVEntry (buf : List Nat) (typ : Nat) (data : List Nat) : List Nat :=
  buf ++ typ :: data.length :: data

def writeRelays (buf : List Nat) (relays : Option (List String)) : List Nat :=
  (relays.getD []).foldl (fun buf relay => writeTLVEntry buf TLVType.relay (utf8Encode relay)) buf

/-- `setInt32`, big endian: the two's complement of the value in four bytes. -/
def setInt32 (value : Int) : List Nat :=
  let low := (value % 2 ^ 32).toNat
  [low / 2 ^ 24 % 256, low / 2 ^ 16 % 256, low / 2 ^ 8 % 256, low % 256]

/-- `getInt32`, big endian, of the first four bytes. -/
def getInt32 : List Nat → Except Unit Int
  | first :: second :: third :: fourth :: _ =>
      let low : Nat := first * 2 ^ 24 + second * 2 ^ 16 + third * 2 ^ 8 + fourth
      .ok (if low < 2 ^ 31 then (low : Int) else (low : Int) - 2 ^ 32)
  | _ => .error ()

/-! ### Entities -/

structure Nprofile where
  pubkey : String
  relays : Option (List String)
  deriving DecidableEq

structure Nevent where
  id : String
  relays : Option (List String)
  kind : Option Int
  author : Option String
  deriving DecidableEq

structure Nrelay where
  addr : String
  deriving DecidableEq

structure Naddr where
  id : String
  author : String
  kind : Int
  relays : Option (List String)
  deriving DecidableEq

namespace Hrps

def nprofile : String := "nprofile"
def nevent : String := "nevent"
def nrelay : String := "nrelay"
def naddr : String := "naddr"

end Hrps

variable (bech32 : Bech32Codec) (hex : HexCodec)

/-! ### Encoding -/

def handleEncodeResult (hrp : String) (buf : List Nat) : Except Unit String := do
  let words ← convertBits buf 8 5 true
  bech32.encode hrp words 2000

def encodeNprofile (o : Nprofile) : Except Unit String := do
  let pubkey ← hex.decode o.pubkey
  let buf := writeTLVEntry [] TLVType.defaultType pubkey
  handleEncodeResult bech32 Hrps.nprofile (writeRelays buf o.relays)

def encodeNevent (o : Nevent) : Except Unit String := do
  let id ← hex.decode o.id
  let buf := writeRelays (writeTLVEntry [] TLVType.defaultType id) o.relays
  match o.author with
  | none => handleEncodeResult bech32 Hrps.nevent buf
  | some author => do
      let bytes ← hex.decode author
      handleEncodeResult bech32 Hrps.nevent (writeTLVEntry buf TLVType.author bytes)

def encodeNrelay (o : Nrelay) : Except Unit String :=
  handleEncodeResult bech32 Hrps.nrelay (writeTLVEntry [] TLVType.defaultType (utf8Encode o.addr))

def encodeNaddr (o : Naddr) : Except Unit String := do
  let buf := writeTLVEntry [] TLVType.defaultType (utf8Encode o.id)
  let author ← hex.decode o.author
  let buf := writeTLVEntry buf TLVType.author author
  let buf := writeTLVEntry buf TLVType.kind (setInt32 o.kind)
  handleEncodeResult bech32 Hrps.naddr (writeRelays buf o.relays)

/-! ### Decoding -/

def noteReferences : List Char := ['n', 'o', 's', 't', 'r', ':']

/-- `replaceAll(noteReferences, "")`: how many characters of an occurrence are still to be dropped.
-/
def dropReferences : Nat → List Char → List Char
  | _, [] => []
  | toDrop + 1, _ :: rest => dropReferences toDrop rest
  | 0, char :: rest =>
      if noteReferences.isPrefixOf (char :: rest) then
        dropReferences (noteReferences.length - 1) rest
      else char :: dropReferences 0 rest

def decodePreHandle (text : String) : List Nat :=
  let decoded := do
    let (_, words) ← bech32.decode (String.ofList (dropReferences 0 text.toList)) 1000
    convertBits words 5 8 false
  match decoded with
  | .ok buf => buf
  | .error _ => []

def decodeEntries (text : String) : List TLVData :=
  let buf := decodePreHandle bech32 text
  readTLVEntries buf buf.length 0

def readNprofile (state : Option String × List String) (entry : TLVData) :
    Except Unit (Option String × List String) :=
  if entry.typ = TLVType.defaultType then .ok (some (hex.encode entry.data), state.2)
  else if entry.typ = TLVType.relay then
    (utf8Decode entry.data).map fun relay => (state.1, state.2 ++ [relay])
  else .ok state

def decodeNprofile (text : String) : Except Unit (Option Nprofile) := do
  let (pubkey, relays) ← (decodeEntries bech32 text).foldlM (readNprofile hex) (none, [])
  .ok (pubkey.map fun pubkey => ⟨pubkey, some relays⟩)

/-- The variables of the loops of `decodeNevent` and `decodeNaddr`. -/
structure Reading where
  id : Option String
  relays : List String
  kind : Option Int
  author : Option String
  deriving DecidableEq

def Reading.empty : Reading := ⟨none, [], none, none⟩

def readNevent (state : Reading) (entry : TLVData) : Except Unit Reading :=
  if entry.typ = TLVType.defaultType then .ok { state with id := some (hex.encode entry.data) }
  else if entry.typ = TLVType.relay then
    (utf8Decode entry.data).map fun relay => { state with relays := state.relays ++ [relay] }
  else if entry.typ = TLVType.kind then
    (getInt32 entry.data).map fun kind => { state with kind := some kind }
  else if entry.typ = TLVType.author then
    .ok { state with author := some (hex.encode entry.data) }
  else .ok state

def decodeNevent (text : String) : Except Unit (Option Nevent) := do
  let state ← (decodeEntries bech32 text).foldlM (readNevent hex) .empty
  .ok (state.id.map fun id => ⟨id, some state.relays, state.kind, state.author⟩)

def readNrelay (addr : Option String) (entry : TLVData) : Except Unit (Option String) :=
  if entry.typ = TLVType.defaultType then (utf8Decode entry.data).map some else .ok addr

def decodeNrelay (text : String) : Except Unit (Option Nrelay) := do
  let addr ← (decodeEntries bech32 text).foldlM readNrelay none
  .ok (addr.map Nrelay.mk)

def putRelay (relays : List String) (relay : String) : List String :=
  (Dictionary.put (relays.map fun relay => (relay, 1)) relay 1).map Prod.fst

def readNaddr (state : Reading) (entry : TLVData) : Except Unit Reading :=
  if entry.typ = TLVType.defaultType then
    (utf8Decode entry.data).map fun id => { state with id := some id }
  else if entry.typ = TLVType.relay then
    (utf8Decode entry.data).map fun relay => { state with relays := putRelay state.relays relay }
  else if entry.typ = TLVType.kind then
    (getInt32 entry.data).map fun kind => { state with kind := some kind }
  else if entry.typ = TLVType.author then
    .ok { state with author := some (hex.encode entry.data) }
  else .ok state

def decodeNaddr (text : String) : Option Naddr :=
  match (decodeEntries bech32 text).foldlM (readNaddr hex) .empty with
  | .error _ => none
  | .ok state =>
      match state.id, state.author, state.kind with
      | some id, some author, some kind => some ⟨id, author, kind, some state.relays⟩
      | _, _, _ => none

end Divine.NostrSdk.Nip19
