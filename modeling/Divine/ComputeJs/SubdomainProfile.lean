/-
This file models the page of a subdomain profile of the edge worker: the user object and
its fallbacks, the escaping of attributes, and the replacements in `index.html` one after
another.
-/

import Divine.ComputeJs.Nip05
import Divine.Library.JsonText
import Divine.Library.Templates

namespace Divine.ComputeJs

open JsonText Replacing

/-! ### Escaping -/

/-- `replace` with a global pattern of one character. -/
def replaceAll (symbol : Char) (replacement : String) (str : Text) : Text :=
  str.flatMap fun other => if other = symbol then replacement.toList else [other]

def escapeHtml (str : Text) : Text :=
  replaceAll '\'' "&#039;" (replaceAll '"' "&quot;" (replaceAll '>' "&gt;"
    (replaceAll '<' "&lt;" (replaceAll '&' "&amp;" str))))

/-! ### The public key -/

/-- UTF-16 code units, a surrogate as a character that is no digit. -/
def codeUnits (str : Text) : Text := str.flatMap fun symbol =>
  if symbol.toNat < 0x10000 then [symbol] else ['\uFFFD', '\uFFFD']

def isWhiteSpace (symbol : Char) : Bool :=
  symbol ∈ ['\t', '\n', '\x0b', '\x0c', '\r', ' ', '\u00a0', '\u1680', '\u2000', '\u2001', '\u2002',
    '\u2003', '\u2004', '\u2005', '\u2006', '\u2007', '\u2008', '\u2009', '\u200a', '\u2028',
    '\u2029', '\u202f', '\u205f', '\u3000', '\ufeff']

def parseHex (slice : Text) : Int :=
  let trimmed := slice.dropWhile isWhiteSpace
  let signed := trimmed.head? = some '-' || trimmed.head? = some '+'
  let unsigned := if signed then trimmed.tail else trimmed
  let digits :=
    if unsigned.take 2 = ['0', 'x'] || unsigned.take 2 = ['0', 'X'] then unsigned.drop 2
    else unsigned
  let value := (digits.map hexValue).takeWhile Option.isSome
    |>.foldl (fun value digit => value * 16 + digit.getD 0) 0
  if trimmed.head? = some '-' then - Int.ofNat value else Int.ofNat value

def slices : Text → List Text
  | [] => []
  | [symbol] => [[symbol]]
  | first :: second :: rest => [first, second] :: slices rest

def convertBits (fromBits toBits : Nat) (pad : Bool) :
    List Int → BitVec 32 → Nat → List (BitVec 32)
  | [], acc, bits =>
      if pad && 0 < bits then [acc <<< (toBits - bits) &&& (1 <<< toBits) - 1] else []
  | value :: rest, acc, bits =>
      let acc := acc <<< fromBits ||| BitVec.ofInt 32 value
      let bits := bits + fromBits
      ((List.range (bits / toBits)).map fun group =>
          acc.sshiftRight (bits - (group + 1) * toBits) &&& (1 <<< toBits) - 1) ++
        convertBits fromBits toBits pad rest acc (bits % toBits)

def hrpExpand (hrp : Text) : List (BitVec 32) :=
  hrp.map (fun symbol => BitVec.ofNat 32 (symbol.toNat / 32)) ++ 0 ::
    hrp.map fun symbol => BitVec.ofNat 32 (symbol.toNat % 32)

def polymod (values : List (BitVec 32)) : BitVec 32 :=
  values.foldl (fun chk value =>
      let top := chk.sshiftRight 25
      let shifted := (chk &&& 0x1ffffff) <<< 5 ^^^ value
      [(0, 0x3b6a57b2), (1, 0x26508e6d), (2, 0x1ea119fa), (3, 0x3d4233dd), (4, 0x2a1462b3)].foldl
        (fun chk generator =>
          if top.sshiftRight generator.1 &&& 1 = 0 then chk else chk ^^^ generator.2) shifted)
    1

def createChecksum (data : List (BitVec 32)) : List (BitVec 32) :=
  let mod := polymod (data ++ [0, 0, 0, 0, 0, 0]) ^^^ 1
  (List.range 6).map fun index => mod.sshiftRight (5 * (5 - index)) &&& 31

def charset : Text := "qpzry9x8gf2tvdw0s3jn54khce6mua7l".toList

def hexToNpub (hex : Text) : Text :=
  let converted := convertBits 8 5 true ((slices (codeUnits hex)).map parseHex) 0 0
  let checksum := createChecksum (hrpExpand "npub".toList ++ converted)
  "npub1".toList ++ (converted ++ checksum).flatMap fun group =>
    (charset[group.toNat]?).elim "undefined".toList fun symbol => [symbol]

/-! ### The answer of the profile service -/

structure Profile where
  displayName : Option Text
  name : Option Text
  picture : Option Text
  banner : Option Text
  about : Option Text
  nip05 : Option Text

structure Social where
  followerCount : Option Numeral
  followingCount : Option Numeral

structure Stats where
  videoCount : Option Numeral

structure ProfileData where
  profile : Option Profile
  social : Option Social
  stats : Option Stats

def truthy (value : Option Text) : Option Text := value.filter (· ≠ [])

def zero : Numeral := ⟨['0'], fun _ member => List.mem_singleton.mp member ▸ rfl, by decide⟩

/-! ### The user object -/

structure DivineUser where
  subdomain : Text
  pubkey : Text
  npub : Text
  username : Text
  displayName : Text
  picture : Option Text
  banner : Option Text
  about : Option Text
  nip05 : Text
  followersCount : Numeral
  followingCount : Numeral
  videoCount : Numeral
  apexDomain : Text

def apexDomain (hostname : Text) : Text :=
  (apexDomains.find? fun apex => apex.isSuffixOf hostname).getD "dvine.video".toList

section User

variable (subdomain pubkey hostname : Text) (profileData : Option ProfileData)

def profileField (field : Profile → Option Text) : Option Text :=
  truthy ((profileData.bind ProfileData.profile).bind field)

def displayName : Text :=
  (profileField profileData Profile.displayName <|> profileField profileData Profile.name).getD
    subdomain

def nip05 : Text :=
  (profileField profileData Profile.nip05).getD (subdomain ++ '@' :: apexDomain hostname)

def divineUser : DivineUser where
  subdomain := subdomain
  pubkey := pubkey
  npub := hexToNpub pubkey
  username := subdomain
  displayName := displayName subdomain profileData
  picture := profileField profileData Profile.picture
  banner := profileField profileData Profile.banner
  about := profileField profileData Profile.about
  nip05 := nip05 subdomain hostname profileData
  followersCount := ((profileData.bind ProfileData.social).bind Social.followerCount).getD zero
  followingCount := ((profileData.bind ProfileData.social).bind Social.followingCount).getD zero
  videoCount := ((profileData.bind ProfileData.stats).bind Stats.videoCount).getD zero
  apexDomain := apexDomain hostname

end User

def stringOrNull (value : Option Text) : Value := value.elim .null .string

/-- The members that `JSON.stringify` writes, in their order. -/
def DivineUser.entries (user : DivineUser) : List Entry :=
  [("subdomain".toList, .string user.subdomain),
    ("pubkey".toList, .string user.pubkey),
    ("npub".toList, .string user.npub),
    ("username".toList, .string user.username),
    ("displayName".toList, .string user.displayName),
    ("picture".toList, stringOrNull user.picture),
    ("banner".toList, stringOrNull user.banner),
    ("about".toList, stringOrNull user.about),
    ("nip05".toList, .string user.nip05),
    ("followersCount".toList, .number user.followersCount),
    ("followingCount".toList, .number user.followingCount),
    ("videoCount".toList, .number user.videoCount),
    ("apexDomain".toList, .string user.apexDomain)]

/-! ### The page -/

/-- What is replaced, in the order of the replacements. -/
inductive Slot where
  | ogTitle | ogDescription | ogImage | ogUrl | twitterTitle | twitterDescription | twitterImage
  | title | head
  deriving DecidableEq

namespace Slot

def all : List Slot :=
  [ogTitle, ogDescription, ogImage, ogUrl, twitterTitle, twitterDescription, twitterImage, title,
    head]

/-- A tag with an attribute `content` in double quotes. -/
def metaPattern (opening : String) : Pattern where
  opening := opening.toList
  allows symbol := symbol ≠ '"'
  closing := "\" />".toList
  stops rest symbol member := by
    obtain rfl : '"' = symbol := Option.some.inj member
    rfl

def pattern : Slot → Pattern
  | ogTitle => metaPattern "<meta property=\"og:title\" content=\""
  | ogDescription => metaPattern "<meta property=\"og:description\" content=\""
  | ogImage => metaPattern "<meta property=\"og:image\" content=\""
  | ogUrl => metaPattern "<meta property=\"og:url\" content=\""
  | twitterTitle => metaPattern "<meta name=\"twitter:title\" content=\""
  | twitterDescription => metaPattern "<meta name=\"twitter:description\" content=\""
  | twitterImage => metaPattern "<meta name=\"twitter:image\" content=\""
  | title =>
    { opening := "<title>".toList
      allows := fun symbol => symbol ≠ '<'
      closing := "</title>".toList
      stops := fun rest symbol member => by
        obtain rfl : '<' = symbol := Option.some.inj member
        rfl }
  | head =>
    { opening := "</head>".toList
      allows := fun _ => false
      closing := []
      stops := fun _ _ _ => rfl }

end Slot

namespace DivineUser

variable (user : DivineUser)

def userScript : Text :=
  "<script>window.__DIVINE_USER__ = ".toList ++ stringify user.entries ++ ";</script>".toList

def ogTitle : Text := user.displayName ++ " on diVine".toList

def ogDescription : Text :=
  user.about.getD ("Watch ".toList ++ user.displayName ++ "'s videos on diVine".toList)

def ogImage : Text := user.picture.getD "https://divine.video/og.png".toList

def ogUrl : Text := "https://".toList ++ user.subdomain ++ '.' :: user.apexDomain ++ ['/']

def debugComment : Text :=
  "<!-- DIVINE_SUBDOMAIN_PROFILE: ".toList ++ user.subdomain ++ " -->".toList

def field : Slot → Text
  | .ogTitle | .twitterTitle | .title => user.ogTitle
  | .ogDescription | .twitterDescription => user.ogDescription
  | .ogImage | .twitterImage => user.ogImage
  | .ogUrl => user.ogUrl
  | .head => []

/-- The second argument of a slot's `replace`. -/
def replacement : Slot → Text
  | .head => user.debugComment ++ user.userScript ++ "</head>".toList
  | slot => slot.pattern.opening ++ escapeHtml (user.field slot) ++ slot.pattern.closing

def page (html : Text) : Text := replaceEach Slot.pattern user.replacement Slot.all html

end DivineUser

inductive Response where
  | published
  | notFound
  | redirect (location : Text)
  | page (html : Text)

def assetExtensions : List Text :=
  [".js", ".css", ".png", ".jpg", ".jpeg", ".gif", ".svg", ".ico", ".webp", ".avif", ".woff",
    ".woff2", ".ttf", ".otf", ".json", ".webmanifest", ".map"].map String.toList

def isAsset (pathname : Text) : Bool :=
  (assetExtensions.any fun ext => ext.isSuffixOf pathname) ||
    "/assets/".toList.isPrefixOf pathname

/-- `handleSubdomainProfile`. The service gives no data when its answer is an error; an entry that
does not parse throws, which the caller answers like a missing one. -/
def handleSubdomainProfile (namesStore : NamesStore) (profiles : Text → Option ProfileData)
    (indexHtml : Option Text) (subdomain pathname hostname : Text) : Response :=
  if isAsset pathname then .published
  else
    match (namesStore (userKey subdomain)).join with
    | none => .notFound
    | some userData =>
        match truthy userData.pubkey with
        | none => .notFound
        | some pubkey =>
            if userData.active then
              match indexHtml with
              | none =>
                  .redirect ("https://".toList ++ apexDomain hostname ++ "/profile/".toList ++
                    hexToNpub pubkey)
              | some html =>
                  .page ((divineUser subdomain pubkey hostname (profiles pubkey)).page html)
            else .notFound

end Divine.ComputeJs
