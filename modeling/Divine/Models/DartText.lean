/-
This file models what the app asks of Dart's strings: whether one contains another, what
is left when one takes another's place, and the integer and the key that one is read for.
-/

import Mathlib.Algebra.Group.Nat.Defs
import Mathlib.Data.List.Infix

namespace Divine.Models

/-! ### Parts of a text -/

def contains (text part : String) : Bool := part.toList <:+: text.toList

def startsWith (text start : String) : Bool := start.toList <+: text.toList

def endsWith (text ending : String) : Bool := ending.toList <:+ text.toList

/-- The text with one part in the place of another, where some characters are still to be skipped.
-/
def replaceFrom (part replacement : List Char) : Nat → List Char → List Char
  | _, [] => []
  | skip + 1, _ :: rest => replaceFrom part replacement skip rest
  | 0, symbol :: rest =>
      if part <+: symbol :: rest then
        replacement ++ replaceFrom part replacement (part.length - 1) rest
      else symbol :: replaceFrom part replacement 0 rest

def replaceAll (text part replacement : String) : String :=
  String.ofList (replaceFrom part.toList replacement.toList 0 text.toList)

/-! ### Integers -/

/-- White space, but for the line break of other systems. -/
def isWhitespace (symbol : Char) : Bool :=
  let code := symbol.toNat
  (9 ≤ code && code ≤ 13) || code = 32 || code = 160 || code = 5760 ||
    (8192 ≤ code && code ≤ 8202) || code = 8232 || code = 8233 || code = 8239 || code = 8287 ||
    code = 12288 || code = 65279

def trimmed (text : List Char) : List Char :=
  let isTrimmed := fun symbol : Char => isWhitespace symbol || symbol.toNat = 133
  ((text.dropWhile isTrimmed).reverse.dropWhile isTrimmed).reverse

def digitValue (symbol : Char) : Option Nat :=
  if '0' ≤ symbol ∧ symbol ≤ '9' then some (symbol.toNat - '0'.toNat)
  else if 'a' ≤ symbol ∧ symbol ≤ 'f' then some (symbol.toNat - 'a'.toNat + 10)
  else if 'A' ≤ symbol ∧ symbol ≤ 'F' then some (symbol.toNat - 'A'.toNat + 10)
  else none

def readDigits (radix : Nat) (number : Nat) : List Char → Option Nat
  | [] => some number
  | symbol :: rest =>
      (digitValue symbol).bind fun digit =>
        if digit < radix then readDigits radix (number * radix + digit) rest else none

def wrapped (number : Int) : Int := Int.bmod number (2 ^ 64)

/-- A decimal integer of 64 bits, or a hexadecimal one of at most as many bits. -/
def readMagnitude (negative : Bool) (digits : List Char) : Option Int :=
  let signed := fun magnitude : Nat => if negative then -(magnitude : Int) else magnitude
  match digits with
  | [] => none
  | '0' :: 'x' :: symbol :: rest | '0' :: 'X' :: symbol :: rest =>
      (readDigits 16 0 (symbol :: rest)).bind fun magnitude =>
        if magnitude < 2 ^ 64 then some (wrapped (signed magnitude)) else none
  | digits =>
      (readDigits 10 0 digits).bind fun magnitude =>
        if wrapped (signed magnitude) = signed magnitude then some (signed magnitude) else none

def tryParseInt (source : String) : Option Int :=
  match trimmed source.toList with
  | '-' :: digits => readMagnitude true digits
  | '+' :: digits => readMagnitude false digits
  | digits => readMagnitude false digits

/-! ### Addresses -/

def isKeySymbol (symbol : Char) : Bool :=
  ('a' ≤ symbol && symbol ≤ 'z') || ('0' ≤ symbol && symbol ≤ '9')

def npubMatch (content : String) : Option String :=
  let start := "nostr:npub1".toList
  (content.toList.tails.find? fun rest =>
      start <+: rest && (rest.drop start.length).head?.any isKeySymbol).map fun rest =>
    String.ofList ("npub1".toList ++ (rest.drop start.length).takeWhile isKeySymbol)

/-- What `Uri.parse` reads. -/
structure Uri where
  scheme : String
  host : String

/-- What else the app asks of Dart: the form of an address, the text in small letters, and a number
of double precision. -/
structure Platform where
  parseUri : String → Option Uri
  toLowerCase : String → String
  roundedDouble : String → Option Int

end Divine.Models
