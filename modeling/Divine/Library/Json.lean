/-
This file gives JSON values the accessors of `serde_json::Value` and the strings the
operations of Rust's `str` that the handlers call.
-/

import Mathlib.Data.UInt

namespace Divine

/-! ### Strings -/

def stripLeading (lead text : String) : Option String :=
  if lead.toList.isPrefixOf text.toList then
    some (String.ofList (text.toList.drop lead.toList.length))
  else none

def startsWith (text lead : String) : Bool := lead.toList.isPrefixOf text.toList

def contains (text pattern : String) : Bool := decide (pattern.toList <:+: text.toList)

/-! ### Values -/

/-- A JSON number as `serde_json` keeps it. A number that is not of 64 bits is a float, kept here by
its literal. -/
inductive Number where
  | posInt (value : Nat)
  | negInt (value : Int)
  | float (literal : String)
  deriving DecidableEq

inductive Json where
  | null
  | bool (value : Bool)
  | number (value : Number)
  | string (value : String)
  | array (items : List Json)
  | object (entries : List (String × Json))

namespace Json

def get (value : Json) (field : String) : Option Json :=
  match value with
  | .object entries => entries.lookup field
  | _ => none

def field (value : Json) (name : String) : Json := (value.get name).getD .null

def item (value : Json) (index : Nat) : Json :=
  match value with
  | .array items => items[index]?.getD .null
  | _ => .null

def asStr : Json → Option String
  | .string value => some value
  | _ => none

def asI64 : Json → Option Int
  | .number (.posInt value) => if value < 2 ^ 63 then some value else none
  | .number (.negInt value) => some value
  | _ => none

def asU64 : Json → Option Nat
  | .number (.posInt value) => some value
  | _ => none

def asBool : Json → Option Bool
  | .bool value => some value
  | _ => none

def asArray : Json → Option (List Json)
  | .array items => some items
  | _ => none

theorem asU64_eq_some {value : Json} {number : Nat} :
    value.asU64 = some number ↔ value = .number (.posInt number) := by
  cases value with
  | number literal => cases literal <;> simp [asU64]
  | _ => simp [asU64]

theorem asStr_eq_some {value : Json} {text : String} :
    value.asStr = some text ↔ value = .string text := by
  cases value <;> simp [asStr]

theorem asArray_eq_some {value : Json} {items : List Json} :
    value.asArray = some items ↔ value = .array items := by
  cases value <;> simp [asArray]

/-! ### Typed decoding -/

def toU16 : Json → Option UInt16
  | .number (.posInt value) => if value < 2 ^ 16 then some (UInt16.ofNat value) else none
  | _ => none

def toVec {Item : Type} (item : Json → Option Item) : Json → Option (List Item)
  | .array items => items.mapM item
  | _ => none

/-- Decoding an `Option<T>`. -/
def toOption {Value : Type} (value : Json → Option Value) : Json → Option (Option Value)
  | .null => some none
  | other => (value other).map some

def toOptionalField {Value : Type} (name : String) (value : Json → Option Value) :
    Json → Option (Option Value)
  | .object entries =>
      match entries.lookup name with
      | none => some none
      | some present => toOption value present
  | .array [only] => toOption value only
  | _ => none

def toEmptyStruct : Json → Option Unit
  | .object _ => some ()
  | .array [] => some ()
  | _ => none

end Json

end Divine
