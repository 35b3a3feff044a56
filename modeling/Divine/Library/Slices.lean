/-
This file develops the slices of a text at an offset that counts the bytes of its UTF-8
encoding.
-/

import Divine.Library.Fallible
import Mathlib.Algebra.GroupWithZero.Nat

namespace Divine.Slices

open List Option

/-! ### Slices -/

def byteLength (text : List Char) : Nat := (text.map Char.utf8Size).sum

/-- The characters in the first bytes, when the bytes are those of whole characters. -/
def takeBytes : List Char → Nat → Option (List Char)
  | _, 0 => some []
  | [], _ + 1 => none
  | symbol :: rest, size + 1 =>
      if symbol.utf8Size ≤ size + 1 then
        (takeBytes rest (size + 1 - symbol.utf8Size)).map fun lead => symbol :: lead
      else none

def sliceTo (text : String) (size : Nat) : Option String :=
  (takeBytes text.toList size).map String.ofList

/-- The offset is within the text and between two of its characters. -/
def Sliceable (text : String) (size : Nat) : Prop :=
  ∃ lead rest, text = lead ++ rest ∧ lead.utf8ByteSize = size

section Slices

variable {text lead rest : List Char} {size : Nat}

@[simp] theorem byteLength_cons (symbol : Char) (text : List Char) :
    byteLength (symbol :: text) = symbol.utf8Size + byteLength text := by
  simp [byteLength]

theorem utf8ByteSize_ofList (text : List Char) :
    (String.ofList text).utf8ByteSize = byteLength text := by
  induction text with
  | nil => rfl
  | cons symbol rest ih =>
    have split : String.ofList (symbol :: rest) =
      String.singleton symbol ++ String.ofList rest := by
      apply String.toList_inj.mp
      simp
    rw [split, String.utf8ByteSize_append, String.utf8ByteSize_singleton, ih,
      byteLength_cons]

theorem utf8ByteSize_eq (text : String) : text.utf8ByteSize = byteLength text.toList := by
  rw [← utf8ByteSize_ofList, String.ofList_toList]

theorem takeBytes_append (lead rest : List Char) :
    takeBytes (lead ++ rest) (byteLength lead) = some lead := by
  induction lead with
  | nil => cases rest <;> rfl
  | cons symbol lead ih =>
    have positive := symbol.utf8Size_pos
    obtain ⟨size, same⟩ : ∃ size, byteLength (symbol :: lead) = size + 1 :=
      ⟨byteLength (symbol :: lead) - 1, by rw [byteLength_cons]; omega⟩
    have remains : size + 1 - symbol.utf8Size = byteLength lead := by
      rw [← same, byteLength_cons]
      omega
    rw [same, cons_append, takeBytes, remains, ih, if_pos]
    · rfl
    · rw [← same, byteLength_cons]
      omega

theorem takeBytes_eq_some_iff :
    takeBytes text size = some lead ↔ lead <+: text ∧ byteLength lead = size := by
  constructor
  · intro taken
    induction text generalizing size lead with
    | nil =>
      cases size with
      | zero =>
        cases taken
        exact ⟨ nil_prefix, rfl⟩
      | succ size => cases taken
    | cons symbol rest ih =>
      cases size with
      | zero =>
        cases taken
        exact ⟨ nil_prefix, rfl⟩
      | succ size =>
        obtain ⟨fits, taken⟩ := ite_none_right_eq_some.mp taken
        obtain ⟨others, later, rfl⟩ := map_eq_some_iff.mp taken
        obtain ⟨leads, counted⟩ := ih later
        refine ⟨cons_prefix_cons.mpr ⟨rfl, leads⟩, ?_⟩
        rw [byteLength_cons, counted]
        omega
  · rintro ⟨⟨rest, rfl⟩, rfl⟩
    exact takeBytes_append lead rest

theorem sliceTo_isSome_iff {text : String} {size : Nat} :
    (sliceTo text size).isSome = true ↔ Sliceable text size := by
  unfold sliceTo Sliceable
  rw [isSome_map, isSome_iff_exists]
  simp only [takeBytes_eq_some_iff]
  constructor
  · rintro ⟨lead, ⟨rest, same⟩, counted⟩
    refine ⟨String.ofList lead, String.ofList rest, ?_, (utf8ByteSize_ofList lead).trans counted⟩
    rw [← String.ofList_append, same, String.ofList_toList]
  · rintro ⟨lead, rest, rfl, counted⟩
    refine ⟨lead.toList, ⟨rest.toList, String.toList_append.symm⟩, ?_⟩
    rw [← utf8ByteSize_eq]
    exact counted

theorem sliceable_of_ascii {text : String} (ascii : ∀ symbol ∈ text.toList, symbol.utf8Size = 1)
    (inside : size ≤ text.toList.length) : Sliceable text size := by
  have counted (part : List Char) (each : ∀ symbol ∈ part, symbol.utf8Size = 1) :
      byteLength part = part.length := by
    induction part with
    | nil => rfl
    | cons symbol rest ih =>
      rw [byteLength_cons, each symbol mem_cons_self,
        ih fun other member => each other (mem_cons_of_mem symbol member),
        length_cons, Nat.add_comm]
  refine ⟨String.ofList (text.toList.take size), String.ofList (text.toList.drop size), ?_, ?_⟩
  · rw [← String.ofList_append, take_append_drop, String.ofList_toList]
  · rw [utf8ByteSize_ofList, counted _ fun symbol member =>
      ascii symbol (mem_of_mem_take member),
      length_take, Nat.min_eq_left inside]

end Slices

/-! ### Panics -/

/-- How a computation ends that has no result. -/
inductive Failure (Error : Type*) where
  | fails (error : Error)
  | panics
  deriving DecidableEq

section Panics

variable {Error Value Result : Type}

def Returns (computed : Except (Failure Error) Value) : Prop := computed ≠ .error .panics

def lift (computed : Except Error Value) : Except (Failure Error) Value :=
  computed.mapError .fails

def slice (text : String) (size : Nat) : Except (Failure Error) String :=
  Fallible.okOr (sliceTo text size) .panics

/-- A log line: its arguments are computed only when it is written. -/
def logged (enabled : Bool) (arguments : Except (Failure Error) Unit) :
    Except (Failure Error) Unit :=
  if enabled then arguments else .ok ()

def logSlice (enabled : Bool) (text : String) (size : Nat) : Except (Failure Error) Unit :=
  logged enabled do
    let _ ← slice text size
    return ()

theorem returns_ok (value : Value) : Returns (.ok value : Except (Failure Error) Value) :=
  nofun

theorem returns_lift (computed : Except Error Value) : Returns (lift computed) := by
  cases computed <;> exact nofun

/-- A sequence returns when its first part does, and the rest does on the result if there is
one. -/
theorem returns_bind {first : Except (Failure Error) Value}
    {next : Value → Except (Failure Error) Result} :
    Returns (first >>= next) ↔
      Returns first ∧ ∀ value, first = .ok value → Returns (next value) := by
  cases first with
  | error failure =>
    refine ⟨fun returns => ⟨fun same => returns ?_, fun value same => (by cases same)⟩, ?_⟩
    · exact congrArg Except.error (Except.error.inj same)
    · exact fun both same => both.1 (congrArg Except.error (Except.error.inj same))
  | ok value =>
    refine ⟨fun returns => ⟨fun same => (by cases same), fun other same => ?_⟩, fun both => ?_⟩
    · exact Except.ok.inj same ▸ returns
    · exact both.2 value rfl

theorem returns_slice {text : String} {size : Nat} :
    Returns (slice text size : Except (Failure Error) String) ↔ Sliceable text size := by
  rw [← sliceTo_isSome_iff]
  unfold Returns slice
  cases sliceTo text size <;> simp [Fallible.okOr]

theorem slice_eq_ok {text : String} {size : Nat}
    (returns : Returns (slice text size : Except (Failure Error) String)) :
    (slice text size : Except (Failure Error) String) = .ok ((sliceTo text size).getD "") := by
  unfold Returns slice at *
  cases taken : sliceTo text size with
  | none =>
    rw [taken] at returns
    exact absurd rfl returns
  | some lead => rfl

theorem returns_logged {enabled : Bool} {arguments : Except (Failure Error) Unit} :
    Returns (logged enabled arguments) ↔ (enabled = true → Returns arguments) := by
  cases enabled with
  | false => exact iff_of_true (returns_ok ()) fun same => absurd same Bool.false_ne_true
  | true => exact ⟨fun returns _ => returns, fun returns => returns rfl⟩

theorem returns_logSlice {enabled : Bool} {text : String} {size : Nat} :
    Returns (logSlice enabled text size : Except (Failure Error) Unit) ↔
      (enabled = true → Sliceable text size) := by
  unfold logSlice
  rw [returns_logged, returns_bind, returns_slice]
  exact imp_congr_right fun _ => and_iff_left fun _ _ => returns_ok ()

theorem logSlice_eq_ok {enabled : Bool} {text : String} {size : Nat}
    (sliceable : enabled = true → Sliceable text size) :
    (logSlice enabled text size : Except (Failure Error) Unit) = .ok () := by
  cases enabled with
  | false => rfl
  | true =>
    show (slice text size >>= fun _ => Except.ok ()) = Except.ok ()
    rw [slice_eq_ok (returns_slice.mpr (sliceable rfl)), Fallible.ok_bind]

end Panics

end Divine.Slices
