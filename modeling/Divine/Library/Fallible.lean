/-
This file gives the inversion of a fallible sequence of computations: a sequence that ends
well went well at every step.
-/

import Mathlib.Data.List.ReduceOption
import Mathlib.Data.Option.Basic

namespace Divine.Fallible

open List Option

universe u v

variable {Error : Type v} {First Second : Type u}

def okOr (value : Option First) (error : Error) : Except Error First :=
  match value with
  | some present => .ok present
  | none => .error error

/-- `ensure!`-style early return: go on only when the condition holds. -/
def require (condition : Bool) (error : Error) : Except Error Unit :=
  if condition then .ok () else .error error

@[simp] theorem okOr_eq_ok {value : Option First} {error : Error} {result : First} :
    okOr value error = .ok result ↔ value = some result := by
  cases value <;> simp [okOr]

@[simp] theorem require_eq_ok {condition : Bool} {error : Error} {result : Unit} :
    require condition error = .ok result ↔ condition = true := by
  cases condition <;> simp [require]

variable {first : Except Error First} {next : First → Except Error Second}
  {compute : First → Except Error Second} {items : List First}

theorem bind_eq_ok {result : Second} :
    (first >>= next) = .ok result ↔ ∃ value, first = .ok value ∧ next value = .ok result := by
  cases first with
  | error | ok => simp [bind, Except.bind]

theorem ok_bind {value : First} :
    (Except.ok value >>= next) = next value := rfl

theorem bind_ne_error {error : Error} (here : first ≠ .error error)
    (later : ∀ value, next value ≠ .error error) :
    (first >>= next) ≠ .error error := by
  cases first with
  | error other => exact fun same => here (congrArg Except.error (Except.error.inj same))
  | ok value => exact later value

theorem require_ne_error {condition : Bool} {error other : Error} (differs : other ≠ error) :
    require condition other ≠ .error error := by
  cases condition with
  | false => exact fun same => differs (Except.error.inj same)
  | true => exact nofun

theorem pure_eq_ok {value result : First} :
    (pure value : Except Error First) = .ok result ↔ value = result := by
  simp [pure, Except.pure]

theorem mapError_eq_ok {Renamed : Type*} {rename : Error → Renamed} {result : First} :
    first.mapError rename = .ok result ↔ first = .ok result := by
  cases first <;> simp [Except.mapError]

theorem toOption_eq_some {result : First} :
    first.toOption = some result ↔ first = .ok result := by
  cases first <;> simp [Except.toOption]

/-! ### Lists -/

theorem mem_mapM {results : List Second} (computed : items.mapM compute = .ok results)
    {item : First} (member : item ∈ items) : ∃ result ∈ results, compute item = .ok result := by
  induction items generalizing results with
  | nil => cases member
  | cons head rest ih =>
    rw [mapM_cons] at computed
    obtain ⟨first, headComputed, remaining⟩ := bind_eq_ok.mp computed
    obtain ⟨others, restComputed, collected⟩ := bind_eq_ok.mp remaining
    obtain rfl := pure_eq_ok.mp collected
    rcases mem_cons.mp member with rfl | later
    · exact ⟨first, mem_cons_self, headComputed⟩
    · obtain ⟨result, present, ended⟩ := ih restComputed later
      exact ⟨result, mem_cons_of_mem first present, ended⟩

theorem mem_of_mapM {results : List Second} (computed : items.mapM compute = .ok results)
    {result : Second} (member : result ∈ results) : ∃ item ∈ items, compute item = .ok result := by
  induction items generalizing results with
  | nil =>
    obtain rfl := pure_eq_ok.mp computed
    cases member
  | cons head rest ih =>
    rw [mapM_cons] at computed
    obtain ⟨first, headComputed, remaining⟩ := bind_eq_ok.mp computed
    obtain ⟨others, restComputed, collected⟩ := bind_eq_ok.mp remaining
    obtain rfl := pure_eq_ok.mp collected
    rcases mem_cons.mp member with rfl | later
    · exact ⟨head, mem_cons_self, headComputed⟩
    · obtain ⟨item, present, ended⟩ := ih restComputed later
      exact ⟨item, mem_cons_of_mem head present, ended⟩

theorem exists_mapM (each : ∀ item ∈ items, ∃ result, compute item = .ok result) :
    ∃ results, items.mapM compute = .ok results := by
  induction items with
  | nil => exact ⟨[], rfl⟩
  | cons head rest ih =>
    obtain ⟨first, headComputed⟩ := each head mem_cons_self
    obtain ⟨others, restComputed⟩ :=
      ih fun item member => each item (mem_cons_of_mem head member)
    exact ⟨first :: others, by rw [mapM_cons, headComputed, restComputed]; rfl⟩

theorem mapM_subset {fewer more : List First} {results : List Second} (subset : fewer ⊆ more)
    (computed : more.mapM compute = .ok results) :
    ∃ kept, fewer.mapM compute = .ok kept ∧ kept ⊆ results := by
  induction fewer with
  | nil => exact ⟨[], rfl, nil_subset results⟩
  | cons head rest ih =>
    obtain ⟨first, present, headComputed⟩ := mem_mapM computed (subset mem_cons_self)
    obtain ⟨others, restComputed, kept⟩ :=
      ih fun item member => subset (mem_cons_of_mem head member)
    refine ⟨first :: others, ?_, cons_subset.mpr ⟨present, kept⟩⟩
    rw [mapM_cons, headComputed, restComputed]
    rfl

theorem foldlM_eq_ok {State : Type u} {Item : Type*} {step : State → Item → Except Error State}
    {next : State → Item → State} {items : List Item}
    (each : ∀ state, ∀ item ∈ items, step state item = .ok (next state item)) (state : State) :
    items.foldlM step state = .ok (items.foldl next state) := by
  induction items generalizing state with
  | nil => rfl
  | cons item rest ih =>
    rw [foldlM_cons, each state item mem_cons_self, foldl_cons]
    exact ih (fun state other member =>
      each state other (mem_cons_of_mem item member)) _

/-! ### Optional results -/

theorem mapM_eq_some_iff {compute : First → Option Second} {results : List Second} :
    items.mapM compute = some results ↔
      (∀ item ∈ items, (compute item).isSome) ∧ results = items.filterMap compute := by
  induction items generalizing results with
  | nil =>
    refine ⟨fun same => ⟨fun item member => ?_, (Option.some.inj same).symm⟩, ?_⟩
    · cases member
    · rintro ⟨-, rfl⟩
      rfl
  | cons head rest ih =>
    rw [List.mapM_cons]
    cases computed : compute head with
    | none => simp [computed]
    | some first =>
      simp only [List.mem_cons, forall_eq_or_imp, computed, Option.isSome_some, true_and,
        List.filterMap_cons_some computed, Option.bind_eq_bind, Option.bind_some,
        Option.bind_eq_some_iff, ih, Option.pure_def, Option.some.injEq]
      constructor
      · rintro ⟨others, ⟨each, rfl⟩, rfl⟩
        exact ⟨each, rfl⟩
      · rintro ⟨each, rfl⟩
        exact ⟨_, ⟨each, rfl⟩, rfl⟩

theorem mapM_isSome_iff {compute : First → Option Second} :
    (items.mapM compute).isSome = true ↔ ∀ item ∈ items, (compute item).isSome = true := by
  rw [isSome_iff_exists]
  exact ⟨fun ⟨_, computed⟩ => (mapM_eq_some_iff.mp computed).1,
    fun each => ⟨_, mapM_eq_some_iff.mpr ⟨each, rfl⟩⟩⟩

theorem reduceOption_filterMap (compute : First → Option (Option Second)) (items : List First) :
    (items.filterMap compute).reduceOption = items.filterMap fun item => (compute item).join := by
  unfold reduceOption
  rw [filterMap_filterMap]
  rfl

end Divine.Fallible
