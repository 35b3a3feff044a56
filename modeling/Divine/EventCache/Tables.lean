/-
This file proves what the operations of the table and of the memory cache do to their
contents, and what a query of the table answers: an event for each fresh row that some
filter's cursor keeps.
-/

import Divine.EventCache.Store
import Mathlib.Data.List.Induction

namespace Divine.EventCache

open List Selection Table

/-! ### Filters -/

section Filters

variable {filter : Filter} {event : Event}

theorem matchesFilter_of_accepts (accepted : filter.accepts event = true) :
    filter.matchesFilter event = true := by
  unfold Filter.accepts at accepted
  unfold Filter.matchesFilter
  simp only [Bool.and_eq_true] at accepted ⊢
  obtain ⟨⟨⟨⟨⟨ids, authors⟩, kinds⟩, since⟩, isUntil⟩, tags⟩ := accepted
  refine ⟨⟨⟨⟨⟨ids, authors⟩, kinds⟩, ?_⟩, ?_⟩, tags⟩
  · cases bound : filter.since with
    | none => rfl
    | some bound' =>
      rw [bound] at since
      simp only [Option.all_some, decide_eq_true_eq] at since ⊢
      simp [Nat.not_lt.mpr since]
  · cases bound : filter.untilTime with
    | none => rfl
    | some bound' =>
      rw [bound] at isUntil
      simp only [Option.all_some, decide_eq_true_eq] at isUntil ⊢
      simp [Nat.not_lt.mpr isUntil]

theorem inRange_of_matchesFilter (matched : filter.matchesFilter event = true) :
    filter.inRange event = true := by
  unfold Filter.matchesFilter at matched
  simp only [Bool.and_eq_true] at matched
  obtain ⟨⟨⟨⟨⟨-, authors⟩, kinds⟩, -⟩, -⟩, -⟩ := matched
  unfold Filter.inRange
  split
  · next isAuthor isKind =>
    rw [isAuthor] at authors
    rw [isKind] at kinds
    simpa using And.intro authors kinds
  · next isAuthor _ =>
    rw [isAuthor] at authors
    simpa using authors
  · next isKind _ =>
    rw [isKind] at kinds
    simpa using kinds
  · rfl

theorem mem_found {rows : List CachedEvent} {row : CachedEvent} :
    row ∈ found filter rows ↔ row ∈ rows ∧ filter.matchesFilter row.event = true := by
  unfold found
  rw [mem_filter, Bool.and_eq_true]
  exact ⟨fun ⟨member, _, matched⟩ => ⟨member, matched⟩,
    fun ⟨member, matched⟩ => ⟨member, inRange_of_matchesFilter matched, matched⟩⟩

end Filters

/-! ### Rows -/

section Rows

variable {rows : List CachedEvent} {row other : CachedEvent} {now : Nat} {filters : List Filter}
  {event : Event}

theorem put_perm (row : CachedEvent) (rows : List CachedEvent) :
    (put row rows).Perm (row :: rows.filter fun other => other.id ≠ row.id) :=
  perm_middle.trans (Perm.cons row (Perm.of_eq takeWhile_append_dropWhile))

theorem mem_put : other ∈ put row rows ↔ other = row ∨ (other ∈ rows ∧ other.id ≠ row.id) := by
  rw [(put_perm row rows).mem_iff, mem_cons, mem_filter, decide_eq_true_iff]

theorem keyed_put (keyed : Keyed CachedEvent.id rows) : Keyed CachedEvent.id (put row rows) := by
  refine ((put_perm row rows).map CachedEvent.id).nodup_iff.mpr (nodup_cons.mpr ⟨?_, ?_⟩)
  · intro member
    obtain ⟨other, inside, same⟩ := mem_map.mp member
    exact of_decide_eq_true (mem_filter.mp inside).2 same
  · exact (filter_sublist.map _).nodup keyed

theorem mem_queryFilter {filter : Filter} (member : row ∈ queryFilter rows filter) :
    row ∈ rows ∧ filter.matchesFilter row.event = true := by
  unfold queryFilter at member
  cases cut : filter.cut with
  | none =>
    rw [cut] at member
    exact mem_found.mp member
  | some limit =>
    rw [cut] at member
    exact mem_found.mp (mem_of_mem_take member)

/-- Events of different ids that came before stay, and an event with a known id takes its place. -/
theorem mem_uniqueById {events : List Event}
    (functional : ∀ first ∈ events, ∀ second ∈ events, first.id = second.id → first = second) :
    ((uniqueById events).map Event.id).Nodup ∧ ∀ event, event ∈ uniqueById events ↔
      event ∈ events := by
  induction events using reverseRecOn with
  | nil => exact ⟨nodup_nil, fun _ => Iff.rfl⟩
  | append_singleton events last ih =>
    obtain ⟨nodup, members⟩ := ih fun first member second secondMember =>
      functional first (mem_append_left _ member) second (mem_append_left _ secondMember)
    have added : uniqueById (events ++ [last]) =
        if last.id ∈ (uniqueById events).map Event.id then
          (uniqueById events).map fun other => if other.id = last.id then last else other
        else uniqueById events ++ [last] := by
      unfold uniqueById
      rw [foldl_append]
      rfl
    rw [added]
    split
    · next known =>
      obtain ⟨same, member, isId⟩ := mem_map.mp known
      have isLast : same = last := functional same
        (mem_append_left _ ((members same).mp member)) last
        (mem_append_right _ mem_cons_self) isId
      have unchanged : ((uniqueById events).map fun other =>
          if other.id = last.id then last else other) = uniqueById events := by
        refine (map_congr_left fun other inside => ?_).trans (map_id' _)
        split
        · next sameId =>
          exact (functional other (mem_append_left _ ((members other).mp inside)) last
            (mem_append_right _ mem_cons_self) sameId).symm
        · rfl
      rw [unchanged]
      refine ⟨nodup, fun event => ⟨fun inside => mem_append_left _ ((members event).mp inside),
        fun inside => ?_⟩⟩
      rcases mem_append.mp inside with earlier | isEvent
      · exact (members event).mpr earlier
      · exact mem_singleton.mp isEvent ▸ isLast ▸ member
    · next unknown =>
      refine ⟨?_, fun event => by rw [mem_append, mem_append, members]⟩
      rw [map_append, nodup_append]
      refine ⟨nodup, nodup_singleton _, fun first inside second isSecond => ?_⟩
      rintro rfl
      exact unknown (mem_singleton.mp isSecond ▸ inside)

def keptRows (rows : List CachedEvent) (now : Nat) (filters : List Filter) : List CachedEvent :=
  (filters.flatMap (queryFilter rows)).filter (isFresh now)

theorem mem_keptRows : row ∈ keptRows rows now filters ↔
    ∃ filter ∈ filters, row ∈ queryFilter rows filter ∧ isFresh now row = true := by
  unfold keptRows
  rw [mem_filter, mem_flatMap]
  exact ⟨fun ⟨⟨filter, member, kept⟩, fresh⟩ => ⟨filter, member, kept, fresh⟩,
    fun ⟨filter, member, kept, fresh⟩ => ⟨⟨filter, member, kept⟩, fresh⟩⟩

theorem functional_keptRows (keyed : Keyed CachedEvent.id rows) :
    ∀ first ∈ (keptRows rows now filters).map CachedEvent.event,
      ∀ second ∈ (keptRows rows now filters).map CachedEvent.event,
        first.id = second.id → first = second := by
  have inside : ∀ row ∈ keptRows rows now filters, row ∈ rows := fun row member => by
    obtain ⟨filter, -, kept, -⟩ := mem_keptRows.mp member
    exact (mem_queryFilter kept).1
  intro first firstMember second secondMember same
  obtain ⟨row, member, rfl⟩ := mem_map.mp firstMember
  obtain ⟨other, otherMember, rfl⟩ := mem_map.mp secondMember
  exact congrArg CachedEvent.event
    (keyed.eq_of_key (inside row member) (inside other otherMember) same)

theorem mem_queryRows (keyed : Keyed CachedEvent.id rows) :
    event ∈ queryRows rows now filters ↔
      ∃ row ∈ keptRows rows now filters, row.event = event := by
  show event ∈ sortRows _ (uniqueById ((keptRows rows now filters).map CachedEvent.event)) ↔ _
  rw [(sortRows_perm _ _).mem_iff, (mem_uniqueById (functional_keptRows keyed)).2, mem_map]

theorem nodup_queryRows (keyed : Keyed CachedEvent.id rows) :
    ((queryRows rows now filters).map Event.id).Nodup :=
  (((sortRows_perm _ _).map Event.id).nodup_iff).mpr (mem_uniqueById (functional_keptRows keyed)).1

theorem descending_queryRows : Descending Event.createdAt (queryRows rows now filters) :=
  descending_sortRows _ _

theorem keyed_removeRows (keyed : Keyed CachedEvent.id rows) :
    Keyed CachedEvent.id (removeRows rows now filters) :=
  (filter_sublist.map _).nodup keyed

theorem mem_removeRows (keyed : Keyed CachedEvent.id rows) :
    row ∈ removeRows rows now filters ↔ row ∈ rows ∧ row ∉ keptRows rows now filters := by
  unfold removeRows
  rw [mem_filter, decide_eq_true_iff]
  refine and_congr_right fun member => not_congr ?_
  constructor
  · intro listed
    obtain ⟨event, inside, same⟩ := mem_map.mp listed
    obtain ⟨other, kept, rfl⟩ := (mem_queryRows keyed).mp inside
    obtain ⟨filter, -, isKept, -⟩ := mem_keptRows.mp kept
    exact keyed.eq_of_key (mem_queryFilter isKept).1 member same ▸ kept
  · exact fun kept => mem_map_of_mem ((mem_queryRows keyed).mpr ⟨row, kept, rfl⟩)

end Rows

/-! ### The memory -/

section Memory

variable {memory events : List Event} {event other : Event}

theorem mem_add : other ∈ add memory event ↔
    other = event ∨ (other ∈ memory ∧ other.id ≠ event.id) := by
  unfold add
  rw [mem_cons, mem_filter, decide_eq_true_iff]

theorem nodup_add (nodup : (memory.map Event.id).Nodup) :
    ((add memory event).map Event.id).Nodup := by
  refine nodup_cons.mpr ⟨?_, (filter_sublist.map _).nodup nodup⟩
  intro member
  obtain ⟨other, inside, same⟩ := mem_map.mp member
  exact of_decide_eq_true (mem_filter.mp inside).2 same

theorem nodup_foldl_add (nodup : (memory.map Event.id).Nodup) (events : List Event) :
    ((events.foldl add memory).map Event.id).Nodup := by
  induction events generalizing memory with
  | nil => exact nodup
  | cons event events ih => exact ih (nodup_add nodup)

theorem mem_foldl_add (member : other ∈ events.foldl add memory) :
    other ∈ memory ∨ other ∈ events := by
  induction events generalizing memory with
  | nil => exact .inl member
  | cons event events ih =>
    rcases ih member with earlier | later
    · rcases mem_add.mp earlier with rfl | ⟨inside, -⟩
      · exact .inr mem_cons_self
      · exact .inl inside
    · exact .inr (mem_cons_of_mem _ later)

end Memory

end Divine.EventCache
