/-
This file models a dictionary that keeps its keys in the order of their insertion as the
list of its entries.
-/

import Mathlib.Data.List.Nodup

namespace Divine.Dictionary

open List

variable {Key Value : Type*} [DecidableEq Key]

def find (entries : List (Key × Value)) (key : Key) : Option Value :=
  (entries.find? fun entry => entry.1 = key).map Prod.snd

def put (entries : List (Key × Value)) (key : Key) (value : Value) : List (Key × Value) :=
  if entries.any fun entry => entry.1 = key then
    entries.map fun entry => if entry.1 = key then (key, value) else entry
  else entries ++ [(key, value)]

def remove (entries : List (Key × Value)) (key : Key) : List (Key × Value) :=
  entries.filter fun entry => entry.1 ≠ key

variable {entries : List (Key × Value)} {key : Key} {value : Value} {entry : Key × Value}

theorem mem_of_find (found : find entries key = some value) : (key, value) ∈ entries := by
  obtain ⟨entry, present, rfl⟩ := Option.map_eq_some_iff.mp found
  have own := List.find?_some present
  rw [decide_eq_true_eq] at own
  rw [← own]
  exact mem_of_find?_eq_some present

theorem mem_put (member : entry ∈ put entries key value) :
    entry ∈ entries ∨ entry = (key, value) := by
  unfold put at member
  split at member
  · obtain ⟨old, present, rfl⟩ := mem_map.mp member
    by_cases own : old.1 = key
    · rw [if_pos own]
      exact .inr rfl
    · rw [if_neg own]
      exact .inl present
  · rcases mem_append.mp member with before | added
    · exact .inl before
    · exact .inr (mem_singleton.mp added)

theorem mem_remove (member : entry ∈ remove entries key) : entry ∈ entries :=
  mem_of_mem_filter member

theorem find_cons (head : Key × Value) (entries : List (Key × Value)) (key : Key) :
    find (head :: entries) key = if head.1 = key then some head.2 else find entries key := by
  unfold find
  rw [List.find?_cons]
  by_cases own : head.1 = key
  · rw [decide_eq_true own, if_pos own]
    rfl
  · rw [decide_eq_false own, if_neg own]

theorem find_append_singleton (entries : List (Key × Value)) (key other : Key) (value : Value)
    (absent : find entries other = none ∨ key ≠ other) :
    find (entries ++ [(key, value)]) other =
      if key = other then some value else find entries other := by
  induction entries with
  | nil => exact find_cons (key, value) [] other
  | cons head rest ih =>
    rw [find_cons] at absent
    rw [cons_append, find_cons, find_cons]
    by_cases own : head.1 = other
    · rw [if_pos own] at absent
      rw [if_pos own, if_pos own, if_neg (absent.resolve_left nofun)]
    · rw [if_neg own] at absent
      rw [if_neg own, if_neg own]
      exact ih absent

theorem any_key_iff : (entries.any fun entry => entry.1 = key) = true ↔
    find entries key ≠ none := by
  induction entries with
  | nil => exact iff_of_false Bool.false_ne_true (not_not_intro rfl)
  | cons head rest ih =>
    rw [any_cons, Bool.or_eq_true, decide_eq_true_eq, ih, find_cons]
    by_cases own : head.1 = key
    · rw [if_pos own]
      exact iff_of_true (.inl own) nofun
    · rw [if_neg own]
      exact or_iff_right own

theorem find_map_replace (entries : List (Key × Value)) (key other : Key) (value : Value) :
    find (entries.map fun entry => if entry.1 = key then (key, value) else entry) other =
      if key = other then (find entries other).map fun _ => value else find entries other := by
  induction entries with
  | nil => exact (ite_self _).symm
  | cons head rest ih =>
    rw [map_cons, find_cons, find_cons, ih]
    by_cases own : head.1 = key
    · rw [if_pos own, own]
      by_cases same : key = other
      · rw [if_pos same, if_pos same, if_pos same]
        rfl
      · simp only [if_neg same]
    · rw [if_neg own]
      by_cases same : key = other
      · rw [if_neg (same ▸ own), if_pos same, if_pos same, if_neg (same ▸ own)]
      · rw [if_neg same, if_neg same]

theorem find_put (entries : List (Key × Value)) (key other : Key) (value : Value) :
    find (put entries key value) other =
      if key = other then some value else find entries other := by
  unfold put
  by_cases present : find entries key = none
  · rw [if_neg (mt any_key_iff.mp (not_not_intro present)), find_append_singleton]
    by_cases same : key = other
    · exact .inl (same ▸ present)
    · exact .inr same
  · rw [if_pos (any_key_iff.mpr present), find_map_replace]
    by_cases same : key = other
    · rw [if_pos same, if_pos same, ← same]
      obtain ⟨old, found⟩ := Option.ne_none_iff_exists'.mp present
      rw [found]
      rfl
    · rw [if_neg same, if_neg same]

theorem put_of_absent (absent : find entries key = none) :
    put entries key value = entries ++ [(key, value)] :=
  if_neg (mt any_key_iff.mp (not_not_intro absent))

theorem find_put_isSome {other : Key} : (find (put entries key value) other).isSome = true ↔
    (find entries other).isSome = true ∨ key = other := by
  rw [find_put]
  split
  · rename_i same
    exact ⟨fun _ => .inr same, fun _ => rfl⟩
  · rename_i differs
    exact ⟨.inl, fun present => present.resolve_right differs⟩

/-- Where each item sets one key or none, exactly the keys that were there or are set are found. -/
theorem find_foldl_isSome {Item : Type*} (keyOf : Item → Option Key)
    {update : List (Key × Value) → Item → List (Key × Value)}
    (sets : ∀ entries item key, (find (update entries item) key).isSome = true ↔
      (find entries key).isSome = true ∨ keyOf item = some key) (items : List Item) :
    (find (items.foldl update entries) key).isSome = true ↔
      (find entries key).isSome = true ∨ ∃ item ∈ items, keyOf item = some key := by
  induction items generalizing entries with
  | nil => simp
  | cons item rest ih =>
    rw [foldl_cons, ih, sets, or_assoc]
    simp only [mem_cons, exists_eq_or_imp]

omit [DecidableEq Key] in
theorem forall_mem_foldl {Item : Type*} {property : Key × Value → Prop} {items : List Item}
    {update : List (Key × Value) → Item → List (Key × Value)}
    (start : ∀ entry ∈ entries, property entry)
    (kept : ∀ item ∈ items, ∀ entries : List (Key × Value), (∀ entry ∈ entries, property entry) →
      ∀ entry ∈ update entries item, property entry) :
    ∀ entry ∈ items.foldl update entries, property entry := by
  induction items generalizing entries with
  | nil => exact start
  | cons item rest ih =>
    exact ih (kept item mem_cons_self entries start) fun later member =>
      kept later (mem_cons_of_mem _ member)

theorem nodup_keys_put (nodup : (entries.map Prod.fst).Nodup) :
    ((put entries key value).map Prod.fst).Nodup := by
  unfold put
  split
  · have keys : (entries.map fun entry => if entry.1 = key then (key, value) else entry).map
        Prod.fst = entries.map Prod.fst := by
      rw [map_map]
      refine map_congr_left fun entry _ => ?_
      by_cases own : entry.1 = key
      · exact (congrArg Prod.fst (if_pos own)).trans own.symm
      · exact congrArg Prod.fst (if_neg own)
    rwa [keys]
  · next absent =>
    rw [map_append, nodup_append]
    refine ⟨nodup, pairwise_singleton _ _, ?_⟩
    rintro other member _ own rfl
    rw [mem_singleton.mp own] at member
    obtain ⟨entry, inside, same⟩ := mem_map.mp member
    exact absent (any_eq_true.mpr ⟨entry, inside, decide_eq_true same⟩)

theorem find_of_mem (nodup : (entries.map Prod.fst).Nodup) (member : entry ∈ entries) :
    find entries entry.1 = some entry.2 := by
  cases found : find entries entry.1 with
  | none =>
    have absent := mt any_key_iff.mp (not_not_intro found)
    exact absurd (any_eq_true.mpr ⟨entry, member, decide_eq_true rfl⟩) absent
  | some value =>
    have same := inj_on_of_nodup_map nodup (mem_of_find found) member rfl
    exact congrArg (some ∘ Prod.snd) same

theorem keys_remove (entries : List (Key × Value)) (key : Key) :
    (remove entries key).map Prod.fst =
      (entries.map Prod.fst).filter (fun other => other ≠ key) := by
  rw [filter_map]
  rfl

theorem nodup_keys_remove (nodup : (entries.map Prod.fst).Nodup) :
    ((remove entries key).map Prod.fst).Nodup :=
  nodup.sublist (filter_sublist.map _)

theorem find_remove (entries : List (Key × Value)) (key other : Key) :
    find (remove entries key) other = if key = other then none else find entries other := by
  unfold remove
  induction entries with
  | nil => exact (ite_self _).symm
  | cons head rest ih =>
    rw [find_cons]
    by_cases own : head.1 = key
    · rw [filter_cons_of_neg (by simpa using own), ih, own]
      by_cases same : key = other
      · rw [if_pos same, if_pos same]
      · rw [if_neg same, if_neg same, if_neg same]
    · rw [filter_cons_of_pos (by simpa using own), find_cons, ih]
      by_cases same : key = other
      · rw [if_neg (same ▸ own), if_pos same]
        exact (if_pos same).symm
      · rw [if_neg same, if_neg same]

theorem find_foldl_remove (keys : List Key) (entries : List (Key × Value)) (key : Key) :
    find (keys.foldl remove entries) key = if key ∈ keys then none else find entries key := by
  induction keys generalizing entries with
  | nil => exact (if_neg not_mem_nil).symm
  | cons head rest ih =>
    rw [foldl_cons, ih, find_remove]
    by_cases later : key ∈ rest
    · rw [if_pos later, if_pos (mem_cons_of_mem head later)]
    · rw [if_neg later]
      by_cases own : head = key
      · rw [if_pos own, if_pos (own ▸ mem_cons_self)]
      · rw [if_neg own, if_neg (not_or.mpr ⟨Ne.symm own, later⟩ ∘ mem_cons.mp)]

/-! ### Keeping the newest -/

section Newest

variable {createdAt : Value → Nat} {items : List (Key × Value)}

def offer (createdAt : Value → Nat) (entries : List (Key × Value)) (item : Key × Value) :
    List (Key × Value) :=
  match find entries item.1 with
  | none => put entries item.1 item.2
  | some existing =>
      if createdAt existing < createdAt item.2 then put entries item.1 item.2 else entries

def newest (createdAt : Value → Nat) (held : Option Value) (offered : Value) : Value :=
  match held with
  | none => offered
  | some existing => if createdAt existing < createdAt offered then offered else existing

theorem find_offer (createdAt : Value → Nat) (entries : List (Key × Value))
    (item : Key × Value) (key : Key) :
    find (offer createdAt entries item) key =
      if item.1 = key then some (newest createdAt (find entries key) item.2)
      else find entries key := by
  unfold offer newest
  by_cases own : item.1 = key
  · rw [if_pos own, own]
    cases held : find entries key with
    | none => exact (find_put entries key key item.2).trans (if_pos rfl)
    | some existing =>
      dsimp only
      by_cases newer : createdAt existing < createdAt item.2
      · rw [if_pos newer, if_pos newer, find_put, if_pos rfl]
      · rw [if_neg newer, if_neg newer]
        exact held
  · rw [if_neg own]
    cases find entries item.1 with
    | none => exact (find_put entries item.1 key item.2).trans (if_neg own)
    | some existing =>
      dsimp only
      split
      · exact (find_put entries item.1 key item.2).trans (if_neg own)
      · rfl

theorem find_foldl_offer_some (createdAt : Value → Nat) (items : List (Key × Value))
    {first : Value} (held : find entries key = some first) :
    ∃ last, find (items.foldl (offer createdAt) entries) key = some last ∧
      (last = first ∧ (∀ value, (key, value) ∈ items → createdAt value ≤ createdAt first) ∨
        (key, last) ∈ items ∧ createdAt first < createdAt last) := by
  induction items generalizing entries first with
  | nil => exact ⟨first, held, .inl ⟨rfl, nofun⟩⟩
  | cons item rest ih =>
    obtain ⟨itemKey, itemValue⟩ := item
    have offered := find_offer createdAt entries (itemKey, itemValue) key
    by_cases own : itemKey = key
    · rw [if_pos own, held] at offered
      rw [own]
      rw [own] at offered
      unfold newest at offered
      dsimp only at offered
      by_cases newer : createdAt first < createdAt itemValue
      · rw [if_pos newer] at offered
        obtain ⟨last, found, ⟨rfl, -⟩ | ⟨member, later⟩⟩ := ih offered
        · exact ⟨_, found, .inr ⟨mem_cons_self, newer⟩⟩
        · exact ⟨last, found, .inr ⟨mem_cons_of_mem _ member, Nat.lt_trans newer later⟩⟩
      · rw [if_neg newer] at offered
        obtain ⟨last, found, ⟨rfl, oldest⟩ | ⟨member, later⟩⟩ := ih offered
        · refine ⟨last, found, .inl ⟨rfl, fun value member => ?_⟩⟩
          rcases mem_cons.mp member with same | member
          · rw [(Prod.mk.inj same).2]
            exact Nat.le_of_not_lt newer
          · exact oldest value member
        · exact ⟨last, found, .inr ⟨mem_cons_of_mem _ member, later⟩⟩
    · rw [if_neg own] at offered
      obtain ⟨last, found, outcome⟩ := ih (offered.trans held)
      refine ⟨last, found, outcome.imp (And.imp_right fun oldest value member => ?_)
        (And.imp_left (mem_cons_of_mem _))⟩
      exact oldest value ((mem_cons.mp member).resolve_left fun same =>
        own (Prod.mk.inj same).1.symm)

theorem find_foldl_offer_none (createdAt : Value → Nat) (items : List (Key × Value))
    (held : find entries key = none) :
    (find (items.foldl (offer createdAt) entries) key = none ∧ ∀ value, (key, value) ∉ items) ∨
      ∃ last, find (items.foldl (offer createdAt) entries) key = some last ∧
        (key, last) ∈ items := by
  induction items generalizing entries with
  | nil => exact .inl ⟨held, nofun⟩
  | cons item rest ih =>
    obtain ⟨itemKey, itemValue⟩ := item
    have offered := find_offer createdAt entries (itemKey, itemValue) key
    by_cases own : itemKey = key
    · rw [if_pos own, held] at offered
      rw [own]
      rw [own] at offered
      obtain ⟨last, found, ⟨rfl, -⟩ | ⟨member, -⟩⟩ := find_foldl_offer_some createdAt rest offered
      · exact .inr ⟨_, found, mem_cons_self⟩
      · exact .inr ⟨last, found, mem_cons_of_mem _ member⟩
    · rw [if_neg own] at offered
      rcases ih (offered.trans held) with ⟨found, absent⟩ | ⟨last, found, member⟩
      · refine .inl ⟨found, fun value member => ?_⟩
        exact absent value ((mem_cons.mp member).resolve_left fun same =>
        own (Prod.mk.inj same).1.symm)
      · exact .inr ⟨last, found, mem_cons_of_mem _ member⟩

theorem exists_find_foldl_offer {property : Value → Prop}
    (each : ∀ item ∈ items, property item.2) :
    (∃ last, find (items.foldl (offer createdAt) entries) key = some last ∧ property last) ↔
      (find entries key = none ∧ ∃ value, (key, value) ∈ items) ∨
        ∃ first, find entries key = some first ∧
          (property first ∨ ∃ value, (key, value) ∈ items ∧ createdAt first < createdAt value) := by
  cases held : find entries key with
  | none =>
    rcases find_foldl_offer_none createdAt items held with
      ⟨found, absent⟩ | ⟨last, found, member⟩
    · rw [found]
      refine iff_of_false (fun ⟨_, same, _⟩ => Option.some_ne_none _ same.symm) ?_
      rintro (⟨-, value, member⟩ | ⟨first, same, -⟩)
      · exact absent value member
      · cases same
    · exact iff_of_true ⟨last, found, each (key, last) member⟩ (.inl ⟨rfl, last, member⟩)
  | some first =>
    obtain ⟨last, found, outcome⟩ :=
      find_foldl_offer_some createdAt items held
    rw [found]
    constructor
    · rintro ⟨other, same, holds⟩
      rw [← Option.some.inj same] at holds
      refine .inr ⟨first, rfl, ?_⟩
      rcases outcome with ⟨rfl, -⟩ | newer
      · exact .inl holds
      · exact .inr ⟨last, newer⟩
    · rintro (⟨absent, -⟩ | ⟨other, same, holds⟩)
      · cases absent
      · rw [← Option.some.inj same] at holds
        rcases outcome with ⟨rfl, oldest⟩ | ⟨member, -⟩
        · refine ⟨last, rfl, holds.resolve_right ?_⟩
          rintro ⟨value, member, newer⟩
          exact Nat.not_lt_of_le (oldest value member) newer
        · exact ⟨last, rfl, each (key, last) member⟩

end Newest

end Divine.Dictionary
