/-
This file develops the scrolling of a feed whose pages are asked for before a cursor.
-/

import Mathlib.Data.List.MinMax
import Mathlib.Order.Lattice.Nat

namespace Divine.Scrolling

variable {Item : Type*}

/-- A feed: the items with their dates and the times they are sent, and the page before a cursor, if
it can be read. -/
structure Feed (Item : Type*) where
  wanted : List Item
  date : Item → Int
  sentAt : Item → Int
  page : Option Int → Option (List Item)
  page_wanted : ∀ {cursor items item}, page cursor = some items → item ∈ items → item ∈ wanted
  page_before : ∀ {cursor items item}, page (some cursor) = some items → item ∈ items →
    sentAt item ≤ cursor

/-- What is listed, and whether there may be more. -/
structure Scroll (Item : Type*) where
  listed : List Item
  more : Bool

namespace Feed

variable (feed : Feed Item)

def cursor (listed : List Item) : Option Int :=
  (listed.map feed.date).min?.map fun oldest => oldest - 1

/-- One page is put to the list, in some order. -/
structure Extends (before after : Scroll Item) : Prop where
  ended : before.more = false → after = before
  unread : before.more = true → feed.page (feed.cursor before.listed) = none → after = before
  read : before.more = true → ∀ items, feed.page (feed.cursor before.listed) = some items →
    after.more = !items.isEmpty ∧
      ∀ item, item ∈ after.listed ↔ item ∈ before.listed ∨ item ∈ items

def Ends (scroll : Nat → Scroll Item) : Prop :=
  ∃ count, (scroll count).more = false ∧ feed.wanted ⊆ (scroll count).listed

/-- The next page can be read, leaves out nothing after its cursor, and has an item before it, if
one is left. -/
def Advances (listed : List Item) : Prop :=
  ∃ items, feed.page (feed.cursor listed) = some items ∧
    (∀ item ∈ feed.wanted, item ∉ listed → ∀ cursor ∈ feed.cursor listed,
      feed.sentAt item ≤ cursor) ∧
    ((∃ item ∈ items, ∀ cursor ∈ feed.cursor listed, feed.date item ≤ cursor) ∨
      (items = [] ∧ feed.wanted ⊆ listed))

section Cursors

variable {feed} {listed next : List Item} {cursor : Int}

theorem cursor_eq_some_iff : feed.cursor listed = some cursor ↔
    (∃ item ∈ listed, feed.date item = cursor + 1) ∧
      ∀ item ∈ listed, cursor + 1 ≤ feed.date item := by
  unfold Feed.cursor
  rw [Option.map_eq_some_iff]
  constructor
  · rintro ⟨oldest, least, rfl⟩
    obtain ⟨member, below⟩ := List.min?_eq_some_iff.mp least
    obtain ⟨item, inside, rfl⟩ := List.mem_map.mp member
    refine ⟨⟨item, inside, by omega⟩, fun other isListed => ?_⟩
    have bound := below _ (List.mem_map_of_mem isListed)
    omega
  · rintro ⟨⟨item, inside, dated⟩, below⟩
    refine ⟨cursor + 1, List.min?_eq_some_iff.mpr ⟨?_, fun date member => ?_⟩, by omega⟩
    · exact List.mem_map.mpr ⟨item, inside, dated⟩
    · obtain ⟨other, isListed, rfl⟩ := List.mem_map.mp member
      exact below other isListed

theorem cursor_eq_none_iff : feed.cursor listed = none ↔ listed = [] := by
  unfold Feed.cursor
  rw [Option.map_eq_none_iff, List.min?_eq_none_iff, List.map_eq_nil_iff]

theorem exists_cursor_le (held : feed.cursor listed = some cursor) (subset : listed ⊆ next) :
    ∃ earlier ≤ cursor, feed.cursor next = some earlier := by
  obtain ⟨⟨item, member, dated⟩, -⟩ := cursor_eq_some_iff.mp held
  cases found : feed.cursor next with
  | none =>
    rw [cursor_eq_none_iff] at found
    subst found
    exact absurd (subset member) List.not_mem_nil
  | some earlier =>
    have bound := (cursor_eq_some_iff.mp found).2 item (subset member)
    exact ⟨earlier, by omega, rfl⟩

end Cursors

/-! ### Runs -/

section Runs

variable {feed} {scroll : Nat → Scroll Item}
  (extends_ : ∀ count, feed.Extends (scroll count) (scroll (count + 1)))

include extends_

theorem listed_subset (count : Nat) : (scroll count).listed ⊆ (scroll (count + 1)).listed := by
  intro item member
  have step := extends_ count
  cases more : (scroll count).more with
  | false => exact step.ended more ▸ member
  | true =>
    cases found : feed.page (feed.cursor (scroll count).listed) with
    | none => exact step.unread more found ▸ member
    | some items => exact ((step.read more items found).2 item).mpr (.inl member)
variable {first last : Nat}


theorem listed_mono (ordered : first ≤ last) :
    (scroll first).listed ⊆ (scroll last).listed := by
  induction last, ordered using Nat.le_induction with
  | base => exact List.Subset.refl _
  | succ last _ ih =>
    exact fun item member => listed_subset extends_ last (ih member)

theorem eq_of_ended (ended : (scroll first).more = false) (ordered : first ≤ last) :
    scroll last = scroll first := by
  induction last, ordered using Nat.le_induction with
  | base => rfl
  | succ last _ ih =>
    rw [← ih] at ended
    exact ((extends_ last).ended ended).trans ih

theorem lt_of_more (more : (scroll first).more = true) (ended : (scroll last).more = false) :
    first < last := by
  by_contra later
  rw [eq_of_ended extends_ ended (Nat.not_lt.mp later), ended] at more
  cases more

theorem eq_of_unread (more : (scroll first).more = true)
    (unread : feed.page (feed.cursor (scroll first).listed) = none) (ordered : first ≤ last) :
    scroll last = scroll first := by
  induction last, ordered using Nat.le_induction with
  | base => rfl
  | succ last _ ih =>
    have step := (extends_ last).unread
    rw [ih] at step
    exact step more unread

theorem listed_or_before {cursor : Int} (held : feed.cursor (scroll first).listed = some cursor)
    (ordered : first ≤ last) {item : Item} (member : item ∈ (scroll last).listed) :
    item ∈ (scroll first).listed ∨ feed.sentAt item ≤ cursor := by
  induction last, ordered using Nat.le_induction generalizing item with
  | base => exact .inl member
  | succ last ordered ih =>
    have step := extends_ last
    cases more : (scroll last).more with
    | false => exact ih (step.ended more ▸ member)
    | true =>
      cases found : feed.page (feed.cursor (scroll last).listed) with
      | none => exact ih (step.unread more found ▸ member)
      | some items =>
        rcases ((step.read more items found).2 item).mp member with before | inside
        · exact ih before
        · obtain ⟨earlier, bound, isCursor⟩ :=
            exists_cursor_le held (listed_mono extends_ ordered)
          rw [isCursor] at found
          exact .inr ((feed.page_before found inside).trans bound)

theorem more_of_stuck {cursor : Int} {items : List Item} (more : (scroll first).more = true)
    (held : feed.cursor (scroll first).listed = some cursor)
    (found : feed.page (some cursor) = some items) (present : items ≠ [])
    (after : ∀ item ∈ items, cursor < feed.date item) (ordered : first ≤ last) :
    (scroll last).more = true ∧ feed.cursor (scroll last).listed = some cursor := by
  induction last, ordered using Nat.le_induction with
  | base => exact ⟨more, held⟩
  | succ last _ ih =>
    obtain ⟨goesOn, isCursor⟩ := ih
    obtain ⟨moreAfter, members⟩ := (extends_ last).read goesOn items (isCursor ▸ found)
    refine ⟨?_, ?_⟩
    · rw [moreAfter, List.isEmpty_eq_false_iff.mpr present]
      rfl
    · obtain ⟨⟨item, member, dated⟩, below⟩ := cursor_eq_some_iff.mp isCursor
      refine cursor_eq_some_iff.mpr ⟨⟨item, (members item).mpr (.inl member), dated⟩,
        fun other isListed => ?_⟩
      rcases (members other).mp isListed with before | inside
      · exact below other before
      · exact after other inside

theorem advances_of_ends (ends : feed.Ends scroll) {count : Nat}
    (more : (scroll count).more = true) : feed.Advances (scroll count).listed := by
  obtain ⟨last, ended, all⟩ := ends
  have ordered := lt_of_more extends_ more ended
  cases found : feed.page (feed.cursor (scroll count).listed) with
  | none =>
    rw [eq_of_unread extends_ more found ordered.le, more] at ended
    cases ended
  | some items =>
    refine ⟨items, found, fun item isWanted unlisted cursor held => ?_, ?_⟩
    · exact (listed_or_before extends_ held ordered.le (all isWanted)).resolve_left unlisted
    · obtain ⟨moreAfter, members⟩ := (extends_ count).read more items found
      by_cases present : items = []
      · subst present
        refine .inr ⟨rfl, fun item isWanted => ?_⟩
        have isListed := all isWanted
        rw [eq_of_ended extends_ moreAfter ordered] at isListed
        exact ((members item).mp isListed).resolve_right List.not_mem_nil
      · left
        by_contra stuck
        push Not at stuck
        cases held : feed.cursor (scroll count).listed with
        | none =>
          obtain ⟨item, member⟩ := List.exists_mem_of_ne_nil items present
          obtain ⟨cursor, isCursor, -⟩ := stuck item member
          cases held.symm.trans isCursor
        | some cursor =>
          have after : ∀ item ∈ items, cursor < feed.date item := fun item member => by
            obtain ⟨other, isCursor, later⟩ := stuck item member
            cases held.symm.trans isCursor
            exact later
          have goesOn := (more_of_stuck extends_ more held (held ▸ found) present after
            ordered.le).1
          rw [goesOn] at ended
          cases ended

open Classical in
theorem ends_of_advances
    (advances : ∀ count, (scroll count).more = true → feed.Advances (scroll count).listed)
    (more : (scroll 0).more = true) : feed.Ends scroll := by
  suffices ends : ∀ left count, (scroll count).more = true →
      (feed.wanted.toFinset \ (scroll count).listed.toFinset).card = left →
        feed.Ends scroll from ends _ 0 more rfl
  intro left
  induction left using Nat.strongRecOn with
  | ind left ih =>
    intro count more counted
    obtain ⟨items, found, -, older | ⟨rfl, all⟩⟩ := advances count more
    · obtain ⟨item, inside, before⟩ := older
      obtain ⟨moreAfter, members⟩ := (extends_ count).read more items found
      have goesOn : (scroll (count + 1)).more = true := by
        rw [moreAfter, List.isEmpty_eq_false_iff.mpr (List.ne_nil_of_mem inside)]
        rfl
      have unlisted : item ∉ (scroll count).listed := by
        intro isListed
        cases held : feed.cursor (scroll count).listed with
        | none =>
          rw [cursor_eq_none_iff] at held
          rw [held] at isListed
          exact List.not_mem_nil isListed
        | some cursor =>
          have dated := (cursor_eq_some_iff.mp held).2 item isListed
          have bound := before cursor held
          omega
      refine ih _ ?_ (count + 1) goesOn rfl
      rw [← counted]
      refine Finset.card_lt_card (Finset.ssubset_iff_subset_ne.mpr ⟨?_, fun same => ?_⟩)
      · refine Finset.sdiff_subset_sdiff (Finset.Subset.refl _) fun other member => ?_
        rw [List.mem_toFinset] at member ⊢
        exact listed_subset extends_ count member
      · have isLeft : item ∈ feed.wanted.toFinset \ (scroll count).listed.toFinset := by
          rw [Finset.mem_sdiff, List.mem_toFinset, List.mem_toFinset]
          exact ⟨feed.page_wanted found inside, unlisted⟩
        rw [← same, Finset.mem_sdiff, List.mem_toFinset, List.mem_toFinset] at isLeft
        exact isLeft.2 ((members item).mpr (.inr inside))
    · obtain ⟨moreAfter, members⟩ := (extends_ count).read more [] found
      exact ⟨count + 1, moreAfter, fun item isWanted => (members item).mpr (.inl (all isWanted))⟩

theorem ends_iff (more : (scroll 0).more = true) : feed.Ends scroll ↔
    ∀ count, (scroll count).more = true → feed.Advances (scroll count).listed :=
  ⟨fun ends _ => advances_of_ends extends_ ends, fun advances =>
    ends_of_advances extends_ advances more⟩

end Runs

end Feed

end Divine.Scrolling
