/-
This file shows what is left of the order in which events that replace each other come.
-/

import Divine.DbClient.Upserts
import Divine.Repositories.Follow

namespace Divine.DbClient

open List Option Repositories Table

variable {rows events : List Event} {event row : Event} {address : Address}

/-! ### The newest version -/

def newest (address : Address) (events : List Event) : Option Event :=
  @List.argmax Event Int Int.instLinearOrder.toPreorder Int.decLt Event.createdAt
    (versions address events)

theorem mem_of_newest (found : newest address events = some row) :
    row ∈ events ∧ row.address = some address :=
  mem_versions.mp (argmax_mem found)

theorem newest_eq_none (missing : newest address events = none) (member : row ∈ events) :
    row.address ≠ some address := by
  intro own
  have empty := argmax_eq_none.mp missing
  exact ne_nil_of_mem (mem_versions.mpr ⟨member, own⟩) empty

theorem newest_append_of_ne (other : event.address ≠ some address) :
    newest address (events ++ [event]) = newest address events := by
  unfold newest versions
  rw [filter_append, filter_singleton, decide_eq_false other]
  exact congrArg _ (append_nil _)

theorem newest_append (events : List Event) (own : event.address = some address) :
    newest address (events ++ [event]) =
      Option.casesOn (newest address events) (some event) fun held =>
        if held.createdAt < event.createdAt then some event else some held := by
  unfold newest versions
  rw [filter_append, filter_singleton, decide_eq_true own]
  exact argmax_concat Event.createdAt event _

/-! ### Upserts one after the other -/

/-- The table has all regular events and at each address the first of the newest. -/
def Settled (rows events : List Event) : Prop :=
  ∀ row, row ∈ rows ↔ row ∈ events ∧ ∀ address ∈ row.address, newest address events = some row

theorem selectOne_replaces (settled : Settled rows events) (own : event.address = some address) :
    selectOne rows event.replaces = newest address events := by
  have replaced : ∀ row, event.replaces row = true ↔ row.address = some address := fun row => by
    rw [← address_eq_some_iff, own]
    exact and_iff_left nofun
  cases selected : selectOne rows event.replaces with
  | some existing =>
    have version := (replaced existing).mp (selectOne_condition selected)
    exact (((settled existing).mp (selectOne_mem selected)).2 address version).symm
  | none =>
    cases found : newest address events with
    | none => rfl
    | some held =>
      obtain ⟨member, version⟩ := mem_of_newest found
      have stored : held ∈ rows := (settled held).mpr ⟨member, fun other same => by
        rw [← Option.some.inj (version.symm.trans same)]
        exact found⟩
      exact absurd ((replaced held).mpr version) (List.find?_eq_none.mp selected held stored)

theorem id_ne_of_keyed (distinct : Keyed Event.id (events ++ [event])) (member : row ∈ events) :
    row.id ≠ event.id := by
  intro same
  have equal := distinct.eq_of_key (mem_append_left _ member)
    (mem_append_right _ mem_cons_self) same
  have nodup := (nodup_append.mp (Nodup.of_map _ distinct)).2.2
  exact nodup row member event mem_cons_self equal

section

variable (settled : Settled rows events)

include settled

theorem settled_eq_newest (member : row ∈ rows)
    (own : row.address = some address) : newest address events = some row :=
  ((settled row).mp member).2 address own

section

variable (distinct : Keyed Event.id (events ++ [event]))

include distinct

theorem settled_insertEvent {kept : List Event}
    (wins : ∀ address ∈ event.address, newest address (events ++ [event]) = some event)
    (mem_kept : ∀ row, row ∈ kept ↔ row ∈ rows ∧ ∀ address ∈ event.address,
      row.address ≠ some address) :
    Settled (insertEvent kept event) (events ++ [event]) := by
  have elsewhere : ∀ row : Event, (∀ address ∈ event.address, row.address ≠ some address) →
      ∀ other ∈ row.address, newest other (events ++ [event]) = newest other events := by
    intro row differs other same
    exact newest_append_of_ne fun own => differs other own same
  intro row
  rw [mem_insertEvent, mem_kept, settled row, mem_append, mem_singleton]
  constructor
  · rintro (⟨⟨⟨member, newest⟩, differs⟩, -⟩ | rfl)
    · refine ⟨.inl member, fun other same => ?_⟩
      rw [elsewhere row differs other same]
      exact newest other same
    · exact ⟨.inr rfl, wins⟩
  · rintro ⟨member | rfl, newest⟩
    · have differs : ∀ address ∈ event.address, row.address ≠ some address := by
        intro address own same
        have equal := Option.some.inj ((wins address own).symm.trans (newest address same))
        exact id_ne_of_keyed distinct member (congrArg Event.id equal.symm)
      refine .inl ⟨⟨⟨member, fun other same => ?_⟩, differs⟩, id_ne_of_keyed distinct member⟩
      rw [← elsewhere row differs other same]
      exact newest other same
    · exact .inr rfl

theorem settled_of_notNewer {existing : Event} (own : event.address = some address)
    (found : newest address events = some existing)
    (notNewer : event.createdAt ≤ existing.createdAt) : Settled rows (events ++ [event]) := by
  have same : ∀ other, newest other (events ++ [event]) = newest other events := by
    intro other
    by_cases equal : other = address
    · rw [equal, newest_append events own, found]
      exact if_neg (Int.not_lt.mpr notNewer)
    · exact newest_append_of_ne fun other => equal (Option.some.inj (other.symm.trans own))
  intro row
  simp only [settled row, mem_append, mem_singleton, same]
  constructor
  · rintro ⟨member, newest⟩
    exact ⟨.inl member, newest⟩
  · rintro ⟨member | rfl, newest⟩
    · exact ⟨member, newest⟩
    · have equal := Option.some.inj (found.symm.trans (newest address own))
      exact absurd (congrArg Event.id equal) (id_ne_of_keyed distinct (mem_of_newest found).1)

theorem settled_upsertEvent :
    Settled (upsertEvent rows event) (events ++ [event]) := by
  unfold upsertEvent
  cases own : event.address with
  | none =>
    have regular : selectOne rows event.replaces = none := List.find?_eq_none.mpr
      fun row _ replaces => (address_eq_some_iff.mpr replaces).2 own
    rw [regular]
    refine settled_insertEvent settled distinct ?_ fun row => ?_
    · rw [own]
      exact fun address same => (some_ne_none address same.symm).elim
    · rw [own]
      exact (and_iff_left fun address same => (some_ne_none address same.symm).elim).symm
  | some address =>
    have appended := newest_append events own
    rw [selectOne_replaces settled own]
    cases found : newest address events with
    | none =>
      rw [found] at appended
      refine settled_insertEvent settled distinct (fun other same => ?_) fun row => ?_
      · rw [← Option.some.inj (own.symm.trans same)]
        exact appended
      · refine (and_iff_left_of_imp fun member other same => ?_).symm
        rw [← Option.some.inj (own.symm.trans same)]
        exact newest_eq_none found ((settled row).mp member).1
    | some existing =>
      rw [found] at appended
      dsimp only at appended ⊢
      split
      · next notNewer => exact settled_of_notNewer settled distinct own found notNewer
      · next newer =>
        rw [if_pos (Int.lt_of_not_ge newer)] at appended
        refine settled_insertEvent settled distinct (fun other same => ?_) fun row => ?_
        · rw [← Option.some.inj (own.symm.trans same)]
          exact appended
        · rw [mem_deleteEvent]
          refine and_congr_right fun member => ⟨fun differs other same version => ?_,
            fun differs same => ?_⟩
          · rw [← Option.some.inj (own.symm.trans same)] at version
            have equal := found.symm.trans (settled_eq_newest settled member version)
            exact differs (congrArg Event.id (Option.some.inj equal).symm)
          · obtain ⟨existingMember, existingOwn⟩ := mem_of_newest found
            have equal := distinct.eq_of_key
              (mem_append_left _ ((settled row).mp member).1)
              (mem_append_left _ existingMember) same
            exact differs address own (equal ▸ existingOwn)

end

end

theorem settled_upsertEvents (distinct : Keyed Event.id events) :
    Settled (upsertEvents [] events) events := by
  unfold upsertEvents
  induction events using reverseRecOn with
  | nil => exact fun row => iff_of_false not_mem_nil fun given => not_mem_nil given.1
  | append_singleton before event ih =>
    rw [foldl_append, foldl_cons, foldl_nil]
    have earlier : Keyed Event.id before :=
      distinct.sublist ((sublist_append_left before [event]).map Event.id)
    exact settled_upsertEvent (ih earlier) distinct

theorem nodup_upsertEvents (events : List Event) : (upsertEvents [] events).Nodup := by
  have keyed : Keyed Event.id (upsertEvents [] events) := by
    refine foldlRecOn events upsertEvent (motive := Keyed Event.id) nodup_nil ?_
    exact fun rows keyed event _ => keyed_upsertEvent keyed
  exact Nodup.of_map _ keyed

/-! ### Contact lists one after the other -/

def processContactListEvents (repository : FollowRepository) (events : List ContactListEvent) :
    FollowRepository :=
  events.foldl FollowRepository.processContactListEvent repository

theorem processContactListEvents_eq {repository : FollowRepository}
    (unknown : repository.currentUserContactListEvent = none) (events : List ContactListEvent) :
    processContactListEvents repository events =
      (events.argmax ContactListEvent.createdAt).elim repository fun event =>
        { repository with
          followingPubkeys := event.followedPubkeys
          currentUserContactListEvent := some event } := by
  unfold processContactListEvents
  induction events using reverseRecOn with
  | nil => rfl
  | append_singleton before event ih =>
    rw [foldl_append, foldl_cons, foldl_nil, ih,
      argmax_concat]
    cases before.argmax ContactListEvent.createdAt with
    | none =>
      have first : repository.isNewer event = true := by
        unfold FollowRepository.isNewer
        rw [unknown]
      exact if_pos first
    | some current =>
      dsimp only
      by_cases newer : current.createdAt < event.createdAt
      · rw [if_pos newer]
        exact if_pos (decide_eq_true newer)
      · rw [if_neg newer]
        exact if_neg (mt of_decide_eq_true newer)

/-! ### Ties -/

def Untied {Item Time : Type*} [LE Time] (createdAt : Item → Time) (items : List Item) : Prop :=
  ∀ first ∈ items, ∀ second ∈ items, (∀ other ∈ items, createdAt other ≤ createdAt first) →
    (∀ other ∈ items, createdAt other ≤ createdAt second) → first = second

theorem untied_of_nodup {Item Time : Type*} [PartialOrder Time] {createdAt : Item → Time}
    {items : List Item} (nodup : (items.map createdAt).Nodup) : Untied createdAt items := by
  intro first firstMember second secondMember firstNewest secondNewest
  have same := le_antisymm (secondNewest first firstMember) (firstNewest second secondMember)
  exact inj_on_of_nodup_map nodup firstMember secondMember same

theorem argmax_eq_of_untied {Item Time : Type*} [LinearOrder Time] {createdAt : Item → Time}
    {items others : List Item} (untied : Untied createdAt items) (perm : items.Perm others) :
    items.argmax createdAt = others.argmax createdAt := by
  cases found : items.argmax createdAt with
  | none =>
    rw [argmax_eq_none] at found
    rw [found] at perm
    rw [perm.symm.eq_nil]
    rfl
  | some item =>
    cases foundOther : others.argmax createdAt with
    | none =>
      rw [argmax_eq_none] at foundOther
      rw [foundOther] at perm
      exact absurd (perm.eq_nil ▸ argmax_mem found) not_mem_nil
    | some other =>
      refine congrArg some (untied item (argmax_mem found) other
        (perm.mem_iff.mpr (argmax_mem foundOther)) (fun next member => ?_)
        fun next member => ?_)
      · exact le_of_mem_argmax member found
      · exact le_of_mem_argmax (perm.mem_iff.mp member) foundOther

/-! ### Any order -/

/-- Whatever the order is, the first of the newest events at each address stays, and is followed. -/
theorem settles_in_any_order {events others : List Event} (distinct : Keyed Event.id events)
    (perm : events.Perm others) {repository : FollowRepository}
    (unknown : repository.currentUserContactListEvent = none)
    {lists otherLists : List ContactListEvent} (permLists : lists.Perm otherLists) :
    (Settled (upsertEvents [] events) events ∧
      ((∀ address, Untied Event.createdAt (versions address events)) →
        (upsertEvents [] events).Perm (upsertEvents [] others))) ∧
    (processContactListEvents repository lists).followingPubkeys =
        ((lists.argmax ContactListEvent.createdAt).map
          ContactListEvent.followedPubkeys).getD repository.followingPubkeys ∧
      (Untied ContactListEvent.createdAt lists →
        (processContactListEvents repository lists).followingPubkeys =
          (processContactListEvents repository otherLists).followingPubkeys) := by
  have settled := settled_upsertEvents distinct
  refine ⟨⟨settled, fun untied => ?_⟩, ?_, fun untied => ?_⟩
  · have distinctOthers : Keyed Event.id others := (perm.map Event.id).nodup_iff.mp distinct
    have same : ∀ address, newest address events = newest address others := fun address =>
      argmax_eq_of_untied (untied address) (perm.filter _)
    refine (perm_ext_iff_of_nodup (nodup_upsertEvents events)
      (nodup_upsertEvents others)).mpr fun row => ?_
    rw [settled row, settled_upsertEvents distinctOthers row, perm.mem_iff]
    simp only [same]
  · rw [processContactListEvents_eq unknown]
    cases lists.argmax ContactListEvent.createdAt with
    | none | some => rfl
  · rw [processContactListEvents_eq unknown, processContactListEvents_eq unknown,
      argmax_eq_of_untied untied permLists]

def unknowing : FollowRepository where
  publicKey := "me"
  followingPubkeys := []
  currentUserContactListEvent := none
  localStorage := none

def contactList (pubkey : String) (createdAt : Nat) : ContactListEvent where
  createdAt := createdAt
  tags := [["p", pubkey]]
  content := ""

theorem settles_two_profiles :
    (upsertEvents [] [profile "1" 1, profile "2" 2]).Perm
        (upsertEvents [] [profile "2" 2, profile "1" 1]) ∧
      (processContactListEvents unknowing [contactList "a" 1, contactList "b" 2]).followingPubkeys =
        (processContactListEvents unknowing
          [contactList "b" 2, contactList "a" 1]).followingPubkeys := by
  have distinct : ([profile "1" 1, profile "2" 2].map Event.id).Nodup := by decide
  have settles := @settles_in_any_order [profile "1" 1, profile "2" 2]
    [profile "2" 2, profile "1" 1] distinct (Perm.swap _ _ _) unknowing rfl
    [contactList "a" 1, contactList "b" 2] [contactList "b" 2, contactList "a" 1]
    (Perm.swap _ _ _)
  refine ⟨settles.1.2 fun address => untied_of_nodup ?_, settles.2.2 (untied_of_nodup ?_)⟩
  · have nodup : ([profile "1" 1, profile "2" 2].map Event.createdAt).Nodup := by decide
    exact nodup.sublist (filter_sublist.map _)
  · decide

/-- Of two profiles or contact lists of one second the one that comes first is kept. -/
theorem order_matters_of_tie :
    ¬(upsertEvents [] [profile "1" 1, profile "2" 1]).Perm
        (upsertEvents [] [profile "2" 1, profile "1" 1]) ∧
      (processContactListEvents unknowing [contactList "a" 1, contactList "b" 1]).followingPubkeys ≠
        (processContactListEvents unknowing
          [contactList "b" 1, contactList "a" 1]).followingPubkeys := by
  decide

end Divine.DbClient
