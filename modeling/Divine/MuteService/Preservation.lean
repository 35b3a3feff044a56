/-
This file proves when a list that is published loses no mute.
-/

import Divine.MuteService.Service
import Divine.Library.Observer

namespace Divine.MuteService

open List Observer Transition

/-! ### Entries -/

/-- What an entry mutes: its kind of tag and its value. -/
abbrev Key := List String

/-- The entries of a list, the encrypted ones among them. -/
def MuteList.entries (list : MuteList) : List Key :=
  ((list.tags.filter fun tag => tag.head? ≠ some "client") ++ list.content.privateTags).map
    fun tag => tag.take 2

def entriesOf (newest : Option MuteList) : List Key := (newest.map MuteList.entries).getD []

def MuteItem.key (item : MuteItem) : Key := [item.type.value, item.value]

def permanent (mutedItems : List MuteItem) : List Key :=
  (mutedItems.filter MuteItem.isPermanent).map MuteItem.key

/-! ### Histories -/

/-- A list that was published, with the newest list before it, and what was removed and added
here. -/
structure Publication where
  list : MuteList
  previous : Option MuteList
  removed : List Key
  added : List Key
  deriving DecidableEq

/-- The entries of the newest list before, without what was removed here, and with what was added.
-/
def Publication.Faithful (publication : Publication) : Prop :=
  ∀ key, key ∈ publication.list.entries ↔
    (key ∈ entriesOf publication.previous ∧ key ∉ publication.removed) ∨ key ∈ publication.added

/-- What was removed and added since the service was made, and what was published. -/
structure History where
  removed : List Key := []
  added : List Key := []
  published : List Publication := []

def History.adds (history : History) (keys : List Key) : History :=
  { history with
    removed := history.removed.filter fun key => key ∉ keys
    added := keys ++ history.added }

def History.marks (history : History) (state : State) : Action → History
  | .create _ _ => { history with removed := [], added := [] }
  | .muteItem type value reason none _ => history.adds [(state.item type value reason none).key]
  | .importMuteList items _ => history.adds (permanent items)
  | .unmuteItem type value _ =>
      let item := state.item type value none none
      if contains state.mutedItems item then
        { history with
          removed := item.key :: history.removed
          added := history.added.filter fun key => key ≠ item.key }
      else history
  | .clearAllMutes _ =>
      { history with removed := entriesOf state.newest ++ history.removed, added := [] }
  | _ => history

def observe : Observe State Action (Option MuteList) History :=
  fun history before action _ published =>
    let marked := history.marks before action
    { marked with
      published := (published.map fun list =>
        ⟨list, before.newest, marked.removed, marked.added⟩).toList ++ history.published }

/-! ### The condition -/

/-- The permanent items are the entries of a list, as they were removed and added here. -/
def Matches (mutedItems : List MuteItem) (newest : Option MuteList) (history : History) : Prop :=
  ∀ key, key ∈ permanent mutedItems ↔
    (key ∈ entriesOf newest ∧ key ∉ history.removed) ∨ key ∈ history.added

def Free (mutedItems : List MuteItem) (item : MuteItem) : Prop :=
  item.isPermanent = true → ∀ other ∈ mutedItems, other.key = item.key → other.isPermanent = true

def ImportFree : List MuteItem → List MuteItem → Prop
  | _, [] => True
  | mutedItems, item :: rest => Free mutedItems item ∧ ImportFree (add mutedItems item) rest

def Condition (seen : State × History) : Action → Prop
  | .create stored newest => ((stored.getD []).map MuteItem.key).Nodup ∧
      (∀ key ∈ permanent (stored.getD []), key ∈ entriesOf newest) ∧
        ∀ key ∈ entriesOf newest, key ∈ permanent (stored.getD [])
  | .muteItem type value reason duration _ =>
      Free seen.1.mutedItems (seen.1.item type value reason duration)
  | .importMuteList items _ => ImportFree seen.1.mutedItems items
  | .otherClient list =>
      (∀ key ∈ permanent seen.1.mutedItems,
        (key ∈ list.entries ∧ key ∉ seen.2.removed) ∨ key ∈ seen.2.added) ∧
      (∀ key ∈ list.entries, key ∉ seen.2.removed → key ∈ permanent seen.1.mutedItems) ∧
      ∀ key ∈ seen.2.added, key ∈ permanent seen.1.mutedItems
  | _ => True

section

instance decidableFree (mutedItems : List MuteItem) (item : MuteItem) :
    Decidable (Free mutedItems item) :=
  inferInstanceAs (Decidable (_ → _))

instance decidableImportFree : ∀ mutedItems items, Decidable (ImportFree mutedItems items)
  | _, [] => instDecidableTrue
  | mutedItems, item :: rest =>
      have := decidableImportFree (add mutedItems item) rest
      inferInstanceAs (Decidable (_ ∧ _))

instance decidableCondition (seen : State × History) (action : Action) :
    Decidable (Condition seen action) := by
  unfold Condition
  split <;> infer_instance

end

/-! ### Items and entries -/

section

variable {mutedItems : List MuteItem} {item other : MuteItem} {key : Key}

theorem value_injective : ∀ first second : MuteType, first.value = second.value →
    first = second := by
  intro first second same
  cases first <;> cases second <;> first | rfl | exact absurd same (by decide)

theorem equals_iff : other.equals item = true ↔ other.key = item.key := by
  unfold MuteItem.equals MuteItem.key
  rw [decide_eq_true_iff]
  constructor
  · rintro ⟨type, value⟩
    rw [type, value]
  · intro same
    obtain ⟨type, rest⟩ := List.cons.inj same
    exact ⟨(value_injective _ _ type).symm, (List.cons.inj rest).1.symm⟩

theorem contains_iff : contains mutedItems item = true ↔
    ∃ other ∈ mutedItems, other.key = item.key := by
  unfold contains
  rw [any_eq_true]
  exact exists_congr fun other => and_congr_right fun _ => equals_iff

theorem mem_permanent : key ∈ permanent mutedItems ↔
    ∃ item ∈ mutedItems, item.isPermanent = true ∧ item.key = key := by
  unfold permanent
  simp only [mem_map, mem_filter, and_assoc]

theorem entries_muteList (mutedItems : List MuteItem) (now : Int) :
    (muteList mutedItems now).entries = permanent mutedItems := by
  have lasting : ((mutedItems.filter fun item => !item.isExpired now).filter
      MuteItem.isPermanent) = mutedItems.filter MuteItem.isPermanent := by
    rw [filter_filter]
    refine filter_congr fun item _ => ?_
    unfold MuteItem.isPermanent MuteItem.isExpired
    cases item.expireAt <;> rfl
  have named (item : MuteItem) : item.toTag.head? ≠ some "client" := by
    show some item.type.value ≠ some "client"
    cases item.type <;> decide
  unfold MuteList.entries muteList permanent
  rw [lasting, filter_cons_of_neg (by decide), filter_eq_self.mpr, Content.privateTags,
    append_nil, map_map]
  · rfl
  · intro tag member
    obtain ⟨item, -, rfl⟩ := mem_map.mp member
    exact decide_eq_true (named item)

theorem mem_permanent_append : key ∈ permanent (mutedItems ++ [item]) ↔
    key ∈ permanent mutedItems ∨ (item.isPermanent = true ∧ item.key = key) := by
  simp only [mem_permanent, mem_append, mem_singleton, or_and_right, exists_or,
    exists_eq_left]

theorem nodup_append (nodup : (mutedItems.map MuteItem.key).Nodup)
    (absent : contains mutedItems item = false) :
    ((mutedItems ++ [item]).map MuteItem.key).Nodup := by
  rw [List.map_append, List.nodup_append]
  refine ⟨nodup, pairwise_singleton _ _, ?_⟩
  rintro first before second last rfl
  obtain ⟨other, member, same⟩ := mem_map.mp before
  rw [contains_iff.mpr ⟨other, member, same.trans (mem_singleton.mp last)⟩] at absent
  cases absent

theorem mem_permanent_add (free : Free mutedItems item) : key ∈ permanent (add mutedItems item) ↔
    key ∈ permanent mutedItems ∨ (item.isPermanent = true ∧ item.key = key) := by
  unfold add
  split
  · rename_i present
    refine ⟨.inl, fun either => either.elim id ?_⟩
    rintro ⟨lasting, rfl⟩
    obtain ⟨other, member, same⟩ := contains_iff.mp present
    exact mem_permanent.mpr ⟨other, member, free lasting other member same, same⟩
  · exact mem_permanent_append

theorem nodup_add (nodup : (mutedItems.map MuteItem.key).Nodup) :
    ((add mutedItems item).map MuteItem.key).Nodup := by
  unfold add
  split
  · exact nodup
  · exact nodup_append nodup (eq_false_of_ne_true ‹_›)

theorem mem_permanent_foldl {items : List MuteItem} (free : ImportFree mutedItems items) :
    key ∈ permanent (items.foldl add mutedItems) ↔
      key ∈ permanent mutedItems ∨ key ∈ permanent items := by
  induction items generalizing mutedItems with
  | nil => exact ⟨.inl, fun either => either.resolve_right not_mem_nil⟩
  | cons item rest ih =>
    have first : key ∈ permanent (item :: rest) ↔
        (item.isPermanent = true ∧ item.key = key) ∨ key ∈ permanent rest := by
      simp only [mem_permanent, mem_cons, or_and_right, exists_or, exists_eq_left]
    rw [foldl_cons, ih free.2, mem_permanent_add free.1, first, or_assoc]

section

variable (nodup : (mutedItems.map MuteItem.key).Nodup)

include nodup

theorem nodup_foldl {items : List MuteItem} :
    ((items.foldl add mutedItems).map MuteItem.key).Nodup := by
  induction items generalizing mutedItems with
  | nil => exact nodup
  | cons item rest ih => exact ih (nodup_add nodup)

theorem mem_remove (other : MuteItem) :
    other ∈ remove mutedItems item ↔ other ∈ mutedItems ∧ other.key ≠ item.key := by
  unfold remove
  induction mutedItems with
  | nil => simp
  | cons head rest ih =>
    obtain ⟨fresh, later⟩ := nodup_cons.mp nodup
    by_cases same : head.equals item = true
    · rw [show ((head :: rest).eraseP fun other => other.equals item) = rest from
        eraseP_cons_of_pos same]
      have own := equals_iff.mp same
      constructor
      · intro member
        refine ⟨mem_cons_of_mem _ member, fun equal => fresh ?_⟩
        exact mem_map.mpr ⟨other, member, equal.trans own.symm⟩
      · rintro ⟨member, differs⟩
        refine (mem_cons.mp member).resolve_left fun isHead => differs ?_
        rw [isHead, own]
    · rw [show ((head :: rest).eraseP fun other => other.equals item) =
        head :: rest.eraseP fun other => other.equals item from eraseP_cons_of_neg same,
        mem_cons, ih later, mem_cons]
      refine ⟨?_, ?_⟩
      · rintro (rfl | ⟨member, differs⟩)
        · exact ⟨.inl rfl, mt equals_iff.mpr same⟩
        · exact ⟨.inr member, differs⟩
      · rintro ⟨rfl | member, differs⟩
        · exact .inl rfl
        · exact .inr ⟨member, differs⟩

theorem mem_permanent_remove :
    key ∈ permanent (remove mutedItems item) ↔ key ∈ permanent mutedItems ∧ key ≠ item.key := by
  simp only [mem_permanent, mem_remove nodup]
  constructor
  · rintro ⟨other, ⟨member, differs⟩, lasting, rfl⟩
    exact ⟨⟨other, member, lasting, rfl⟩, differs⟩
  · rintro ⟨⟨other, member, lasting, rfl⟩, differs⟩
    exact ⟨other, ⟨member, differs⟩, lasting, rfl⟩

theorem nodup_remove :
    ((remove mutedItems item).map MuteItem.key).Nodup :=
  nodup.sublist (eraseP_sublist.map _)

end

end

/-! ### What is kept -/

/-- What is kept by every step that meets the condition. -/
structure Invariant (seen : State × History) : Prop where
  nodup : (seen.1.mutedItems.map MuteItem.key).Nodup
  matching : Matches seen.1.mutedItems seen.1.newest seen.2
  faithful : ∀ publication ∈ seen.2.published, publication.Faithful

section

variable {state : State} {history : History} {mutedItems : List MuteItem}

theorem Matches.adds {keys : List Key} {newest : Option MuteList} {later : List MuteItem}
    (matching : Matches mutedItems newest history)
    (added : ∀ key, key ∈ permanent later ↔ key ∈ permanent mutedItems ∨ key ∈ keys) :
    Matches later newest (history.adds keys) := by
  intro key
  rw [added, matching]
  show _ ↔ (_ ∧ key ∉ history.removed.filter _) ∨ key ∈ keys ++ history.added
  by_cases member : key ∈ keys <;> simp [member]

theorem Invariant.publishes (invariant : Invariant (state, history)) (accepted : Bool)
    (nodup : (mutedItems.map MuteItem.key).Nodup) {marked : History}
    (same : marked.published = history.published)
    (matching : Matches mutedItems state.newest marked) :
    Invariant ((state.publish mutedItems accepted).1, { marked with
      published := ⟨muteList mutedItems state.now, state.newest, marked.removed, marked.added⟩ ::
        marked.published }) := by
  refine ⟨nodup, fun key => ?_, fun publication member => ?_⟩
  · show key ∈ permanent mutedItems ↔ (key ∈ entriesOf (if accepted then
      some (muteList mutedItems state.now) else state.newest) ∧ key ∉ marked.removed) ∨
        key ∈ marked.added
    cases accepted with
    | false => exact matching key
    | true =>
      show _ ↔ (key ∈ (muteList mutedItems state.now).entries ∧ _) ∨ _
      rw [entries_muteList]
      have before := matching key
      tauto
  · rcases mem_cons.mp member with rfl | earlier
    · intro key
      rw [entries_muteList]
      exact matching key
    · exact invariant.faithful publication (same ▸ earlier)

theorem Invariant.step {seen next : State × History} {action : Action} (invariant : Invariant seen)
    (condition : Condition seen action) (stepped : watched step observe seen action = some next) :
    Invariant next := by
  obtain ⟨state, history⟩ := seen
  obtain ⟨after, later⟩ := next
  obtain ⟨published, went, recorded⟩ := watched_eq_some.mp stepped
  obtain rfl : later = observe history state action after published := recorded
  cases action with
  | create stored newest =>
    cases went
    obtain ⟨nodup, listed, stored⟩ := condition
    refine ⟨nodup, fun key => ⟨fun member => .inl ⟨listed key member, not_mem_nil⟩, ?_⟩,
      invariant.faithful⟩
    rintro (⟨member, -⟩ | none)
    · exact stored key member
    · cases none
  | cleanupExpiredMutes =>
    cases went
    refine ⟨invariant.nodup.sublist (filter_sublist.map _),
      fun key => Iff.trans ?_ (invariant.matching key), invariant.faithful⟩
    simp only [mem_permanent, mem_filter]
    refine exists_congr fun item => and_congr_left fun ⟨lasting, _⟩ => and_iff_left ?_
    unfold MuteItem.isExpired
    rw [Option.isNone_iff_eq_none.mp lasting]
    rfl
  | muteItem type value reason duration accepted =>
    change (if contains state.mutedItems _ then some (state, none)
      else some (state.publish _ accepted)) = some (after, published) at went
    have free : Free state.mutedItems (state.item type value reason duration) := condition
    split at went
    · rename_i present
      cases went
      cases duration with
      | some duration => exact ⟨invariant.nodup, invariant.matching, invariant.faithful⟩
      | none =>
        obtain ⟨other, member, same⟩ := contains_iff.mp present
        refine ⟨invariant.nodup, invariant.matching.adds fun key => ?_, invariant.faithful⟩
        refine ⟨.inl, fun either => either.elim id fun added => ?_⟩
        rw [mem_singleton.mp added]
        exact mem_permanent.mpr ⟨other, member, free rfl other member same, same⟩
    · rename_i absent
      have nodup := nodup_append invariant.nodup (eq_false_of_ne_true absent)
      cases went
      cases duration with
      | some duration =>
        refine invariant.publishes accepted nodup rfl fun key =>
          Iff.trans ?_ (invariant.matching key)
        rw [mem_permanent_append]
        exact or_iff_left fun ⟨lasting, _⟩ => by cases lasting
      | none =>
        refine invariant.publishes accepted nodup rfl (invariant.matching.adds fun key => ?_)
        rw [mem_permanent_append, mem_singleton]
        exact or_congr_right ((and_iff_right rfl).trans eq_comm)
  | unmuteItem type value accepted =>
    change (if contains state.mutedItems _ then some (state.publish _ accepted)
      else some (state, none)) = some (after, published) at went
    split at went
    · rename_i present
      cases went
      have marked : history.marks state (.unmuteItem type value accepted) =
          { history with
            removed := (state.item type value none none).key :: history.removed
            added := history.added.filter fun key =>
              key ≠ (state.item type value none none).key } := if_pos present
      unfold observe
      rw [marked]
      refine invariant.publishes accepted (nodup_remove invariant.nodup) rfl fun key => ?_
      have before := invariant.matching key
      rw [mem_permanent_remove invariant.nodup]
      simp only [mem_cons, mem_filter, decide_eq_true_eq]
      tauto
    · rename_i absent
      cases went
      have marked : history.marks state (.unmuteItem type value accepted) = history := if_neg absent
      unfold observe
      rw [marked]
      exact ⟨invariant.nodup, invariant.matching, invariant.faithful⟩
  | importMuteList items accepted =>
    change (if items.foldl add state.mutedItems = state.mutedItems then some (state, none)
      else some (state.publish _ accepted)) = some (after, published) at went
    have free : ImportFree state.mutedItems items := condition
    split at went
    · rename_i same
      cases went
      refine ⟨invariant.nodup, invariant.matching.adds fun key => ?_, invariant.faithful⟩
      rw [← mem_permanent_foldl free, same]
    · cases went
      exact invariant.publishes accepted (nodup_foldl invariant.nodup) rfl
        (invariant.matching.adds fun _ => mem_permanent_foldl free)
  | clearAllMutes accepted =>
    cases went
    refine @Invariant.publishes state history [] invariant accepted nodup_nil
      (history.marks state (.clearAllMutes accepted)) rfl fun key => ?_
    show key ∈ [] ↔ (_ ∧ key ∉ entriesOf state.newest ++ history.removed) ∨ key ∈ []
    simp only [mem_append, not_mem_nil, or_false, false_iff]
    tauto
  | otherClient list =>
    cases went
    obtain ⟨listed, kept, added⟩ := condition
    refine ⟨invariant.nodup, fun key => ⟨listed key, ?_⟩, invariant.faithful⟩
    rintro (⟨member, stays⟩ | isAdded)
    · exact kept key member stays
    · exact added key isAdded
  | elapsed time =>
    cases went
    exact ⟨invariant.nodup, invariant.matching, invariant.faithful⟩

end

/-- Every list that is published is faithful to the newest one. -/
theorem mutes_faithful_of_run {actions : List Action} {final : State × History}
    (meets : Meets (watched step observe) Condition (initialState, {}) actions)
    (ran : run (watched step observe) (initialState, {}) actions = some final) :
    ∀ publication ∈ final.2.published, publication.Faithful := by
  have initial : Invariant (initialState, {}) := by
    refine ⟨nodup_nil, fun key => ⟨nofun, ?_⟩,
      nofun⟩
    rintro (⟨listed, -⟩ | added)
    · cases listed
    · cases added
  exact (invariant_of_meets _ (fun _ _ _ invariant condition stepped =>
    invariant.step condition stepped) initial meets ran).faithful

section

def publishedAfter (actions : List Action) : Option (State × History) :=
  run (watched step observe) (initialState, {}) actions

def bobMuted : MuteList := ⟨[["p", "bob"]], .text ""⟩

/-- The list is the one on the device, where one item is temporary. -/
def mutesAlice : List Action :=
  [.create (some [⟨.user, "bob", none, 0, none⟩, ⟨.keyword, "spoiler", none, 0, some 50⟩])
      (some bobMuted),
    .cleanupExpiredMutes, .muteItem .user "alice" (some "spam") none true, .elapsed 100,
    .muteItem .hashtag "ads" none (some 10) true, .unmuteItem .user "bob" true,
    .importMuteList [⟨.thread, "thread", none, 7, none⟩] false, .clearAllMutes true]

theorem faithful_mutesAlice : ∃ final, publishedAfter mutesAlice = some final ∧
    ∀ publication ∈ final.2.published, publication.Faithful := by
  refine exists_of_isSome (by decide +kernel) fun final ran => ?_
  exact mutes_faithful_of_run (by decide +kernel) ran

theorem not_faithful {publication : Publication} (lost : ∃ key ∈ entriesOf publication.previous,
    key ∉ publication.removed ∧ key ∉ publication.list.entries) : ¬publication.Faithful := by
  obtain ⟨key, before, stays, gone⟩ := lost
  exact fun faithful => gone ((faithful key).mpr (.inl ⟨before, stays⟩))

/-- A user is muted on a device that has no item stored. -/
def mutesOn (newest : MuteList) : Option (State × History) :=
  publishedAfter [.create none (some newest), .muteItem .user "alice" none none true]

def Loses (computed : Option (State × History)) : Prop :=
  ∃ final, computed = some final ∧ ∃ publication ∈ final.2.published, ¬publication.Faithful

theorem loses_of_any {computed : Option (State × History)}
    (found : computed.any (fun final => ∃ publication ∈ final.2.published,
      ∃ key ∈ entriesOf publication.previous,
        key ∉ publication.removed ∧ key ∉ publication.list.entries) = true) : Loses computed := by
  obtain ⟨final, ran, publication, present, lost⟩ := exists_of_any _ found
  exact ⟨final, ran, publication, present, not_faithful lost⟩

/-- Muting one user unmutes another, and drops tags of kinds that the app does not know. -/
theorem loses_mutes : Loses (mutesOn bobMuted) ∧ Loses (mutesOn ⟨[], .encrypted [["p", "bob"]]⟩) ∧
    Loses (mutesOn ⟨[["a", "list"]], .text ""⟩) :=
  ⟨loses_of_any (by decide +kernel), loses_of_any (by decide +kernel),
    loses_of_any (by decide +kernel)⟩

end

end Divine.MuteService
