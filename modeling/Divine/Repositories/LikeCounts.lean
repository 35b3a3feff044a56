/-
This file embeds the counts of likes, for one event and for several at once.
-/

import Divine.Library.Indexing
import Divine.NostrSdk.DynamicEvent

namespace Divine.Repositories

open List Option Dictionary Indexing LastWins NostrSdk

/-! ### Counting -/

def reactionKind : Nat := 7

abbrev Counts := List (String × Nat)

def filterByE (eventIds : List String) : Filter where
  kinds := some [reactionKind]
  e := some eventIds

def filterByA (addresses : List String) : Filter where
  kinds := some [reactionKind]
  a := some addresses

section

variable (queryEvents : Filter → List DynamicEvent)

def countEvents (filter : Filter) : Nat := (queryEvents filter).length

def getLikeCount (eventId : String) (addressableId : Option String) : Nat :=
  match addressableId.filter fun address => address ≠ "" with
  | some address =>
      max (countEvents queryEvents (filterByE [eventId]))
        (countEvents queryEvents (filterByA [address]))
  | none => countEvents queryEvents (filterByE [eventId])

def increment (counts : Counts) (eventId : Option String) : Counts :=
  match eventId with
  | none => counts
  | some eventId =>
    ((find counts eventId).map fun count => put counts eventId (count + 1)).getD counts

def countTag (name : String) (target : String → Option String) (counts : Counts) :
    DynamicTag → Except DartError Counts
  | .list (.text first :: value :: _) =>
      if first = name then value.asString.map fun text => increment counts (target text)
      else .ok counts
  | _ => .ok counts

def countTags (name : String) (target : String → Option String) (events : List DynamicEvent)
    (counts : Counts) : Except DartError Counts :=
  (events.flatMap DynamicEvent.tags).foldlM (countTag name target) counts

def noLikes (eventIds : List String) : Counts :=
  eventIds.foldl (fun counts eventId => put counts eventId 0) []

/-- `aTagToEventId`. -/
def reverseLookup (addressableIds : List (String × String)) : List (String × String) :=
  addressableIds.foldl (fun lookup entry => put lookup entry.2 entry.1) []

def getLikeCounts (eventIds : List String) (addressableIds : Option (List (String × String))) :
    Except DartError Counts :=
  if eventIds = [] then .ok []
  else do
    let counts ← countTags "e" some (queryEvents (filterByE eventIds)) (noLikes eventIds)
    match addressableIds.filter fun addresses => addresses ≠ [] with
    | none => pure counts
    | some addresses => do
        let countsFromA ← countTags "a" (find (reverseLookup addresses))
          (queryEvents (filterByA (addresses.map Prod.snd))) (noLikes eventIds)
        pure (eventIds.foldl (fun counts eventId =>
          put counts eventId
            (max ((find counts eventId).getD 0) ((find countsFromA eventId).getD 0)))
          counts)

end

/-! ### Reactions and their tags -/

section

variable (stored : List DynamicEvent) (name value : String)

def reactions : List DynamicEvent := stored.filter fun event => event.kind = reactionKind

/-- How many reactions have a tag with the name and the value. -/
def naming : Nat :=
    ((reactions stored).filter fun event => (event.values name).contains value).length

def tagTotal : Nat := ((reactions stored).flatMap fun event => event.values name).count value

def castable (name : String) : DynamicTag → Bool
  | .list (.text first :: .other :: _) => first ≠ name
  | _ => true

end

/-! ### The loops -/

section

variable {name : String} {target : String → Option String} {eventId : String}

def counted (name : String) (target : String → Option String) (counts : Counts) (tag : DynamicTag) :
    Counts :=
  increment counts ((tag.valueOf name).bind target)

theorem countTag_eq (counts : Counts) (tag : DynamicTag) :
    countTag name target counts tag =
      if castable name tag then .ok (counted name target counts tag) else .error .typeError := by
  rcases tag with (_ | ⟨first | _, _ | ⟨value | _, rest⟩⟩) | _
  case list.cons.text.cons.text =>
    rw [countTag, counted, DynamicTag.valueOf]
    by_cases own : first = name
    · rw [if_pos own, if_pos own]
      rfl
    · rw [if_neg own, if_neg own]
      rfl
  case list.cons.text.cons.other =>
    by_cases own : first = name
    · rw [countTag, if_pos own, castable, decide_eq_false (not_not_intro own)]
      rfl
    · rw [countTag, if_neg own, castable, decide_eq_true own]
      rfl
  all_goals rfl

theorem find_increment (counts : Counts) (other : Option String) :
    find (increment counts other) eventId =
      (find counts eventId).map fun count => count + if other = some eventId then 1 else 0 := by
  cases other with
  | none => simp [increment]
  | some other =>
    rw [increment]
    cases found : find counts other with
    | none =>
      by_cases own : other = eventId
      · rw [← own, found]
        exact found
      · simp [own]
    | some count =>
      show find (put counts other (count + 1)) eventId = _
      rw [find_put]
      by_cases own : other = eventId
      · rw [if_pos own, ← own, found, if_pos rfl]
        rfl
      · simp [own]

theorem find_foldl_counted (tags : List DynamicTag) (counts : Counts) :
    find (tags.foldl (counted name target) counts) eventId =
      (find counts eventId).map fun count =>
        count + (tags.filterMap (DynamicTag.valueOf name)).countP fun value =>
          target value = some eventId := by
  induction tags generalizing counts with
  | nil => simp
  | cons tag tags ih =>
    rw [List.foldl_cons, ih, counted, find_increment, Option.map_map]
    refine congrArg (fun add => (find counts eventId).map add) (funext fun count => ?_)
    rw [Function.comp_apply, filterMap_cons]
    cases tag.valueOf name with
    | none => rfl
    | some value =>
      by_cases own : target value = some eventId
      · simp [own, Nat.add_assoc, Nat.add_comm 1]
      · simp [own]

theorem countTags_eq (events : List DynamicEvent) (counts : Counts) :
    countTags name target events counts =
      if (events.flatMap DynamicEvent.tags).all (castable name) then
        .ok ((events.flatMap DynamicEvent.tags).foldl (counted name target) counts)
      else .error .typeError :=
  foldlM_eq_ite countTag_eq _ _

theorem find_counted (events : List DynamicEvent) (counts : Counts) :
    find ((events.flatMap DynamicEvent.tags).foldl (counted name target) counts) eventId =
      (find counts eventId).map fun count =>
        count + (events.flatMap fun event => event.values name).countP fun value =>
          target value = some eventId := by
  rw [find_foldl_counted, filterMap_flatMap]
  rfl

theorem find_noLikes (eventIds : List String) :
    find (noLikes eventIds) eventId = if eventId ∈ eventIds then some 0 else none := by
  have general : ∀ counts : Counts,
      find (eventIds.foldl (fun counts eventId => put counts eventId 0) counts) eventId =
        if eventId ∈ eventIds then some 0 else find counts eventId := by
    induction eventIds with
    | nil => exact fun counts => rfl
    | cons head eventIds ih =>
      intro counts
      rw [foldl_cons, ih, find_put]
      by_cases own : head = eventId
      · rw [if_pos own, own, if_pos mem_cons_self, ite_self]
      · rw [if_neg own]
        simp only [mem_cons, Ne.symm own, false_or]
  exact general []

theorem find_greater (other : Counts) (eventIds : List String) (counts : Counts) :
    find (eventIds.foldl (fun counts eventId =>
      put counts eventId (max ((find counts eventId).getD 0) ((find other eventId).getD 0)))
      counts) eventId =
        if eventId ∈ eventIds then
          some (max ((find counts eventId).getD 0) ((find other eventId).getD 0))
        else find counts eventId := by
  induction eventIds generalizing counts with
  | nil => rfl
  | cons head eventIds ih =>
    rw [foldl_cons, ih, find_put]
    by_cases own : head = eventId
    · rw [if_pos own, own, if_pos mem_cons_self, getD_some, max_assoc, max_self,
        ite_self]
    · rw [if_neg own]
      simp only [mem_cons, Ne.symm own, false_or]

theorem find_reverseLookup (addresses : List (String × String)) (address : String) :
    find (reverseLookup addresses) address =
      (lastItem addresses fun entry => entry.2 = address).map Prod.fst := by
  rw [reverseLookup, find_foldl_put Prod.snd Prod.fst]
  exact or_none

end

/-! ### Answers -/

section

variable {stored : List DynamicEvent} {queryEvents : Filter → List DynamicEvent}
  {name value : String}

theorem checkEvent_filterByE (values : List String) (event : DynamicEvent) :
    (filterByE values).checkEvent event.strict =
      (decide (event.kind = reactionKind) && (event.values "e").any values.contains) := by
  rw [← tagValues_strict]
  simp [Filter.checkEvent, Filter.tagFields, Filter.checkTag, filterByE, DynamicEvent.strict]

theorem checkEvent_filterByA (values : List String) (event : DynamicEvent) :
    (filterByA values).checkEvent event.strict =
      (decide (event.kind = reactionKind) && (event.values "a").any values.contains) := by
  rw [← tagValues_strict]
  simp [Filter.checkEvent, Filter.tagFields, Filter.checkTag, filterByA, DynamicEvent.strict]

def asked (stored : List DynamicEvent) (name : String) (values : List String) : List DynamicEvent :=
  (reactions stored).filter fun event => (event.values name).any values.contains

theorem perm_asked (answered : AnsweredFrom stored queryEvents) (values : List String) :
    (queryEvents (filterByE values)).Perm (asked stored "e" values) ∧
      (queryEvents (filterByA values)).Perm (asked stored "a" values) := by
  have byE := answered (filterByE values) rfl
  have byA := answered (filterByA values) rfl
  simp only [checkEvent_filterByE, checkEvent_filterByA] at byE byA
  rw [asked, asked, reactions, List.filter_filter, List.filter_filter]
  simp only [Bool.and_comm]
  exact ⟨byE, byA⟩

theorem count_asked {values : List String} (member : value ∈ values) :
    ((asked stored name values).flatMap fun event => event.values name).count value =
      tagTotal stored name value := by
  rw [asked, tagTotal]
  induction reactions stored with
  | nil => rfl
  | cons event events ih =>
    rw [flatMap_cons, count_append, filter_cons]
    split
    · rw [flatMap_cons, count_append, ih]
    · rename_i absent
      have none : (event.values name).count value = 0 := by
        refine count_eq_zero.mpr fun inside => absent ?_
        exact any_eq_true.mpr ⟨value, inside, contains_iff_mem.mpr member⟩
      rw [ih, none, Nat.zero_add]

theorem countEvents_eq (answered : AnsweredFrom stored queryEvents) (value : String) :
    countEvents queryEvents (filterByE [value]) = naming stored "e" value ∧
      countEvents queryEvents (filterByA [value]) = naming stored "a" value := by
  obtain ⟨byE, byA⟩ := perm_asked answered [value]
  have one : ∀ name, (asked stored name [value]).length = naming stored name value := by
    intro name
    refine congrArg List.length (filter_congr fun event _ => ?_)
    rw [Bool.eq_iff_iff, List.any_eq_true, List.contains_iff_mem]
    simp
  rw [countEvents, countEvents, byE.length_eq, byA.length_eq, one, one]
  exact ⟨rfl, rfl⟩

theorem naming_le (stored : List DynamicEvent) (name value : String) :
    naming stored name value ≤ tagTotal stored name value := by
  rw [naming, tagTotal]
  induction reactions stored with
  | nil => exact le_rfl
  | cons event events ih =>
    rw [flatMap_cons, count_append, filter_cons]
    split
    · rename_i present
      have some : 0 < (event.values name).count value :=
        count_pos_iff.mpr (contains_iff_mem.mp present)
      rw [length_cons]
      omega
    · exact Nat.le_trans ih (Nat.le_add_left _ _)

end

/-! ### Agreement -/

section

variable (stored : List DynamicEvent) (queryEvents : Filter → List DynamicEvent)
  (eventIds : List String) (addressableIds : Option (List (String × String)))

def LastWith (addresses : List (String × String)) (eventId address : String) : Prop :=
  lastItem addresses (fun entry => entry.2 = address) = some (eventId, address)

instance decidableLastWith (addresses : List (String × String)) (eventId address : String) :
    Decidable (LastWith addresses eventId address) :=
  inferInstanceAs (Decidable (lastItem addresses _ = some (eventId, address)))

def addressOf (eventId : String) : Option String :=
  addressableIds.bind fun addresses => find addresses eventId

/-- The counts at once succeed and have for each event the single count. -/
def CountsAgree : Prop :=
  ∃ counts, getLikeCounts queryEvents eventIds addressableIds = .ok counts ∧
    ∀ eventId ∈ eventIds, find counts eventId =
      some (getLikeCount queryEvents eventId (addressOf addressableIds eventId))

/-- The tags that are read can be cast. -/
structure Readable : Prop where
  ids : ((asked stored "e" eventIds).flatMap DynamicEvent.tags).all (castable "e")
  addresses : eventIds ≠ [] → ∀ addresses ∈ addressableIds,
    ((asked stored "a" (addresses.map Prod.snd)).flatMap DynamicEvent.tags).all (castable "a")

/-- The reactions to an event, by its id or by its address, whichever are more. -/
def likes (eventId : String) : Nat :=
  max (naming stored "e" eventId) (((addressOf addressableIds eventId).filter fun address =>
    address ≠ "").elim 0 (naming stored "a"))

/-- There are no more tags for an event than reactions, nor reactions to an address that two events
have. -/
structure Undivided (eventId : String) : Prop where
  ids : tagTotal stored "e" eventId ≤ likes stored addressableIds eventId
  addresses : ∀ addresses ∈ addressableIds, ∀ address ∈ find addresses eventId,
    LastWith addresses eventId address →
      tagTotal stored "a" address ≤ likes stored addressableIds eventId
  shared : ∀ addresses ∈ addressableIds, ∀ address ∈ find addresses eventId,
    address ≠ "" → ¬LastWith addresses eventId address →
      naming stored "a" address ≤ tagTotal stored "e" eventId

/-- The tags that are counted for an event by way of its address. -/
def ownedTotal (eventId : String) : Nat :=
  addressableIds.elim 0 fun addresses => (find addresses eventId).elim 0 fun address =>
    if LastWith addresses eventId address then tagTotal stored "a" address else 0

variable {stored queryEvents eventIds addressableIds} {addresses : List (String × String)}
  {eventId address : String}

theorem lastWith_iff : find (reverseLookup addresses) address = some eventId ↔
    LastWith addresses eventId address := by
  rw [find_reverseLookup, LastWith]
  constructor
  · intro found
    obtain ⟨entry, last, rfl⟩ := map_eq_some_iff.mp found
    have holds := lastItem_holds last
    have own : entry.2 = address := of_decide_eq_true holds
    rw [last, ← own]
  · intro last
    rw [last]
    rfl

theorem find_of_lastWith (keys : (addresses.map Prod.fst).Nodup)
    (last : LastWith addresses eventId address) : find addresses eventId = some address :=
  find_of_mem keys (lastItem_mem last)

theorem countP_addresses (keys : (addresses.map Prod.fst).Nodup) :
    ((asked stored "a" (addresses.map Prod.snd)).flatMap fun event => event.values "a").countP
        (fun value => find (reverseLookup addresses) value = some eventId) =
      ownedTotal stored (some addresses) eventId := by
  have own : ∀ value, find (reverseLookup addresses) value = some eventId →
      find addresses eventId = some value :=
    fun value found => find_of_lastWith keys (lastWith_iff.mp found)
  show _ = (find addresses eventId).elim 0 fun address =>
    if LastWith addresses eventId address then tagTotal stored "a" address else 0
  cases given : find addresses eventId with
  | none =>
    refine countP_eq_zero.mpr fun value _ found => ?_
    rw [own value (of_decide_eq_true found)] at given
    cases given
  | some address =>
    by_cases last : LastWith addresses eventId address
    · have listed : address ∈ addresses.map Prod.snd :=
        mem_map.mpr ⟨_, mem_of_find given, rfl⟩
      rw [elim_some, if_pos last, ← count_asked listed]
      refine countP_congr fun value _ => ?_
      rw [decide_eq_true_eq, beq_iff_eq]
      constructor
      · intro found
        exact Option.some.inj ((own value found).symm.trans given)
      · rintro rfl
        exact lastWith_iff.mpr last
    · rw [elim_some, if_neg last]
      refine countP_eq_zero.mpr fun value _ found => ?_
      have same := own value (of_decide_eq_true found)
      rw [given] at same
      exact last (Option.some.inj same ▸ lastWith_iff.mp (of_decide_eq_true found))

theorem castable_perm {name : String} {events others : List DynamicEvent}
    (same : events.Perm others) :
    (events.flatMap DynamicEvent.tags).all (castable name) =
      (others.flatMap DynamicEvent.tags).all (castable name) :=
  (same.flatMap_right _).all_eq

section

variable (answered : AnsweredFrom stored queryEvents)

include answered

theorem getLikeCounts_eq (keys : ∀ addresses ∈ addressableIds, (addresses.map Prod.fst).Nodup)
    (readable : Readable stored eventIds addressableIds) :
    ∃ counts, getLikeCounts queryEvents eventIds addressableIds = .ok counts ∧
      ∀ eventId ∈ eventIds, find counts eventId =
        some (max (tagTotal stored "e" eventId) (ownedTotal stored addressableIds eventId)) := by
  by_cases empty : eventIds = []
  · refine ⟨[], if_pos empty, fun eventId member => ?_⟩
    rw [empty] at member
    cases member
  have castE := @castable_perm "e" _ _ (perm_asked answered eventIds).1
  have totals : ∀ eventId ∈ eventIds,
      find (((queryEvents (filterByE eventIds)).flatMap DynamicEvent.tags).foldl (counted "e" some)
        (noLikes eventIds)) eventId = some (tagTotal stored "e" eventId) := by
    intro eventId member
    rw [find_counted, find_noLikes, if_pos member, ← count_asked member,
      (((perm_asked answered eventIds).1.flatMap_right _).countP_eq _),
        map_some, Nat.zero_add]
    refine congrArg some (countP_congr fun value _ => ?_)
    rw [decide_eq_true_eq, Option.some.injEq, beq_iff_eq]
  rw [getLikeCounts, if_neg empty, countTags_eq, castE, if_pos readable.ids]
  cases addressableIds with
  | none =>
    refine ⟨_, rfl, fun eventId member => ?_⟩
    rw [totals eventId member, ownedTotal, elim_none, Nat.max_zero]
  | some addresses =>
    by_cases none : addresses = []
    · subst none
      refine ⟨_, rfl, fun eventId member => ?_⟩
      rw [totals eventId member, ownedTotal, elim_some]
      exact congrArg some (Nat.max_zero _).symm
    · have castA := @castable_perm "a" _ _ (perm_asked answered (addresses.map Prod.snd)).2
      have some : (Option.some addresses).filter (fun addresses => addresses ≠ []) =
        some addresses := by
        simp [filter_some, none]
      have owned : ∀ eventId ∈ eventIds,
          find (((queryEvents (filterByA (addresses.map Prod.snd))).flatMap DynamicEvent.tags).foldl
            (counted "a" (find (reverseLookup addresses))) (noLikes eventIds)) eventId =
              Option.some (ownedTotal stored (Option.some addresses) eventId) := by
        intro eventId member
        rw [find_counted, find_noLikes, if_pos member, ← countP_addresses (keys addresses rfl),
          (((perm_asked answered (addresses.map Prod.snd)).2.flatMap_right _).countP_eq _),
          map_some, Nat.zero_add]
      rw [some]
      simp only [countTags_eq, castA, if_pos (readable.addresses empty addresses rfl)]
      refine ⟨_, rfl, fun eventId member => ?_⟩
      rw [find_greater, if_pos member, totals eventId member, owned eventId member,
        getD_some,
        getD_some]

theorem readable_of_ok {counts : Counts}
    (same : getLikeCounts queryEvents eventIds addressableIds = .ok counts) :
    Readable stored eventIds addressableIds := by
  have castE := @castable_perm "e" _ _ (perm_asked answered eventIds).1
  by_cases empty : eventIds = []
  · refine ⟨?_, fun nonempty => absurd empty nonempty⟩
    have none : asked stored "e" eventIds = [] := by
      rw [empty, asked]
      simp
    rw [none]
    rfl
  rw [getLikeCounts, if_neg empty, countTags_eq, castE] at same
  by_cases ids : ((asked stored "e" eventIds).flatMap DynamicEvent.tags).all (castable "e")
  · refine ⟨ids, fun _ addresses given => ?_⟩
    obtain rfl := given
    rw [if_pos ids] at same
    by_cases none : addresses = []
    · subst none
      have unasked : asked stored "a" (([] : List (String × String)).map Prod.snd) = [] := by
        simp [asked]
      rw [unasked]
      rfl
    · have castA := @castable_perm "a" _ _ (perm_asked answered (addresses.map Prod.snd)).2
      have some : (Option.some addresses).filter (fun addresses => addresses ≠ []) =
        some addresses := by
        simp [filter_some, none]
      rw [some] at same
      simp only [countTags_eq, castA] at same
      by_contra uncast
      rw [if_neg uncast] at same
      cases same
  · rw [if_neg ids] at same
    cases same

theorem getLikeCount_eq (eventId : String) :
    getLikeCount queryEvents eventId (addressOf addressableIds eventId) =
      likes stored addressableIds eventId := by
  rw [getLikeCount, likes]
  cases (addressOf addressableIds eventId).filter fun address => address ≠ "" with
  | none =>
    rw [(countEvents_eq answered eventId).1]
    exact (Nat.max_zero _).symm
  | some address =>
    show max (countEvents queryEvents (filterByE [eventId]))
      (countEvents queryEvents (filterByA [address])) = _
    rw [(countEvents_eq answered eventId).1, (countEvents_eq answered address).2]
    rfl

end

theorem undivided_iff :
    max (tagTotal stored "e" eventId) (ownedTotal stored addressableIds eventId) =
      likes stored addressableIds eventId ↔ Undivided stored addressableIds eventId := by
  have tags := naming_le stored "e" eventId
  have split : Undivided stored addressableIds eventId ↔ tagTotal stored "e" eventId ≤
    likes stored addressableIds eventId ∧
      ∀ addresses ∈ addressableIds, ∀ address ∈ find addresses eventId,
        (LastWith addresses eventId address →
          tagTotal stored "a" address ≤ likes stored addressableIds eventId) ∧
        (address ≠ "" → ¬LastWith addresses eventId address →
          naming stored "a" address ≤ tagTotal stored "e" eventId) := by
    constructor
    · rintro ⟨ids, owned, shared⟩
      exact ⟨ids, fun addresses one address other =>
        ⟨owned addresses one address other, shared addresses one address other⟩⟩
    · rintro ⟨ids, both⟩
      exact ⟨ids, fun addresses one address other => (both addresses one address other).1,
        fun addresses one address other => (both addresses one address other).2⟩
  rw [split, ownedTotal, likes, addressOf]
  cases addressableIds with
  | none =>
    simp only [elim_none, bind_none, filter_none, not_mem_none,
      false_implies, implies_true, and_true]
    omega
  | some addresses =>
    simp only [elim_some, bind_some, mem_def, Option.some.injEq, forall_eq']
    cases find addresses eventId with
    | none =>
      simp only [elim_none, filter_none, reduceCtorEq, false_implies, implies_true,
        and_true]
      omega
    | some address =>
      have named : ((some address).filter fun address => address ≠ "").elim 0 (naming stored "a") =
          if address = "" then 0 else naming stored "a" address := by
        by_cases blank : address = ""
        · rw [blank]
          rfl
        · simp [filter_some, blank]
      have addressTags := naming_le stored "a" address
      simp only [named, elim_some, Option.some.injEq, forall_eq']
      by_cases last : LastWith addresses eventId address
      · simp only [last, if_true, not_true_eq_false, false_implies, implies_true,
          and_true, true_implies]
        split_ifs
        · omega
        · omega
      · by_cases blank : address = ""
        · subst blank
          simp only [last, if_true, if_false, false_implies, ne_eq, not_true_eq_false, and_true]
          omega
        · simp only [last, blank, if_false, false_implies, ne_eq, not_false_eq_true, true_implies,
            true_and]
          omega

/-- The counts agree exactly when the tags can be cast and give the numbers of the reactions. -/
theorem countsAgree_iff (answered : AnsweredFrom stored queryEvents)
    (keys : ∀ addresses ∈ addressableIds, (addresses.map Prod.fst).Nodup) :
    CountsAgree queryEvents eventIds addressableIds ↔
      Readable stored eventIds addressableIds ∧
        ∀ eventId ∈ eventIds, Undivided stored addressableIds eventId := by
  constructor
  · rintro ⟨counts, same, each⟩
    have readable := readable_of_ok answered same
    obtain ⟨others, sameOthers, totals⟩ := getLikeCounts_eq answered keys readable
    obtain rfl := Except.ok.inj (same.symm.trans sameOthers)
    refine ⟨readable, fun eventId member => undivided_iff.mp ?_⟩
    have both := (totals eventId member).symm.trans (each eventId member)
    rw [getLikeCount_eq answered] at both
    exact Option.some.inj both
  · rintro ⟨readable, undivided⟩
    obtain ⟨counts, same, totals⟩ := getLikeCounts_eq answered keys readable
    refine ⟨counts, same, fun eventId member => ?_⟩
    rw [totals eventId member, undivided_iff.mpr (undivided eventId member),
      getLikeCount_eq answered]

end

/-! ### A tag that is repeated -/

def answers (stored : List DynamicEvent) (filter : Filter) : List DynamicEvent :=
  stored.filter fun event => filter.checkEvent event.strict

theorem answeredFrom_answers (stored : List DynamicEvent) : AnsweredFrom stored (answers stored) :=
  fun _ _ => .rfl

def reactionTagged (tags : List DynamicTag) : DynamicEvent where
  id := "reaction"
  pubkey := "fan"
  createdAt := 1
  kind := reactionKind
  tags := tags
  content := "+"

def sampleStored : List DynamicEvent :=
  [reactionTagged [.list [.text "e", .text "video"], .list [.text "a", .text "34236:author:d"]]]

theorem countsAgree_iff_sample :
    CountsAgree (answers sampleStored) ["video"] (some [("video", "34236:author:d")]) ↔
      Readable sampleStored ["video"] (some [("video", "34236:author:d")]) ∧
        ∀ eventId ∈ ["video"],
          Undivided sampleStored (some [("video", "34236:author:d")]) eventId := by
  refine countsAgree_iff (answeredFrom_answers sampleStored) fun addresses given => ?_
  cases given
  decide

/-- A reaction that repeats its tag is one reaction and counts twice. -/
theorem countsAgree_repeated :
    ¬CountsAgree (answers [reactionTagged [.list [.text "e", .text "video"],
      .list [.text "e", .text "video"]]]) ["video"] none := by
  rintro ⟨counts, same, each⟩
  have twice : counts = [("video", 2)] := (Except.ok.inj same).symm
  have once := each "video" (mem_singleton.mpr rfl)
  rw [twice] at once
  revert once
  decide

end Divine.Repositories
