/-
This file proves when the users who have muted us are those whose newest mute list names
us.
-/

import Divine.NostrSdk.Filter

namespace Divine.ContentBlocklist

open NostrSdk

/-! ### Events -/

/-- An event as users publish it, with tags that are lists of texts. -/
structure Event where
  id : String
  pubkey : String
  createdAt : Int
  kind : Nat
  tags : List (List String)
  content : String
  deriving DecidableEq

def Event.received (event : Event) : Models.Event where
  id := event.id
  pubkey := event.pubkey
  createdAt := event.createdAt
  kind := event.kind
  tags := event.tags.map Models.Tag.list
  content := event.content

def Event.names (event : Event) (pubkey : String) : Bool :=
  event.tags.any fun tag => match tag with
    | first :: value :: _ => first = "p" && value = pubkey
    | _ => false

/-! ### The service -/

structure Service where
  internalBlocklist : List String := []
  runtimeBlocklist : List String := []
  mutualMuteBlocklist : List String := []
  mutualMuteSyncStarted : Bool := false
  ourPubkey : Option String := none

namespace Service

variable (service : Service)

def isBlocked (pubkey : String) : Bool :=
  service.internalBlocklist.contains pubkey || service.runtimeBlocklist.contains pubkey

def shouldFilterFromFeeds (pubkey : String) : Bool :=
  service.internalBlocklist.contains pubkey || service.runtimeBlocklist.contains pubkey ||
    service.mutualMuteBlocklist.contains pubkey

def hasMutedUs (pubkey : String) : Bool := service.mutualMuteBlocklist.contains pubkey

/-- The service, and the filter it subscribes with unless it did before. -/
def syncMuteListsInBackground (ourPubkey : String) : Service × Option Filter :=
  if service.mutualMuteSyncStarted then (service, none)
  else
    ({ service with mutualMuteSyncStarted := true, ourPubkey := some ourPubkey },
      some { kinds := some [10000], p := some [ourPubkey] })

def handleMuteListEvent (event : Event) : Service :=
  if event.kind ≠ 10000 then service
  else if service.ourPubkey.any event.names then
    if service.mutualMuteBlocklist.contains event.pubkey then service
    else { service with mutualMuteBlocklist := service.mutualMuteBlocklist ++ [event.pubkey] }
  else
    { service with
      mutualMuteBlocklist := service.mutualMuteBlocklist.filter fun pubkey =>
        pubkey ≠ event.pubkey }

end Service

/-! ### Relays -/

structure IsNewest (history : List Event) (event : Event) : Prop where
  published : event ∈ history
  list : event.kind = 10000
  newest : ∀ other ∈ history, other.kind = 10000 → other.pubkey = event.pubkey →
    other.createdAt < event.createdAt ∨
      other.createdAt = event.createdAt ∧ event.id ≤ other.id

def NewestNames (history : List Event) (user pubkey : String) : Prop :=
  ∃ event, IsNewest history event ∧ event.pubkey = user ∧ event.names pubkey = true

/-- What relays store of a history: the newest lists, and maybe others that they replace. -/
structure Stores (history stored : List Event) : Prop where
  subset : stored ⊆ history
  newest : ∀ event, IsNewest history event → event ∈ stored

/-- A subscription is sent the available events that its filter accepts, in any order and number. -/
def Delivers (filter : Option Filter) (available delivered : List Event) : Prop :=
  ∀ event, event ∈ delivered ↔
    event ∈ available ∧ filter.any (fun filter => filter.checkEvent event.received) = true

/-! ### What the service knows -/

/-- The users who have muted us are those whose newest list names us, and the feeds are without
them. -/
structure MutualMutes (history : List Event) (ourPubkey : String) (service : Service) : Prop where
  muted : ∀ user, service.hasMutedUs user = true ↔ NewestNames history user ourPubkey
  filtered : ∀ user, service.isBlocked user = false →
    (service.shouldFilterFromFeeds user = true ↔ NewestNames history user ourPubkey)

section Sync

variable {ourPubkey : String} {event : Event} {delivered : List Event} {service : Service}

theorem names_iff : event.names ourPubkey = true ↔ ourPubkey ∈ tagValues event.received "p" := by
  rw [Filter.mem_tagValues]
  unfold Event.names Event.received
  rw [List.any_eq_true]
  constructor
  · rintro ⟨tag, member, isNamed⟩
    split at isNamed
    · rename_i first value rest
      obtain ⟨isP, same⟩ := Bool.and_eq_true_iff.mp isNamed
      obtain rfl := of_decide_eq_true isP
      obtain rfl := of_decide_eq_true same
      exact ⟨rest, List.mem_map_of_mem member⟩
    · cases isNamed
  · rintro ⟨rest, member⟩
    obtain ⟨tag, tagged, same⟩ := List.mem_map.mp member
    obtain rfl := Models.Tag.list.inj same
    exact ⟨_, tagged, Bool.and_eq_true_iff.mpr ⟨decide_eq_true rfl, decide_eq_true rfl⟩⟩

def muteListFilter (ourPubkey : String) : Filter := { kinds := some [10000], p := some [ourPubkey] }

theorem checkEvent_iff : (muteListFilter ourPubkey).checkEvent event.received = true ↔
    event.kind = 10000 ∧ event.names ourPubkey = true := by
  rw [Filter.accepts_iff, names_iff]
  constructor
  · intro accepts
    refine ⟨List.mem_singleton.mp (accepts.kinds [10000] rfl), ?_⟩
    obtain ⟨value, tagged, wanted⟩ := Filter.checkTag_iff.mp
      (accepts.tags ("p", some [ourPubkey]) (List.mem_cons_of_mem _ List.mem_cons_self))
    obtain rfl := List.mem_singleton.mp wanted
    exact tagged
  · rintro ⟨isList, tagged⟩
    refine ⟨nofun, nofun, ?_, nofun, nofun, ?_⟩
    · rintro kinds given
      cases given
      exact List.mem_singleton.mpr isList
    · have given : ∀ field ∈ (muteListFilter ourPubkey).tagFields,
          field.2 = none ∨ field = ("p", some [ourPubkey]) := by
        unfold Filter.tagFields muteListFilter
        simp
      intro field member
      rcases given field member with absent | rfl
      · unfold Filter.checkTag
        rw [absent]
        rfl
      · exact Filter.checkTag_iff.mpr ⟨ourPubkey, tagged, List.mem_singleton.mpr rfl⟩

theorem hasMutedUs_iff {user : String} :
    service.hasMutedUs user = true ↔ user ∈ service.mutualMuteBlocklist := List.contains_iff_mem

theorem handleMuteListEvent_of_names (ours : service.ourPubkey = some ourPubkey)
    (isList : event.kind = 10000) (isNamed : event.names ourPubkey = true) :
    (service.handleMuteListEvent event).ourPubkey = some ourPubkey ∧
      (∀ user, (service.handleMuteListEvent event).hasMutedUs user = true ↔
        service.hasMutedUs user = true ∨ event.pubkey = user) ∧
      (service.handleMuteListEvent event).isBlocked = service.isBlocked := by
  have stillMuted : service.ourPubkey.any event.names = true := by
    rw [ours]
    exact isNamed
  unfold Service.handleMuteListEvent
  rw [if_neg (not_not_intro isList), if_pos stillMuted]
  split
  · rename_i present
    refine ⟨ours, fun user => ⟨.inl, ?_⟩, rfl⟩
    rintro (muted | rfl)
    · exact muted
    · exact present
  · refine ⟨ours, fun user => ?_, rfl⟩
    rw [hasMutedUs_iff, hasMutedUs_iff, List.mem_append, List.mem_singleton]
    exact or_congr_right eq_comm

theorem foldl_handleMuteListEvent (ours : service.ourPubkey = some ourPubkey)
    (naming : ∀ event ∈ delivered, event.kind = 10000 ∧ event.names ourPubkey = true) :
    (∀ user, (delivered.foldl Service.handleMuteListEvent service).hasMutedUs user = true ↔
      service.hasMutedUs user = true ∨ ∃ event ∈ delivered, event.pubkey = user) ∧
      (delivered.foldl Service.handleMuteListEvent service).isBlocked = service.isBlocked := by
  induction delivered generalizing service with
  | nil => exact ⟨fun user => ⟨.inl, fun muted => muted.resolve_right nofun⟩, rfl⟩
  | cons event rest ih =>
    obtain ⟨isList, isNamed⟩ := naming event List.mem_cons_self
    obtain ⟨stillOurs, adds, keeps⟩ := handleMuteListEvent_of_names ours isList isNamed
    obtain ⟨knows, keepsRest⟩ := ih stillOurs fun other member =>
      naming other (List.mem_cons_of_mem event member)
    rw [List.foldl_cons]
    refine ⟨fun user => ?_, keepsRest.trans keeps⟩
    rw [knows, adds, or_assoc]
    simp only [List.mem_cons, exists_eq_or_imp]

end Sync

/-! ### The newest lists -/

section Newest

variable {earlier stored later : List Event} {event : Event}

theorem available_of_isNewest (stores : Stores earlier stored)
    (isNewest : IsNewest (earlier ++ later) event) : event ∈ stored ++ later := by
  rcases List.mem_append.mp isNewest.published with before | after
  · refine List.mem_append_left _ (stores.newest event ⟨before, isNewest.list, ?_⟩)
    exact fun other member => isNewest.newest other (List.mem_append_left _ member)
  · exact List.mem_append_right _ after

end Newest

/-! ### The condition -/

/-- The users who have muted us are those whose newest list names us exactly when no list that names
us is of another user. -/
theorem mutualMutes_iff {ourPubkey : String} {service : Service}
    {earlier stored later delivered : List Event} (fresh : service.mutualMuteBlocklist = [])
    (notStarted : service.mutualMuteSyncStarted = false) (stores : Stores earlier stored)
    (delivers :
      Delivers (service.syncMuteListsInBackground ourPubkey).2 (stored ++ later) delivered) :
    MutualMutes (earlier ++ later) ourPubkey
        (delivered.foldl Service.handleMuteListEvent
          (service.syncMuteListsInBackground ourPubkey).1) ↔
      ∀ event ∈ stored ++ later, event.kind = 10000 → event.names ourPubkey = true →
        NewestNames (earlier ++ later) event.pubkey ourPubkey := by
  have started : service.syncMuteListsInBackground ourPubkey =
      ({ service with mutualMuteSyncStarted := true, ourPubkey := some ourPubkey },
        some (muteListFilter ourPubkey)) := by
    unfold Service.syncMuteListsInBackground
    rw [notStarted]
    rfl
  rw [started] at delivers ⊢
  have arrives : ∀ event, event ∈ delivered ↔
      event ∈ stored ++ later ∧ event.kind = 10000 ∧ event.names ourPubkey = true := fun event => by
    rw [delivers event, ← checkEvent_iff]
    rfl
  obtain ⟨knows, keeps⟩ := @foldl_handleMuteListEvent ourPubkey delivered
    { service with mutualMuteSyncStarted := true, ourPubkey := some ourPubkey } rfl
    fun event member => ((arrives event).mp member).2
  have muted : ∀ user, (delivered.foldl Service.handleMuteListEvent
      { service with mutualMuteSyncStarted := true, ourPubkey := some ourPubkey }).hasMutedUs user =
        true ↔ ∃ event ∈ delivered, event.pubkey = user := fun user => by
    rw [knows, hasMutedUs_iff, fresh]
    exact or_iff_right List.not_mem_nil
  constructor
  · intro mutes event available isList isNamed
    refine (mutes.muted event.pubkey).mp ((muted event.pubkey).mpr ⟨event, ?_, rfl⟩)
    exact (arrives event).mpr ⟨available, isList, isNamed⟩
  · intro condition
    have same : ∀ user, (delivered.foldl Service.handleMuteListEvent
        { service with
          mutualMuteSyncStarted := true, ourPubkey := some ourPubkey }).hasMutedUs user = true ↔
          NewestNames (earlier ++ later) user ourPubkey := fun user => by
      rw [muted]
      constructor
      · rintro ⟨event, member, rfl⟩
        obtain ⟨available, isList, isNamed⟩ := (arrives event).mp member
        exact condition event available isList isNamed
      · rintro ⟨event, isNewest, rfl, isNamed⟩
        exact ⟨event, (arrives event).mpr ⟨available_of_isNewest stores isNewest, isNewest.list,
          isNamed⟩, rfl⟩
    refine ⟨same, fun user notBlocked => ?_⟩
    rw [← same user]
    unfold Service.isBlocked at notBlocked
    unfold Service.shouldFilterFromFeeds
    rw [notBlocked, Bool.false_or]
    rfl

section Examples

def namingList : Event := ⟨"first", "author", 1, 10000, [["p", "us"]], ""⟩

def laterList : Event := ⟨"second", "author", 2, 10000, [["p", "other"]], ""⟩

theorem stores_namingList : Stores [namingList] [namingList] where
  subset := List.Subset.refl _
  newest _ isNewest := isNewest.published

theorem delivers_namingList : Delivers (Service.syncMuteListsInBackground {} "us").2
    ([namingList] ++ [laterList]) [namingList, namingList] := by
  intro event
  constructor
  · intro member
    obtain rfl : event = namingList := by
      rcases List.mem_cons.mp member with own | again
      · exact own
      · exact List.mem_singleton.mp again
    exact ⟨List.mem_cons_self, by decide⟩
  · rintro ⟨available, accepted⟩
    rcases List.mem_cons.mp available with own | other
    · exact own ▸ List.mem_cons_self
    · obtain rfl := List.mem_singleton.mp other
      exact absurd accepted (by decide)

theorem mutualMutes_iff_sample :
    MutualMutes ([namingList] ++ [laterList]) "us"
        ([namingList, namingList].foldl Service.handleMuteListEvent
          (Service.syncMuteListsInBackground {} "us").1) ↔
      ∀ event ∈ [namingList] ++ [laterList], event.kind = 10000 → event.names "us" = true →
        NewestNames ([namingList] ++ [laterList]) event.pubkey "us" :=
  mutualMutes_iff rfl rfl stores_namingList delivers_namingList

/-- A user who removed us later is still taken for one who has muted us. -/
theorem removed_not_mutualMutes :
    Stores [namingList] [namingList] ∧
    Delivers (Service.syncMuteListsInBackground {} "us").2 ([namingList] ++ [laterList])
      [namingList, namingList] ∧
    ¬ MutualMutes ([namingList] ++ [laterList]) "us"
      ([namingList, namingList].foldl Service.handleMuteListEvent
        (Service.syncMuteListsInBackground {} "us").1) := by
  refine ⟨stores_namingList, delivers_namingList, fun mutes => ?_⟩
  obtain ⟨event, isNewest, -, isNamed⟩ := (mutes.muted "author").mp (by decide)
  rcases List.mem_cons.mp isNewest.published with rfl | other
  · rcases isNewest.newest laterList (List.mem_cons_of_mem _ List.mem_cons_self) rfl rfl with
      before | ⟨same, -⟩
    · exact absurd before (by decide)
    · exact absurd same (by decide)
  · obtain rfl := List.mem_singleton.mp other
    exact absurd isNamed (by decide)

end Examples

end Divine.ContentBlocklist
