/-
This file settles when the references of curated lists resolve to their own videos.
-/

import Divine.Library.Indexing
import Divine.VideosRepository.AddressableId

namespace Divine.VideosRepository

open Dictionary Indexing LastWins Models Sorting VideoFeedBloc

/-! ### Lists -/

/-- The references with their videos, as both lookups collect them from what was fetched. -/
def videosOfRefs (addressableIds : List String) (byId byAddress : List VideoEvent) :
    List (String × VideoEvent) :=
  byAddress.foldl (fun videos video =>
      match refOfTag addressableIds (video.vineId.getD "") with
      | none => videos
      | some ref => put videos ref video)
    (byId.foldl (fun videos video => put videos video.id video) [])

def idsOf (videoRefs : List String) : List String :=
  videoRefs.filter fun ref => !Models.contains ref ":"

def addressesOf (videoRefs : List String) : List String :=
  videoRefs.filter fun ref => Models.contains ref ":"

def videosForList (videoRefs : List String) (byId byAddress : List VideoEvent) : List VideoEvent :=
  videoRefs.filterMap (find (videosOfRefs (addressesOf videoRefs) byId byAddress))

def getVideosForList (setup : Setup) (source : EventSource) (videoRefs : List String) :
    Option (List VideoEvent) :=
  let eventIds := idsOf videoRefs
  let addressableIds := addressesOf videoRefs
  (if eventIds.isEmpty then some [] else getVideosByIds setup source eventIds).bind fun byId =>
    (if addressableIds.isEmpty then some []
      else getVideosByAddressableIds setup source addressableIds).map fun byAddress =>
        videosForList videoRefs byId byAddress

/-! ### References -/

def addressOfVideo (video : VideoEvent) : AId := ⟨34236, video.pubkey, video.vineId.getD ""⟩

inductive RefersTo : String → VideoEvent → Prop
  | ofId {video : VideoEvent} (plain : Models.contains video.id ":" = false) :
      RefersTo video.id video
  | ofAddress {ref : String} {video : VideoEvent} (colon : Models.contains ref ":" = true)
      (same : AId.fromString ref = some (addressOfVideo video)) : RefersTo ref video

theorem RefersTo.parsed {ref : String} {video : VideoEvent} (refers : RefersTo ref video)
    (colon : Models.contains ref ":" = true) : AId.fromString ref =
      some (addressOfVideo video) := by
  cases refers with
  | ofId plain =>
    rw [plain] at colon
    cases colon
  | ofAddress _ same => exact same

structure FetchedVideos (toLowerCase : String → String) (eventIds : List String)
    (followingVideos : List VideoEvent) where
  byId : List VideoEvent
  byAddress : List VideoEvent
  requested : ∀ video ∈ byId, video.id ∈ eventIds
  identified : ∀ video ∈ followingVideos ++ (byId ++ byAddress),
    ∀ other ∈ followingVideos ++ (byId ++ byAddress),
      toLowerCase video.id = toLowerCase other.id → video = other

def resolve (addressableIds : List String) (byId byAddress : List VideoEvent) (ref : String) :
    Option VideoEvent :=
  if Models.contains ref ":" then
    (AId.fromString ref).bind fun parsed =>
      if refOfTag addressableIds parsed.dTag = some ref then
        lastItem byAddress fun video => video.vineId.getD "" = parsed.dTag
      else none
  else lastItem byId fun video => video.id = ref

/-- The last reference with a `d` tag is the address of the last fetched video with the tag. -/
def OwnAddresses (addressableIds : List String) (byAddress : List VideoEvent) : Prop :=
  ∀ ref ∈ addressableIds, ∀ parsed, AId.fromString ref = some parsed →
    refOfTag addressableIds parsed.dTag = some ref →
      ∀ video, (lastItem byAddress fun video => video.vineId.getD "" = parsed.dTag) = some video →
        addressOfVideo video = parsed

section

variable {addressableIds : List String} {byId byAddress : List VideoEvent} {ref : String}
  {video : VideoEvent}

theorem refOfTag_eq_some {dTag : String} (last : refOfTag addressableIds dTag = some ref) :
    ref ∈ addressableIds ∧ ∃ parsed, AId.fromString ref = some parsed ∧ parsed.dTag = dTag := by
  obtain ⟨listed, tagged⟩ := List.mem_filter.mp (List.mem_of_getLast? last)
  obtain ⟨parsed, read, same⟩ := (Option.any_eq_true _ _).mp tagged
  exact ⟨listed, parsed, read, of_decide_eq_true same⟩

theorem find_videosOfRefs (addressableIds : List String) (byId byAddress : List VideoEvent)
    (ref : String) : find (videosOfRefs addressableIds byId byAddress) ref =
      (lastItem byAddress fun video =>
        refOfTag addressableIds (video.vineId.getD "") = some ref).or
        (lastItem byId fun video => video.id = ref) := by
  have looked := @foldl_field (List (String × VideoEvent)) VideoEvent VideoEvent
    (fun videos video =>
      match refOfTag addressableIds (video.vineId.getD "") with
      | none => videos
      | some ref => put videos ref video)
    (fun videos => find videos ref)
    (fun video => decide (refOfTag addressableIds (video.vineId.getD "") = some ref)) id
    (fun videos video => by
      cases tagged : refOfTag addressableIds (video.vineId.getD "") with
      | none => rfl
      | some other => simp only [find_put, decide_eq_true_eq, Option.some.injEq, id_eq])
    byAddress (byId.foldl (fun videos video => put videos video.id video) [])
  have byIds := @find_index String VideoEvent _ VideoEvent.id byId ref
  rw [videosOfRefs, looked, Option.map_id, ← byIds]
  rfl

/-- A video is put under a reference just when it is the last with the tag of its own. -/
theorem lastItem_refOfTag (ref : String) :
    (lastItem byAddress fun video => refOfTag addressableIds (video.vineId.getD "") = some ref) =
      (AId.fromString ref).bind fun parsed =>
        if refOfTag addressableIds parsed.dTag = some ref then
          lastItem byAddress fun video => video.vineId.getD "" = parsed.dTag
        else none := by
  cases read : AId.fromString ref with
  | none =>
    refine lastItem_eq_none.mpr fun video _ => decide_eq_false fun last => ?_
    obtain ⟨_, parsed, same, _⟩ := refOfTag_eq_some last
    rw [read] at same
    cases same
  | some parsed =>
    have own : ∀ dTag, refOfTag addressableIds dTag = some ref → dTag = parsed.dTag := by
      intro dTag last
      obtain ⟨_, other, same, tagged⟩ := refOfTag_eq_some last
      rw [read, Option.some.injEq] at same
      rw [same, tagged]
    rw [Option.bind_some]
    split_ifs with last
    · refine congrArg _ (funext fun video => decide_eq_decide.mpr ⟨own _, fun same => ?_⟩)
      rw [same]
      exact last
    · refine lastItem_eq_none.mpr fun video _ => decide_eq_false fun put => last ?_
      rw [← own _ put]
      exact put

/-- An address is looked up among the videos that were fetched by address, and an id among the
others. -/
theorem find_eq_resolve (addresses : ∀ ref ∈ addressableIds, Models.contains ref ":" = true)
    (plain : ∀ video ∈ byId, Models.contains video.id ":" = false) (ref : String) :
    find (videosOfRefs addressableIds byId byAddress) ref =
      resolve addressableIds byId byAddress ref := by
  have untagged : ∀ dTag, refOfTag addressableIds dTag = some ref →
    Models.contains ref ":" = true :=
    fun dTag last => addresses ref (refOfTag_eq_some last).1
  rw [find_videosOfRefs, resolve]
  cases colon : Models.contains ref ":" with
  | false =>
    have none : (lastItem byAddress fun video =>
        refOfTag addressableIds (video.vineId.getD "") = some ref) = none := by
      refine lastItem_eq_none.mpr fun video _ => decide_eq_false fun last => ?_
      rw [untagged _ last] at colon
      cases colon
    rw [none, Option.none_or, if_neg Bool.false_ne_true]
  | true =>
    have absent : (lastItem byId fun video => video.id = ref) = none := by
      refine lastItem_eq_none.mpr fun video member => decide_eq_false fun same => ?_
      rw [← same, plain video member] at colon
      cases colon
    rw [absent, Option.or_none, if_pos rfl]
    exact lastItem_refOfTag ref

theorem mem_of_resolve (found : resolve addressableIds byId byAddress ref = some video) :
    video ∈ byId ++ byAddress := by
  unfold resolve at found
  split_ifs at found
  · obtain ⟨parsed, _, last⟩ := Option.bind_eq_some_iff.mp found
    split_ifs at last
    exact List.mem_append_right _ (lastItem_mem last)
  · exact List.mem_append_left _ (lastItem_mem found)

/-- References resolve to their own videos exactly when each address is the last one with its `d`
tag. -/
theorem refersTo_iff_ownAddresses {listed : String → Prop}
    (addressable : ∀ ref, ref ∈ addressableIds ↔ listed ref ∧ Models.contains ref ":" = true) :
    (∀ ref, listed ref → ∀ video, resolve addressableIds byId byAddress ref = some video →
      RefersTo ref video) ↔ OwnAddresses addressableIds byAddress := by
  constructor
  · intro own ref member parsed read last video found
    obtain ⟨isListed, colon⟩ := (addressable ref).mp member
    have resolved : resolve addressableIds byId byAddress ref = some video := by
      rw [resolve, if_pos colon, read, Option.bind_some, if_pos last, found]
    have same := (own ref isListed video resolved).parsed colon
    rw [read] at same
    exact (Option.some.inj same).symm
  · intro own ref isListed video resolved
    cases colon : Models.contains ref ":" with
    | false =>
      rw [resolve, colon, if_neg Bool.false_ne_true] at resolved
      have held := lastItem_holds resolved
      obtain rfl : video.id = ref := of_decide_eq_true held
      exact .ofId colon
    | true =>
      rw [resolve, colon, if_pos rfl] at resolved
      obtain ⟨parsed, read, found⟩ := Option.bind_eq_some_iff.mp resolved
      split_ifs at found with last
      have same := own ref ((addressable ref).mpr ⟨isListed, colon⟩) parsed read last video found
      exact .ofAddress colon (by rw [read, same])

end

/-! ### One list -/

namespace FetchedVideos

variable {toLowerCase : String → String} {eventIds : List String}
  {followingVideos : List VideoEvent}
  (fetched : FetchedVideos toLowerCase eventIds followingVideos)

def videos : List VideoEvent := fetched.byId ++ fetched.byAddress

def lookup (addressableIds : List String) (ref : String) : Option VideoEvent :=
  find (videosOfRefs addressableIds fetched.byId fetched.byAddress) ref

def resolved (addressableIds : List String) (ref : String) : Option VideoEvent :=
  resolve addressableIds fetched.byId fetched.byAddress ref

variable {fetched}

theorem lookup_eq_resolved {addressableIds : List String}
    (addresses : ∀ ref ∈ addressableIds, Models.contains ref ":" = true)
    (plain : ∀ id ∈ eventIds, Models.contains id ":" = false) :
    fetched.lookup addressableIds = fetched.resolved addressableIds :=
  funext (find_eq_resolve addresses fun video member =>
    plain video.id (fetched.requested video member))

end FetchedVideos

section

variable {toLowerCase : String → String}

/-- Every reference has its own video, no video is there twice, and none that was fetched is left
out. -/
structure ListResolves (videoRefs : List String)
    (fetched : FetchedVideos toLowerCase (idsOf videoRefs) []) : Prop where
  own : ∀ ref ∈ videoRefs, ∀ video, fetched.lookup (addressesOf videoRefs) ref = some video →
    RefersTo ref video
  once : (videosForList videoRefs fetched.byId fetched.byAddress).Nodup
  kept : ∀ ref ∈ videoRefs, ∀ video ∈ fetched.videos, RefersTo ref video →
    ∃ other ∈ videosForList videoRefs fetched.byId fetched.byAddress, RefersTo ref other

/-- The addresses do not collide, no two references resolve to one video, and those of fetched
videos are resolved. -/
structure ListSettled (videoRefs : List String)
    (fetched : FetchedVideos toLowerCase (idsOf videoRefs) []) : Prop where
  own : OwnAddresses (addressesOf videoRefs) fetched.byAddress
  once : videoRefs.Pairwise fun ref other => ∀ video,
    fetched.resolved (addressesOf videoRefs) ref = some video →
      fetched.resolved (addressesOf videoRefs) other ≠ some video
  kept : ∀ ref ∈ videoRefs, ∀ video ∈ fetched.videos, RefersTo ref video →
    ∃ listed ∈ videoRefs, ∃ other,
      fetched.resolved (addressesOf videoRefs) listed = some other ∧ RefersTo ref other

theorem nodup_filterMap_iff {Item Value : Type*} {read : Item → Option Value} {items : List Item} :
    (items.filterMap read).Nodup ↔
      items.Pairwise fun item other => ∀ value, read item = some value →
        read other ≠ some value := by
  rw [List.Nodup, List.pairwise_filterMap]
  refine iff_of_eq (congrArg (List.Pairwise · items) (funext₂ fun item other => propext ?_))
  exact ⟨fun apart value found again => apart value found value again rfl,
    fun apart value found twin again same => apart value found (same ▸ again)⟩

theorem listResolves_iff (videoRefs : List String)
    (fetched : FetchedVideos toLowerCase (idsOf videoRefs) []) :
    ListResolves videoRefs fetched ↔ ListSettled videoRefs fetched := by
  have addressable : ∀ ref, ref ∈ addressesOf videoRefs ↔
      ref ∈ videoRefs ∧ Models.contains ref ":" = true := fun ref => List.mem_filter
  have plain : ∀ id ∈ idsOf videoRefs, Models.contains id ":" = false := fun id member =>
    (Bool.not_eq_true' _).mp (List.mem_filter.mp member).2
  have lookup : fetched.lookup (addressesOf videoRefs) = fetched.resolved (addressesOf videoRefs) :=
    FetchedVideos.lookup_eq_resolved (fun ref member => ((addressable ref).mp member).2) plain
  have listed : videosForList videoRefs fetched.byId fetched.byAddress =
      videoRefs.filterMap (fetched.resolved (addressesOf videoRefs)) := by
    rw [← lookup]
    rfl
  have own := @refersTo_iff_ownAddresses _ fetched.byId fetched.byAddress _ addressable
  constructor
  · intro resolves
    refine ⟨own.mp fun ref member video found => ?_,
      nodup_filterMap_iff.mp (listed ▸ resolves.once), ?_⟩
    · exact resolves.own ref member video (by rw [lookup]; exact found)
    · intro ref member video inside refers
      obtain ⟨other, present, same⟩ := resolves.kept ref member video inside refers
      rw [listed] at present
      obtain ⟨source, fromList, found⟩ := List.mem_filterMap.mp present
      exact ⟨source, fromList, other, found, same⟩
  · intro settled
    refine ⟨fun ref member video found => ?_, listed ▸ nodup_filterMap_iff.mpr settled.once, ?_⟩
    · rw [lookup] at found
      exact own.mpr settled.own ref member video found
    · intro ref member video inside refers
      obtain ⟨source, fromList, other, found, same⟩ := settled.kept ref member video inside refers
      rw [listed]
      exact ⟨other, List.mem_filterMap.mpr ⟨source, fromList, found⟩, same⟩

end

/-! ### Merging -/

section

variable {setup : Setup} {toLowerCase : String → String} {found : List (String × VideoEvent)}
  {videoRefs : List (String × List String)} {followingVideos listed : List VideoEvent}
  {video : VideoEvent} {listId : String}

theorem mem_referred : (listId, video) ∈ referred found videoRefs ↔
    ∃ refs, (listId, refs) ∈ videoRefs ∧ ∃ ref ∈ refs, find found ref = some video := by
  unfold referred
  rw [List.mem_flatMap]
  constructor
  · rintro ⟨⟨other, refs⟩, member, refers⟩
    obtain ⟨ref, inside, looked⟩ := List.mem_filterMap.mp refers
    obtain ⟨resolved, has, same⟩ := Option.map_eq_some_iff.mp looked
    cases same
    exact ⟨refs, member, ref, inside, has⟩
  · rintro ⟨refs, member, ref, inside, has⟩
    refine ⟨(listId, refs), member, List.mem_filterMap.mpr ⟨ref, inside, ?_⟩⟩
    rw [has]
    rfl

theorem mem_videoListSources (entries : List (String × VideoEvent)) (sources : Sources)
    (id listId : String) :
    listId ∈ (find (entries.foldl (fun sources entry =>
      put sources entry.2.id ((find sources entry.2.id).getD [] ∪ [entry.1])) sources) id).getD [] ↔
      listId ∈ (find sources id).getD [] ∨ ∃ entry ∈ entries, entry.1 = listId ∧
        entry.2.id = id := by
  induction entries generalizing sources with
  | nil => simp only [List.foldl_nil, List.not_mem_nil, false_and, exists_false, or_false]
  | cons entry rest ih =>
    rw [List.foldl_cons, ih, find_put]
    simp only [List.mem_cons, exists_eq_or_imp]
    by_cases same : entry.2.id = id
    · rw [if_pos same, Option.getD_some, List.mem_union_iff, List.mem_singleton, same, or_assoc]
      simp only [eq_comm, and_true]
    · rw [if_neg same]
      simp only [same, and_false, false_or]

theorem not_mem_of_mem_dedup {seenIds : List String}
    (member : video ∈ dedupByLowerId toLowerCase seenIds listed) :
      toLowerCase video.id ∉ seenIds := by
  induction listed generalizing seenIds with
  | nil => cases member
  | cons first rest ih =>
    rw [dedupByLowerId] at member
    split_ifs at member with seen
    · exact ih member
    · rcases List.mem_cons.mp member with rfl | later
      · exact seen
      · exact fun inside => ih later (List.mem_cons_of_mem _ inside)

theorem nodup_dedupByLowerId (seenIds : List String) (listed : List VideoEvent) :
    (dedupByLowerId toLowerCase seenIds listed).Nodup := by
  induction listed generalizing seenIds with
  | nil => exact List.nodup_nil
  | cons first rest ih =>
    rw [dedupByLowerId]
    split_ifs
    · exact ih seenIds
    · refine List.nodup_cons.mpr ⟨fun again => ?_, ih _⟩
      exact not_mem_of_mem_dedup again List.mem_cons_self

theorem mem_dedupByLowerId_iff {seenIds : List String}
    (identified : ∀ video ∈ listed, ∀ other ∈ listed,
      toLowerCase video.id = toLowerCase other.id → video = other) :
    video ∈ dedupByLowerId toLowerCase seenIds listed ↔
      video ∈ listed ∧ toLowerCase video.id ∉ seenIds := by
  refine ⟨fun member => ⟨mem_dedupByLowerId member, not_mem_of_mem_dedup member⟩, ?_⟩
  rintro ⟨member, unseen⟩
  induction listed generalizing seenIds with
  | nil => cases member
  | cons first rest ih =>
    have later := fun video inside other within =>
      identified video (List.mem_cons_of_mem first inside)
      other (List.mem_cons_of_mem first within)
    rw [dedupByLowerId]
    split_ifs with seen
    · rcases List.mem_cons.mp member with rfl | inside
      · exact absurd seen unseen
      · exact ih later inside unseen
    · by_cases same : toLowerCase video.id = toLowerCase first.id
      · rw [identified video member first List.mem_cons_self same]
        exact List.mem_cons_self
      · have inside := (List.mem_cons.mp member).resolve_left fun equal => same (by rw [equal])
        refine List.mem_cons_of_mem _ (ih later inside ?_)
        exact List.not_mem_cons_of_ne_of_not_mem same unseen

section

variable (identified : ∀ video ∈ followingVideos ++ (referred found videoRefs).map Prod.snd,
  ∀ other ∈ followingVideos ++ (referred found videoRefs).map Prod.snd,
    toLowerCase video.id = toLowerCase other.id → video = other)
include identified

theorem mem_merged :
    video ∈ (mergeListVideos setup toLowerCase followingVideos found videoRefs).videos ↔
    video ∈ followingVideos ∨ ∃ listId, (listId, video) ∈ referred found videoRefs := by
  have listOnly : ∀ {kept : VideoEvent → Bool},
    ∀ video ∈ ((referred found videoRefs).map Prod.snd).filter kept,
      ∀ other ∈ ((referred found videoRefs).map Prod.snd).filter kept,
        toLowerCase video.id = toLowerCase other.id → video = other :=
    fun video inside other within => identified video
      (List.mem_append_right _ (List.mem_of_mem_filter inside)) other
      (List.mem_append_right _ (List.mem_of_mem_filter within))
  have refers : video ∈ (referred found videoRefs).map Prod.snd ↔
      ∃ listId, (listId, video) ∈ referred found videoRefs := by
    rw [List.mem_map]
    constructor
    · rintro ⟨⟨listId, other⟩, member, rfl⟩
      exact ⟨listId, member⟩
    · rintro ⟨listId, member⟩
      exact ⟨(listId, video), member, rfl⟩
  unfold mergeListVideos
  rw [setup.order.mem_sort, List.mem_append, mem_dedupByLowerId_iff listOnly,
    List.mem_filter, ← refers]
  constructor
  · rintro (followed | ⟨⟨referred, _⟩, _⟩)
    · exact .inl followed
    · exact .inr referred
  · rintro (followed | referred)
    · exact .inl followed
    · by_cases known : toLowerCase video.id ∈ followingVideos.map fun video => toLowerCase video.id
      · obtain ⟨other, followed, same⟩ := List.mem_map.mp known
        have equal := identified other (List.mem_append_left _ followed) video
          (List.mem_append_right _ referred) same
        exact .inl (equal ▸ followed)
      · exact .inr ⟨⟨referred, decide_eq_true known⟩, List.not_mem_nil⟩

end

theorem nodup_merged :
    (mergeListVideos setup toLowerCase followingVideos found videoRefs).videos.Nodup ↔
    followingVideos.Nodup := by
  unfold mergeListVideos
  rw [(setup.order.perm _).nodup_iff, List.nodup_append]
  refine ⟨fun nodup => nodup.1, fun nodup => ⟨nodup, nodup_dedupByLowerId [] _, ?_⟩⟩
  intro followed member video inside same
  have apart := (List.mem_filter.mp (mem_dedupByLowerId inside)).2
  exact of_decide_eq_true apart (same ▸ List.mem_map_of_mem member)

end

/-! ### The merged feed -/

section

variable {toLowerCase : String → String} {videoRefs : List (String × List String)}
  {followingVideos : List VideoEvent}

def ListHas (videoRefs : List (String × List String)) (listId : String)
    (property : String → Prop) : Prop :=
  ∃ refs, (listId, refs) ∈ videoRefs ∧ ∃ ref ∈ refs, property ref

section

variable (setup : Setup) (fetched : FetchedVideos toLowerCase (eventRefs videoRefs) followingVideos)

def mergedFeed : HomeFeedResult :=
  mergeListVideos setup toLowerCase followingVideos
    (videosOfRefs (addressableRefs videoRefs) fetched.byId fetched.byAddress) videoRefs

/-- Every reference has its own video, a merged video its lists as sources, no video is there twice,
and no reference is left out. -/
structure FeedResolves : Prop where
  own : ∀ listId ref, ListHas videoRefs listId (· = ref) → ∀ video,
    fetched.lookup (addressableRefs videoRefs) ref = some video → RefersTo ref video
  attributed : ∀ video ∈ (mergedFeed setup fetched).videos, ∀ listId,
    listId ∈ (find (mergedFeed setup fetched).videoListSources video.id).getD [] ↔
      ListHas videoRefs listId (RefersTo · video)
  once : (mergedFeed setup fetched).videos.Nodup
  kept : ∀ listId ref, ListHas videoRefs listId (· = ref) → ∀ video ∈ fetched.videos,
    RefersTo ref video → ∃ other ∈ (mergedFeed setup fetched).videos, RefersTo ref other

/-- A video of a followed author, or one that a reference resolves to. -/
def Merged (video : VideoEvent) : Prop :=
  video ∈ followingVideos ∨
    ∃ listId, ListHas videoRefs listId (fetched.resolved (addressableRefs videoRefs) · = some video)

/-- The addresses do not collide, the followed authors' videos are not repeated, and each reference
of a fetched video refers to a merged one. -/
structure FeedSettled : Prop where
  own : OwnAddresses (addressableRefs videoRefs) fetched.byAddress
  attributed : ∀ video, Merged fetched video → ∀ listId,
    ListHas videoRefs listId (RefersTo · video) →
    ListHas videoRefs listId (fetched.resolved (addressableRefs videoRefs) · = some video)
  once : followingVideos.Nodup
  kept : ∀ listId ref, ListHas videoRefs listId (· = ref) → ∀ video ∈ fetched.videos,
    RefersTo ref video → ∃ other, Merged fetched other ∧ RefersTo ref other

end

variable {setup : Setup} {fetched : FetchedVideos toLowerCase (eventRefs videoRefs) followingVideos}
  {video : VideoEvent} {listId : String}

theorem mem_addressableRefs_iff (ref : String) : ref ∈ addressableRefs videoRefs ↔
    (∃ listId, ListHas videoRefs listId (· = ref)) ∧ Models.contains ref ":" = true := by
  rw [mem_addressableRefs]
  refine and_congr_left fun _ => ⟨?_, ?_⟩
  · rintro ⟨⟨listId, refs⟩, member, inside⟩
    exact ⟨listId, refs, member, ref, inside, rfl⟩
  · rintro ⟨listId, refs, member, _, inside, rfl⟩
    exact ⟨(listId, refs), member, inside⟩

theorem lookup_eq_resolved : fetched.lookup (addressableRefs videoRefs) =
    fetched.resolved (addressableRefs videoRefs) :=
  FetchedVideos.lookup_eq_resolved (fun _ member => (mem_addressableRefs.mp member).2)
    fun _ member => (mem_eventRefs.mp member).2

theorem mem_referred_iff :
    (listId, video) ∈ referred (videosOfRefs (addressableRefs videoRefs) fetched.byId
      fetched.byAddress) videoRefs ↔
      ListHas videoRefs listId (fetched.resolved (addressableRefs videoRefs) · = some video) := by
  rw [mem_referred, ← lookup_eq_resolved]
  rfl

theorem mem_videos_of_resolved
    (has : ListHas videoRefs listId (fetched.resolved (addressableRefs videoRefs) · = some video)) :
    video ∈ followingVideos ++ (fetched.byId ++ fetched.byAddress) := by
  obtain ⟨_, _, _, _, found⟩ := has
  exact List.mem_append_right _ (mem_of_resolve found)

theorem mem_videos_of_merged (merged : Merged fetched video) :
    video ∈ followingVideos ++ (fetched.byId ++ fetched.byAddress) := by
  rcases merged with followed | ⟨_, has⟩
  · exact List.mem_append_left _ followed
  · exact mem_videos_of_resolved has

theorem mem_mergedFeed : video ∈ (mergedFeed setup fetched).videos ↔ Merged fetched video := by
  have within : ∀ video ∈ followingVideos ++ (referred (videosOfRefs (addressableRefs videoRefs)
      fetched.byId fetched.byAddress) videoRefs).map Prod.snd,
      video ∈ followingVideos ++ (fetched.byId ++ fetched.byAddress) := by
    intro video member
    rcases List.mem_append.mp member with followed | referred
    · exact List.mem_append_left _ followed
    · obtain ⟨⟨listId, other⟩, inside, rfl⟩ := List.mem_map.mp referred
      exact mem_videos_of_resolved (mem_referred_iff.mp inside)
  rw [mergedFeed, mem_merged fun video member other inside =>
    fetched.identified video (within video member) other (within other inside)]
  exact or_congr_right (exists_congr fun _ => mem_referred_iff)

theorem mem_sources_mergedFeed (merged : Merged fetched video) :
    listId ∈ (find (mergedFeed setup fetched).videoListSources video.id).getD [] ↔
      ListHas videoRefs listId (fetched.resolved (addressableRefs videoRefs) · = some video) := by
  rw [← mem_referred_iff]
  refine (mem_videoListSources _ [] video.id listId).trans ?_
  constructor
  · rintro (absent | ⟨⟨_, other⟩, member, rfl, same⟩)
    · cases absent
    · have equal :=
        fetched.identified other (mem_videos_of_resolved (mem_referred_iff.mp member)) video
        (mem_videos_of_merged merged) (congrArg toLowerCase same)
      exact equal ▸ member
  · exact fun member => .inr ⟨(listId, video), member, rfl, rfl⟩

theorem feedResolves_iff : FeedResolves setup fetched ↔ FeedSettled fetched := by
  have own := @refersTo_iff_ownAddresses _ fetched.byId fetched.byAddress _
    (@mem_addressableRefs_iff videoRefs)
  constructor
  · intro resolves
    refine ⟨own.mp fun ref ⟨listId, has⟩ video found => ?_, fun video merged listId has => ?_,
      nodup_merged.mp resolves.once, fun listId ref has video inside refers => ?_⟩
    · exact resolves.own listId ref has video (by rw [lookup_eq_resolved]; exact found)
    · have sources := (resolves.attributed video (mem_mergedFeed.mpr merged) listId).mpr has
      exact (mem_sources_mergedFeed merged).mp sources
    · obtain ⟨other, member, same⟩ := resolves.kept listId ref has video inside refers
      exact ⟨other, mem_mergedFeed.mp member, same⟩
  · intro settled
    refine ⟨fun listId ref has video found => ?_, fun video member listId => ?_,
      nodup_merged.mpr settled.once, fun listId ref has video inside refers => ?_⟩
    · rw [lookup_eq_resolved] at found
      exact own.mpr settled.own ref ⟨listId, has⟩ video found
    · have merged := mem_mergedFeed.mp member
      rw [mem_sources_mergedFeed merged]
      refine ⟨?_, settled.attributed video merged listId⟩
      rintro ⟨refs, listed, ref, inside, found⟩
      have isListed : ∃ listId, ListHas videoRefs listId (· = ref) :=
        ⟨listId, refs, listed, ref, inside, rfl⟩
      exact ⟨refs, listed, ref, inside, own.mpr settled.own ref isListed video found⟩
    · obtain ⟨other, merged, same⟩ := settled.kept listId ref has video inside refers
      exact ⟨other, mem_mergedFeed.mpr merged, same⟩

end

/-! ### References of curated lists -/

/-- References resolve to their own videos exactly when they do not collide. -/
theorem referencesResolve_iff (setup : Setup) (toLowerCase : String → String)
    (listRefs : List String)
    (fetchedForList : FetchedVideos toLowerCase (idsOf listRefs) [])
    (videoRefs : List (String × List String)) (followingVideos : List VideoEvent)
    (fetchedForFeed : FetchedVideos toLowerCase (eventRefs videoRefs) followingVideos) :
    (ListResolves listRefs fetchedForList ↔ ListSettled listRefs fetchedForList) ∧
      (FeedResolves setup fetchedForFeed ↔ FeedSettled fetchedForFeed) :=
  ⟨listResolves_iff listRefs fetchedForList, feedResolves_iff⟩

/-- A video with one `d` tag, of an author. -/
def videoBy (id pubkey : String) : VideoEvent where
  id := id
  pubkey := pubkey
  createdAt := 0
  content := ""
  timestamp := ⟨0, epoch_inRange⟩
  vineId := some "v"

def sameTag : List String := ["34236:first:v", "34236:second:v"]

def bothFetched (eventIds : List String) : FetchedVideos String.toLower eventIds [] where
  byId := []
  byAddress := [videoBy "a" "first", videoBy "b" "second"]
  requested := fun _ absent => absurd absent List.not_mem_nil
  identified := by decide +kernel

def oneFetched : FetchedVideos String.toLower (idsOf ["a", "a"]) [] where
  byId := [videoBy "a" "first"]
  byAddress := []
  requested := by decide +kernel
  identified := by decide +kernel

/-- Of two authors with one tag, one video is left out, and a repeated reference repeats the video.
-/
theorem referencesResolve_fails :
    ¬ListResolves sameTag (bothFetched (idsOf sameTag)) ∧
      ¬FeedResolves sampleSetup (bothFetched (eventRefs [("list", sameTag)])) ∧
      ¬ListResolves ["a", "a"] oneFetched := by
  have refers : RefersTo "34236:first:v" (videoBy "a" "first") :=
    .ofAddress (by decide +kernel) (by decide +kernel)
  have other : ¬RefersTo "34236:first:v" (videoBy "b" "second") := fun refers =>
    absurd (refers.parsed (by decide +kernel)) (by decide +kernel)
  refine ⟨fun resolves => ?_, fun resolves => ?_, fun resolves => ?_⟩
  · obtain ⟨video, member, same⟩ := resolves.kept "34236:first:v" List.mem_cons_self
      (videoBy "a" "first") List.mem_cons_self refers
    have only : videosForList sameTag [] [videoBy "a" "first", videoBy "b" "second"] =
        [videoBy "b" "second"] := by decide +kernel
    have inside : video ∈ videosForList sameTag [] [videoBy "a" "first", videoBy "b" "second"] :=
      member
    rw [only, List.mem_singleton] at inside
    exact other (inside ▸ same)
  · obtain ⟨video, member, same⟩ := resolves.kept "list" "34236:first:v"
      ⟨sameTag, List.mem_cons_self, _, List.mem_cons_self, rfl⟩
      (videoBy "a" "first") List.mem_cons_self refers
    have only : (mergedFeed sampleSetup (bothFetched (eventRefs [("list", sameTag)]))).videos =
        [videoBy "b" "second"] := by decide +kernel
    rw [only, List.mem_singleton] at member
    exact other (member ▸ same)
  · have twice : videosForList ["a", "a"] [videoBy "a" "first"] [] =
        [videoBy "a" "first", videoBy "a" "first"] := by decide +kernel
    have once : (videosForList ["a", "a"] [videoBy "a" "first"] []).Nodup := resolves.once
    rw [twice, List.nodup_cons] at once
    exact once.1 List.mem_cons_self

end Divine.VideosRepository
