/-
This file proves when paging through a changing list of likes skips nothing.
-/

import Divine.ProfileLikedVideos.Bloc
import Divine.Library.Observer

namespace Divine.ProfileLikedVideos

open List Interleaving Observer Transition

/-! ### Histories -/

/-- What was told and asked for: the last list, the ids requested, whether there was a first page,
and the ids liked ever since. -/
structure History where
  emitted : Option (List String) := none
  requested : List String := []
  loaded : Bool := false
  continuous : List String := []

def stillLiked (continuous : List String) : Action → List String
  | .emitted newIds => continuous.filter fun id => newIds.contains id
  | _ => continuous

def lastEmitted (emitted : Option (List String)) : Action → Option (List String)
  | .emitted newIds => some newIds
  | _ => emitted

def observe : Observe Bloc Action Effect History := fun history _ action after effect =>
  { emitted := lastEmitted history.emitted action
    requested := history.requested ++ effect.requested
    loaded := history.loaded || effect.firstPage
    continuous :=
      if effect.firstPage then after.state.likedEventIds
      else stillLiked history.continuous action }

def next (seen : Bloc × History) (action : Action) : Bloc × History :=
  (watched step observe seen action).getD seen

/-- More is requested, and the load that may begin ends. -/
def loadsMore (seen : Bloc × History) (resolves : String → Bool) : Bloc × History :=
  next (next seen .loadMoreRequested) (.answer 0 (.videos resolves))

/-- Whenever no load is in progress: what was liked ever since and lies before the offset was
requested, and all videos that are shown are liked. -/
structure Paged (seen : Bloc × History) : Prop where
  requested : ∀ id ∈ seen.1.state.likedEventIds.take seen.1.state.nextPageOffset,
    id ∈ seen.2.continuous → id ∈ seen.2.requested
  listed : ∀ emitted ∈ seen.2.emitted, seen.1.state.likedEventIds = emitted
  shown : ∀ video ∈ seen.1.state.videos, ∀ emitted ∈ seen.2.emitted, video ∈ emitted

def Complete (seen : Bloc × History) : Prop :=
  ∃ bound, ∀ answers : List (String → Bool), bound ≤ answers.length →
    ∀ id ∈ seen.1.state.likedEventIds, id ∈ (answers.foldl loadsMore seen).2.requested

/-! ### The condition -/

def Call.isSync : Call → Bool
  | .syncing | .fetchingFirst _ => true
  | _ => false

def Call.isLoad : Call → Bool
  | .loadingMore _ _ _ => true
  | _ => false

def InSync (calls : List Call) : Prop := ∃ call ∈ calls, call.isSync = true

/-- The ids before an offset were requested: all, or those liked ever since the first page. -/
def Placed (everyId : Bool) (history : History) (ids : List String) (offset : Nat) : Prop :=
  ∀ id ∈ ids.take offset, everyId = true ∨ id ∈ history.continuous → id ∈ history.requested

/-- A list of the subscription only gets shorter or longer, what gets before the offset was
requested, and a longer one keeps what is shown. -/
def ListCondition (everyId : Bool) (seen : Bloc × History) (newIds : List String) : Prop :=
  let state := seen.1.state
  newIds = state.likedEventIds ∨
    (newIds.length < state.likedEventIds.length ∧
      Placed everyId seen.2 newIds state.nextPageOffset) ∨
    (state.likedEventIds.length < newIds.length ∧
      Placed everyId seen.2 newIds
        (state.nextPageOffset + (newIds.length - state.likedEventIds.length)) ∧
      ∀ video ∈ state.videos, video ∈ newIds)

/-- The condition of a page: the ids before its end were requested, there are more only when it says
so, and its videos are liked. -/
def PageCondition (everyId : Bool) (seen : Bloc × History) (pageEnd totalCount : Nat)
    (videos : List String) : Prop :=
  Placed everyId seen.2 seen.1.state.likedEventIds pageEnd ∧
    (totalCount ≤ pageEnd → seen.1.state.likedEventIds.length ≤ pageEnd) ∧
    ∀ video ∈ videos, video ∈ seen.1.state.likedEventIds

/-- The condition of an answer. A sync that follows a first page does not fail. -/
def CallCondition (everyId : Bool) (seen : Bloc × History) (index : Nat) : Call → Reply → Prop
  | .fetchingFirst ids, .videos resolves => InSync (seen.1.calls.eraseIdx index) ∨
      (PageCondition true seen (page ids 0).length ids.length ((page ids 0).filter resolves) ∧
        ∀ emitted ∈ seen.2.emitted, seen.1.state.likedEventIds = emitted)
  | .syncing, .ids ids => InSync (seen.1.calls.eraseIdx index) ∨
      (ids = [] → ∀ emitted ∈ seen.2.emitted, emitted = [])
  | .loadingMore offset totalCount nextPageIds, .videos resolves =>
      seen.2.loaded = true → ¬InSync seen.1.calls →
        PageCondition everyId seen (offset + nextPageIds.length) totalCount
          (nextPageIds.filter resolves)
  | .loadingMore _ _ _, .failed _ => True
  | _, .failed _ => seen.2.loaded = false ∨ InSync (seen.1.calls.eraseIdx index)
  | _, _ => True

def Condition (everyId : Bool) (seen : Bloc × History) : Action → Prop
  | .emitted newIds => seen.2.loaded = true → ¬InSync seen.1.calls →
      ListCondition everyId seen newIds
  | .answer index reply => ∀ call, seen.1.calls[index]? = some call →
      CallCondition everyId seen index call reply
  | _ => True

section Decidability

instance decidablePaged (seen : Bloc × History) : Decidable (Paged seen) :=
  decidable_of_iff
    ((∀ id ∈ seen.1.state.likedEventIds.take seen.1.state.nextPageOffset,
        id ∈ seen.2.continuous → id ∈ seen.2.requested) ∧
      (∀ emitted ∈ seen.2.emitted, seen.1.state.likedEventIds = emitted) ∧
      ∀ video ∈ seen.1.state.videos, ∀ emitted ∈ seen.2.emitted, video ∈ emitted)
    ⟨fun ⟨requested, listed, shown⟩ => ⟨requested, listed, shown⟩,
      fun ⟨requested, listed, shown⟩ => ⟨requested, listed, shown⟩⟩

instance decidableInSync (calls : List Call) : Decidable (InSync calls) :=
  inferInstanceAs (Decidable (∃ call ∈ calls, call.isSync = true))

instance decidablePlaced (everyId : Bool) (history : History) (ids : List String) (offset : Nat) :
    Decidable (Placed everyId history ids offset) :=
  inferInstanceAs (Decidable (∀ id ∈ ids.take offset, _ → _))

instance decidableListCondition (everyId : Bool) (seen : Bloc × History) (newIds : List String) :
    Decidable (ListCondition everyId seen newIds) :=
  inferInstanceAs (Decidable (_ ∨ _))

instance decidablePageCondition (everyId : Bool) (seen : Bloc × History) (pageEnd totalCount : Nat)
    (videos : List String) : Decidable (PageCondition everyId seen pageEnd totalCount videos) :=
  inferInstanceAs (Decidable (_ ∧ _))

instance decidableCallCondition (everyId : Bool) (seen : Bloc × History) (index : Nat) (call : Call)
    (reply : Reply) : Decidable (CallCondition everyId seen index call reply) := by
  unfold CallCondition
  split <;> infer_instance

instance decidableCondition (everyId : Bool) (seen : Bloc × History) (action : Action) :
    Decidable (Condition everyId seen action) := by
  unfold Condition
  split <;> infer_instance

end Decidability

/-! ### What is kept -/

/-- What holds once a first page was loaded, while no sync is in progress. -/
structure Settled (everyId : Bool) (seen : Bloc × History) : Prop where
  status : seen.1.state.status = .success
  placed : Placed everyId seen.2 seen.1.state.likedEventIds seen.1.state.nextPageOffset
  more : seen.1.state.hasMoreContent = false →
    seen.1.state.likedEventIds.length ≤ seen.1.state.nextPageOffset
  shown : ∀ video ∈ seen.1.state.videos, video ∈ seen.1.state.likedEventIds
  listed : ∀ emitted ∈ seen.2.emitted, seen.1.state.likedEventIds = emitted

structure Invariant (everyId : Bool) (seen : Bloc × History) : Prop where
  loading : seen.1.state.isLoadingMore = true → ∃ call ∈ seen.1.calls, call.isLoad = true
  settled : seen.2.loaded = true → ¬InSync seen.1.calls → Settled everyId seen

section Kept

variable {everyId : Bool} {bloc : Bloc} {history : History} {state : ProfileLikedVideosState}
  {index : Nat} {call : Call}
variable {later : History}


theorem placed_mono {ids : List String} {offset : Nat} (placed : Placed everyId history ids offset)
    (continuous : ∀ id ∈ later.continuous, id ∈ history.continuous)
    (requested : ∀ id ∈ history.requested, id ∈ later.requested) :
    Placed everyId later ids offset :=
  fun id member owed => requested id (placed id member (owed.imp_right (continuous id)))

theorem inSync_append {added : Call} (rests : added.isSync = false) :
    InSync (bloc.calls ++ [added]) ↔ InSync bloc.calls := by
  constructor
  · rintro ⟨other, member, syncs⟩
    rcases mem_append.mp member with before | last
    · exact ⟨other, before, syncs⟩
    · rw [mem_singleton.mp last, rests] at syncs
      cases syncs
  · rintro ⟨other, member, syncs⟩
    exact ⟨other, mem_append_left _ member, syncs⟩

theorem inSync_eraseIdx (present : bloc.calls[index]? = some call) (rests : call.isSync = false) :
    InSync (bloc.calls.eraseIdx index) ↔ InSync bloc.calls := by
  constructor
  · rintro ⟨other, member, syncs⟩
    exact ⟨other, mem_of_mem_eraseIdx member, syncs⟩
  · rintro ⟨other, member, syncs⟩
    rcases mem_proceed_of_mem member index none with same | kept
    · rw [present] at same
      rw [← Option.some.inj same, rests] at syncs
      cases syncs
    · exact ⟨other, kept, syncs⟩

theorem loads_proceed (present : bloc.calls[index]? = some call) (rests : call.isLoad = false)
    (stage : Option Call) (loads : ∃ call ∈ bloc.calls, call.isLoad = true) :
    ∃ call ∈ proceed bloc.calls index stage, call.isLoad = true := by
  obtain ⟨other, member, isLoad⟩ := loads
  rcases mem_proceed_of_mem member index stage with same | kept
  · rw [present] at same
    rw [← Option.some.inj same, rests] at isLoad
    cases isLoad
  · exact ⟨other, kept, isLoad⟩

theorem mem_take_page {ids : List String} {offset : Nat} {id : String}
    (member : id ∈ ids.take (offset + (page ids offset).length)) :
    id ∈ ids.take offset ∨ id ∈ page ids offset := by
  rw [take_add] at member
  refine (mem_append.mp member).imp_right fun later => ?_
  unfold page at later ⊢
  rw [length_take] at later
  exact take_subset_take_left _ (Nat.min_le_left _ _) later

/-! ### Steps -/

theorem isLoadingMore_onData (newIds : List String) :
    (state.onData newIds).isLoadingMore = state.isLoadingMore := by
  unfold ProfileLikedVideosState.onData
  repeat' split
  all_goals rfl

theorem onData_of_ne {newIds : List String} (differs : newIds ≠ state.likedEventIds)
    (ready : state.status = .success) :
    (newIds.length < state.likedEventIds.length → state.onData newIds =
      { state with
        likedEventIds := newIds
        videos := state.videos.filter fun video =>
          !(state.likedEventIds.filter fun id => !newIds.contains id).contains video
        nextPageOffset := min state.nextPageOffset newIds.length }) ∧
    (state.likedEventIds.length < newIds.length → state.onData newIds =
      { state with
        likedEventIds := newIds
        nextPageOffset :=
          state.nextPageOffset + (newIds.length - state.likedEventIds.length) }) := by
  unfold ProfileLikedVideosState.onData
  rw [if_neg differs, if_neg (by simp [ready])]
  refine ⟨fun shorter => if_pos shorter, fun longer => ?_⟩
  rw [if_neg (Nat.lt_asymm longer), if_pos longer]

theorem Settled.emits (settled : Settled everyId (bloc, history)) {newIds : List String}
    (condition : ListCondition everyId (bloc, history) newIds)
    (emitted : later.emitted = some newIds) (requested : later.requested = history.requested)
    (continuous : ∀ id ∈ later.continuous, id ∈ history.continuous) :
    Settled everyId (⟨bloc.state.onData newIds, bloc.calls⟩, later) := by
  have asked : ∀ id ∈ history.requested, id ∈ later.requested := by
    rw [requested]
    exact fun _ => id
  have listed {ids : List String} (same : ids = newIds) : ∀ found ∈ later.emitted, ids = found := by
    rw [emitted, same]
    exact fun _ => Option.some.inj
  by_cases differs : newIds = bloc.state.likedEventIds
  · have same : bloc.state.onData newIds = bloc.state := by
      unfold ProfileLikedVideosState.onData
      rw [if_pos differs]
    rw [same]
    exact ⟨settled.status, placed_mono settled.placed continuous asked, settled.more, settled.shown,
      listed differs.symm⟩
  · obtain ⟨shrinks, grows⟩ := onData_of_ne differs settled.status
    rcases condition with same | ⟨shorter, placed⟩ | ⟨longer, placed, shown⟩
    · exact absurd same differs
    · rw [shrinks shorter]
      refine ⟨settled.status, fun id member owed => ?_, fun none => ?_, fun video member => ?_,
        listed rfl⟩
      · refine placed_mono placed continuous asked id ?_ owed
        exact take_subset_take_left _ (Nat.min_le_left _ _) member
      · have bound : bloc.state.likedEventIds.length ≤ bloc.state.nextPageOffset :=
          settled.more none
        change newIds.length < bloc.state.likedEventIds.length at shorter
        show newIds.length ≤ min bloc.state.nextPageOffset newIds.length
        omega
      · obtain ⟨before, kept⟩ := mem_filter.mp member
        have liked := settled.shown video before
        by_contra gone
        refine absurd kept ?_
        simp only [Bool.not_eq_true', Bool.not_eq_false, contains_iff_mem, mem_filter]
        exact ⟨liked, Bool.eq_false_iff.mpr fun present => gone (contains_iff_mem.mp present)⟩
    · rw [grows longer]
      refine ⟨settled.status, placed_mono placed continuous asked, fun none => ?_,
        shown, listed rfl⟩
      have bound : bloc.state.likedEventIds.length ≤ bloc.state.nextPageOffset := settled.more none
      show newIds.length ≤
        bloc.state.nextPageOffset + (newIds.length - bloc.state.likedEventIds.length)
      omega

theorem Settled.shows {seen : Bloc × History} {given : Bool} {pageEnd totalCount : Nat}
    {videos : List String} (condition : PageCondition given seen pageEnd totalCount videos)
    {calls : List Call} (status : state.status = .success)
    (ids : state.likedEventIds = seen.1.state.likedEventIds)
    (offset : state.nextPageOffset = pageEnd)
    (more : state.hasMoreContent = false → totalCount ≤ pageEnd)
    (shown : ∀ video ∈ state.videos, video ∈ videos ∨ video ∈ seen.1.state.likedEventIds)
    (listed : ∀ emitted ∈ later.emitted, seen.1.state.likedEventIds = emitted)
    (owed : ∀ id, everyId = true ∨ id ∈ later.continuous → given = true ∨ id ∈ seen.2.continuous)
    (requested : ∀ id ∈ seen.2.requested, id ∈ later.requested) :
    Settled everyId (⟨state, calls⟩, later) := by
  obtain ⟨placed, ends, liked⟩ := condition
  refine ⟨status, ?_, fun none => ?_, fun video member => ?_, ?_⟩
  · show Placed everyId later state.likedEventIds state.nextPageOffset
    rw [ids, offset]
    exact fun id member due => requested id (placed id member (owed id due))
  · show state.likedEventIds.length ≤ state.nextPageOffset
    rw [ids, offset]
    exact ends (more none)
  · show video ∈ state.likedEventIds
    rw [ids]
    exact (shown video member).elim (liked video) id
  · show ∀ emitted ∈ later.emitted, state.likedEventIds = emitted
    rw [ids]
    exact listed

theorem firstPage_loadMoreRequested : bloc.loadMoreRequested.2.firstPage = false := by
  unfold Bloc.loadMoreRequested
  simp only []
  repeat' split
  all_goals rfl

theorem Invariant.loads (invariant : Invariant everyId (bloc, history))
    (emitted : later.emitted = history.emitted) (loaded : later.loaded = history.loaded)
    (continuous : later.continuous = history.continuous)
    (requested : ∀ id ∈ history.requested, id ∈ later.requested) :
    Invariant everyId (bloc.loadMoreRequested.1, later) := by
  have kept (settled : Settled everyId (bloc, history)) : Settled everyId (bloc, later) := by
    refine ⟨settled.status, placed_mono settled.placed ?_ requested, settled.more,
      settled.shown, ?_⟩
    · rw [continuous]
      exact fun _ => id
    · show ∀ found ∈ later.emitted, _
      rw [emitted]
      exact settled.listed
  have settles (isLoaded : later.loaded = true) (idle : ¬InSync bloc.calls) :
      Settled everyId (bloc, later) :=
    kept (invariant.settled (loaded ▸ isLoaded) idle)
  unfold Bloc.loadMoreRequested
  simp only []
  split
  · exact ⟨invariant.loading, settles⟩
  · split
    · rename_i ended
      refine ⟨invariant.loading, fun isLoaded idle => ?_⟩
      have before := settles isLoaded idle
      exact ⟨before.status, before.placed, fun _ => ended, before.shown, before.listed⟩
    · refine ⟨fun _ => ⟨_, mem_append_right _ mem_cons_self, rfl⟩, fun isLoaded idle => ?_⟩
      have before := settles isLoaded (mt (inSync_append rfl).mpr idle)
      exact ⟨before.status, before.placed, before.more, before.shown, before.listed⟩

theorem Invariant.resumes (invariant : Invariant everyId (bloc, history)) {reply : Reply}
    (present : bloc.calls[index]? = some call)
    (condition : CallCondition everyId (bloc, history) index call reply) {stage : Option Call}
    {effect : Effect} (resumed : bloc.state.resume call reply = some (state, stage, effect))
    (emitted : later.emitted = history.emitted)
    (loaded : later.loaded = (history.loaded || effect.firstPage)) (continuous : later.continuous =
      if effect.firstPage then state.likedEventIds else history.continuous)
    (requested : ∀ id ∈ history.requested, id ∈ later.requested) :
    Invariant everyId (⟨state, proceed bloc.calls index stage⟩, later) := by
  have loads (rests : call.isLoad = false) (same : state.isLoadingMore = bloc.state.isLoadingMore) :
      state.isLoadingMore = true → ∃ call ∈ proceed bloc.calls index stage, call.isLoad = true :=
    fun loading => loads_proceed present rests stage (invariant.loading (same ▸ loading))
  have syncs (isSync : ∀ next ∈ stage, next.isSync = true) (isStage : stage.isSome = true) :
      InSync (proceed bloc.calls index stage) := by
    obtain ⟨next, rfl⟩ := Option.isSome_iff_exists.mp isStage
    exact ⟨next, mem_proceed_next present next, isSync next rfl⟩
  unfold ProfileLikedVideosState.resume at resumed
  split at resumed
  · split at resumed
    · obtain ⟨rfl, rfl, rfl⟩ := resumed
      exact ⟨loads rfl rfl, fun _ idle =>
        absurd (syncs (fun _ same => Option.some.inj same ▸ rfl) rfl)
        idle⟩
    · obtain ⟨rfl, rfl, rfl⟩ := resumed
      exact ⟨loads rfl rfl, fun _ idle =>
        absurd (syncs (fun _ same => Option.some.inj same ▸ rfl) rfl)
        idle⟩
  · split at resumed
    · rename_i none
      obtain ⟨rfl, rfl, rfl⟩ := resumed
      refine ⟨loads rfl rfl, fun _ idle => ?_⟩
      refine ⟨rfl, (fun _ member => by simp at member), fun _ => Nat.zero_le _,
        nofun, ?_⟩
      rw [emitted]
      exact fun found same =>
        ((condition.resolve_left idle) (isEmpty_iff.mp none) found same).symm
    · obtain ⟨rfl, rfl, rfl⟩ := resumed
      exact ⟨loads rfl rfl, fun _ idle =>
        absurd (syncs (fun _ same => Option.some.inj same ▸ rfl) rfl)
        idle⟩
  · obtain ⟨rfl, rfl, rfl⟩ := resumed
    refine ⟨loads rfl rfl, fun _ idle => ?_⟩
    obtain ⟨fits, listed⟩ := condition.resolve_left idle
    refine Settled.shows fits rfl rfl rfl (fun none => ?_) (fun _ => .inl) ?_
      (fun _ _ => .inl rfl) requested
    · exact Nat.le_of_not_lt (of_decide_eq_false none)
    · rw [emitted]
      exact listed
  · obtain ⟨rfl, rfl, rfl⟩ := resumed
    refine ⟨nofun, fun isLoaded idle => ?_⟩
    have quiet := mt (inSync_eraseIdx present rfl).mpr idle
    have wasLoaded : history.loaded = true := by
      rw [← Bool.or_false history.loaded]
      exact loaded.symm.trans isLoaded
    have settled := invariant.settled wasLoaded quiet
    refine Settled.shows (condition wasLoaded quiet) settled.status rfl rfl (fun none => ?_)
      (fun video member => ?_) ?_ (fun id owed => ?_) requested
    · exact Nat.le_of_not_lt (of_decide_eq_false none)
    · exact (mem_append.mp member).symm.imp (fun new => mem_of_mem_filter new)
        (settled.shown video)
    · rw [emitted]
      exact settled.listed
    · rwa [continuous] at owed
  · obtain ⟨rfl, rfl, rfl⟩ := resumed
    refine ⟨nofun, fun isLoaded idle => ?_⟩
    have quiet := mt (inSync_eraseIdx present rfl).mpr idle
    have wasLoaded : history.loaded = true := by
      rw [← Bool.or_false history.loaded]
      exact loaded.symm.trans isLoaded
    have settled := invariant.settled wasLoaded quiet
    refine ⟨settled.status, placed_mono settled.placed ?_ requested, settled.more,
      settled.shown, ?_⟩
    · rw [continuous]
      exact fun _ => id
    · show ∀ found ∈ later.emitted, _
      rw [emitted]
      exact settled.listed
  · rename_i error notLoad
    obtain ⟨rfl, rfl, rfl⟩ := resumed
    have rests : call.isLoad = false := by
      cases call with
      | loadingMore offset totalCount nextPageIds => exact absurd rfl (notLoad _ _ _)
      | _ => rfl
    have early : history.loaded = false ∨ InSync (bloc.calls.eraseIdx index) := by
      cases call with
      | loadingMore offset totalCount nextPageIds => exact absurd rfl (notLoad _ _ _)
      | _ => exact condition
    refine ⟨loads rests rfl, fun isLoaded idle => ?_⟩
    rcases early with unloaded | syncing
    · rw [show later.loaded = (history.loaded || false) from loaded, unloaded] at isLoaded
      cases isLoaded
    · exact absurd syncing idle
  · cases resumed

end Kept

theorem Invariant.step {everyId : Bool} {seen next : Bloc × History} {action : Action}
    (invariant : Invariant everyId seen) (condition : Condition everyId seen action)
    (stepped : watched step observe seen action = some next) : Invariant everyId next := by
  obtain ⟨bloc, history⟩ := seen
  obtain ⟨after, later⟩ := next
  obtain ⟨effect, went, recorded⟩ := watched_eq_some.mp stepped
  obtain rfl : later = observe history bloc action after effect := recorded
  cases action with
  | syncRequested =>
    cases went
    have kept (settled : Settled everyId (bloc, history)) (calls : List Call) :
        Settled everyId (⟨bloc.state, calls⟩, observe history bloc .syncRequested bloc {}) :=
      ⟨settled.status, placed_mono settled.placed (fun _ => id) fun _ => mem_append_left _,
        settled.more, settled.shown, settled.listed⟩
    have wasLoaded : (history.loaded || false) = true → history.loaded = true := by
      rw [Bool.or_false]
      exact id
    show Invariant everyId (bloc.syncRequested, _)
    unfold Bloc.syncRequested
    split
    · exact ⟨invariant.loading, fun isLoaded idle =>
        kept (invariant.settled (wasLoaded isLoaded) idle) bloc.calls⟩
    · refine ⟨fun loading => ?_, fun isLoaded idle => ?_⟩
      · obtain ⟨call, member, loads⟩ := invariant.loading loading
        exact ⟨call, mem_append_left _ member, loads⟩
      · exact kept (invariant.settled (wasLoaded isLoaded) (mt (inSync_append rfl).mpr idle)) _
  | loadMoreRequested =>
    have same : bloc.loadMoreRequested = (after, effect) := Option.some.inj went
    obtain rfl : bloc.loadMoreRequested.1 = after := congrArg Prod.fst same
    have shows : effect.firstPage = false := by
      rw [← show bloc.loadMoreRequested.2 = effect from congrArg Prod.snd same]
      exact firstPage_loadMoreRequested
    refine invariant.loads rfl ?_ ?_ fun _ => mem_append_left _
    · show (history.loaded || effect.firstPage) = _
      rw [shows, Bool.or_false]
    · show (if effect.firstPage then _ else _) = _
      rw [shows]
      rfl
  | emitted newIds =>
    cases went
    refine ⟨fun loading => invariant.loading ((isLoadingMore_onData newIds).symm.trans loading),
      fun isLoaded idle => ?_⟩
    have wasLoaded : history.loaded = true := by
      rw [← Bool.or_false history.loaded]
      exact isLoaded
    exact (invariant.settled wasLoaded idle).emits (condition wasLoaded idle) rfl
      (append_nil _) fun _ => mem_of_mem_filter
  | answer index reply =>
    obtain ⟨call, present, answered⟩ := Option.bind_eq_some_iff.mp went
    obtain ⟨⟨state, stage, found⟩, resumed, same⟩ := Option.map_eq_some_iff.mp answered
    cases same
    exact invariant.resumes present (condition call present) resumed rfl rfl rfl
      fun _ => mem_append_left _

/-! ### Loading everything -/

/-- Loads can go on, and what is before the offset was requested. -/
structure Loading (ids : List String) (seen : Bloc × History) : Prop where
  calls : seen.1.calls = []
  status : seen.1.state.status = .success
  idle : seen.1.state.isLoadingMore = false
  same : seen.1.state.likedEventIds = ids
  placed : ∀ id ∈ ids.take seen.1.state.nextPageOffset, id ∈ seen.2.requested
  more : seen.1.state.hasMoreContent = false → ids.length ≤ seen.1.state.nextPageOffset
variable {seen : Bloc × History}


theorem next_of_step {action : Action} {after : Bloc} {effect : Effect}
    (stepped : step seen.1 action = some (after, effect)) :
    next seen action = (after, observe seen.2 seen.1 action after effect) := by
  unfold next watched
  rw [stepped]
  rfl

theorem next_loadMoreRequested (bloc : Bloc) (history : History) :
    next (bloc, history) .loadMoreRequested = (bloc.loadMoreRequested.1,
      { history with requested := history.requested ++ bloc.loadMoreRequested.2.requested }) := by
  have stepped : step bloc .loadMoreRequested =
    some (bloc.loadMoreRequested.1, bloc.loadMoreRequested.2) := rfl
  refine (@next_of_step (bloc, history) _ _ _ stepped).trans (congrArg (Prod.mk _) ?_)
  unfold observe
  rw [firstPage_loadMoreRequested, Bool.or_false]
  rfl

theorem Loading.loadsMore {ids : List String} (loading : Loading ids seen)
    (resolves : String → Bool) : Loading ids (loadsMore seen resolves) ∧
      min ids.length (seen.1.state.nextPageOffset + 1) ≤
        (loadsMore seen resolves).1.state.nextPageOffset := by
  obtain ⟨⟨state, calls⟩, history⟩ := seen
  obtain ⟨rfl, status, idle, rfl, placed, more⟩ := loading
  change state.status = .success at status
  change state.isLoadingMore = false at idle
  unfold ProfileLikedVideos.loadsMore
  rw [next_loadMoreRequested]
  unfold Bloc.loadMoreRequested
  by_cases ended : state.likedEventIds.length ≤ state.nextPageOffset
  · have bound := (Nat.min_le_left state.likedEventIds.length
      (state.nextPageOffset + 1)).trans ended
    cases hasMore : state.hasMoreContent with
    | true =>
      simp only [status, idle, hasMore, if_pos ended, append_nil, ne_eq, not_true_eq_false,
        Bool.false_eq_true, Bool.not_true, or_self, if_false]
      exact ⟨⟨rfl, rfl, rfl, rfl, placed, fun _ => ended⟩, bound⟩
    | false =>
      simp only [hasMore, Bool.not_false, or_true, if_true, append_nil]
      exact ⟨⟨rfl, status, idle, rfl, placed, more⟩, bound⟩
  · have hasMore : state.hasMoreContent = true := by
      by_contra none
      exact ended (more (eq_false_of_ne_true none))
    simp only [status, idle, hasMore, if_neg ended, ne_eq, not_true_eq_false, Bool.false_eq_true,
      Bool.not_true, or_self, if_false, nil_append]
    have size : 1 ≤ (page state.likedEventIds state.nextPageOffset).length := by
      unfold page pageSize
      rw [length_take, length_drop]
      omega
    refine ⟨⟨rfl, rfl, rfl, rfl, fun id member => ?_, fun none => ?_⟩, ?_⟩
    · refine mem_append_left _ (mem_append.mpr ?_)
      exact (mem_take_page member).imp_left (placed id)
    · exact Nat.le_of_not_lt (of_decide_eq_false none)
    · show _ ≤ state.nextPageOffset + (page state.likedEventIds state.nextPageOffset).length
      exact (Nat.min_le_right _ _).trans (Nat.add_le_add_left size _)

theorem Loading.complete {ids : List String} (loading : Loading ids seen)
    {answers : List (String → Bool)} (enough : ids.length ≤ answers.length) :
    ∀ id ∈ ids, id ∈ (answers.foldl ProfileLikedVideos.loadsMore seen).2.requested := by
  have reached : ∀ (answers : List (String → Bool)) (seen : Bloc × History), Loading ids seen →
      Loading ids (answers.foldl ProfileLikedVideos.loadsMore seen) ∧
        min ids.length (seen.1.state.nextPageOffset + answers.length) ≤
          (answers.foldl ProfileLikedVideos.loadsMore seen).1.state.nextPageOffset := by
    intro answers
    induction answers with
    | nil => exact fun seen loading => ⟨loading, Nat.min_le_right _ _⟩
    | cons resolves rest ih =>
      intro seen loading
      obtain ⟨later, moved⟩ := loading.loadsMore resolves
      obtain ⟨final, bound⟩ := ih _ later
      refine ⟨final, ?_⟩
      rw [length_cons, foldl_cons]
      omega
  obtain ⟨final, bound⟩ := reached answers seen loading
  intro id member
  refine final.placed id ?_
  rw [take_of_length_le (by omega)]
  exact member

/-- Whenever no load is in progress nothing was skipped; and when what comes first was requested,
everything is in the end. -/
theorem paged_of_run {everyId : Bool} {actions : List Action} {final : Bloc × History}
    (meets : Meets (watched step observe) (Condition everyId) (initialBloc, {}) actions)
    (ran : run (watched step observe) (initialBloc, {}) actions = some final)
    (quiet : final.1.calls = []) (loaded : final.2.loaded = true) :
    Paged final ∧ (everyId = true → Complete final) := by
  have initial : Invariant everyId (initialBloc, {}) :=
    ⟨nofun, nofun⟩
  have kept := invariant_of_meets _ (fun _ _ _ invariant condition stepped =>
    invariant.step condition stepped) initial meets ran
  have idle : ¬InSync final.1.calls := by
    rw [quiet]
    rintro ⟨call, member, -⟩
    cases member
  have settled := kept.settled loaded idle
  refine ⟨⟨fun id member liked => settled.placed id member (.inr liked), settled.listed,
    fun video member emitted same => settled.listed emitted same ▸ settled.shown video member⟩,
    fun every => ⟨final.1.state.likedEventIds.length, fun answers enough => ?_⟩⟩
  have loading : Loading final.1.state.likedEventIds final := by
    refine ⟨quiet, settled.status, ?_, rfl, fun id member => settled.placed id member (.inl every),
      settled.more⟩
    refine Bool.eq_false_iff.mpr fun loads => ?_
    obtain ⟨call, member, -⟩ := kept.loading loads
    rw [quiet] at member
    cases member
  exact loading.complete enough

section Examples

def gridAfter (actions : List Action) : Option (Bloc × History) :=
  run (watched step observe) (initialBloc, {}) actions

def liked (count : Nat) : List String :=
  (List.range count).map fun number => String.ofList (List.replicate number 'v')

/-- The first page of some ids is shown, and the subscription tells them. -/
def shows (likedEventIds : List String) : List Action :=
  [.syncRequested, .answer 0 (.ids likedEventIds), .answer 0 (.videos fun _ => true),
    .emitted likedEventIds]

/-- A video of the next page is unliked, and the rest is loaded. -/
def unlikesLater : List Action :=
  shows (liked 20) ++ [.emitted (liked 19), .loadMoreRequested, .answer 0 (.videos fun _ => false)]

theorem paged_unlikesLater : ∃ final, gridAfter unlikesLater = some final ∧ Paged final ∧
    Complete final := by
  obtain ⟨final, ran, quiet, loaded⟩ := @exists_of_any _ (gridAfter unlikesLater)
    (fun final => final.1.calls = [] ∧ final.2.loaded = true) _ (by decide +kernel)
  obtain ⟨paged, complete⟩ := @paged_of_run true _ _ (by decide +kernel) ran quiet loaded
  exact ⟨final, ran, paged, complete rfl⟩

def likesOne : Bloc × History :=
  (⟨{ status := .success, videos := ["old"], likedEventIds := ["new", "old"],
      hasMoreContent := false, nextPageOffset := 2 }, []⟩,
    { emitted := some ["new", "old"], requested := ["old"], loaded := true, continuous := ["old"] })

theorem foldl_loadsMore_likesOne (answers : List (String → Bool)) :
    answers.foldl loadsMore likesOne = likesOne := by
  induction answers with
  | nil => rfl
  | cons resolves rest ih => exact ih

/-- A skipped video, a like and an unlike that are not seen, a video that is unliked while it is
loaded, and a new like that is never requested. -/
theorem skips :
    (∃ final, gridAfter (shows (liked 20) ++ [.emitted (liked 20).tail]) = some final ∧
      final.1.calls = [] ∧ final.2.loaded = true ∧ ¬Paged final) ∧
    (∃ final, gridAfter (shows (liked 20) ++ [.emitted (liked 21)]) = some final ∧
      final.1.calls = [] ∧ final.2.loaded = true ∧ ¬Paged final) ∧
    (∃ final, gridAfter (shows ["old"] ++ [.emitted ["new"]]) = some final ∧
      final.1.calls = [] ∧ final.2.loaded = true ∧ ¬Paged final) ∧
    (∃ final, gridAfter (shows (liked 20) ++ [.loadMoreRequested, .emitted (liked 19),
        .answer 0 (.videos fun _ => true)]) = some final ∧
      final.1.calls = [] ∧ final.2.loaded = true ∧ ¬Paged final) ∧
    ∃ final, gridAfter (shows ["old"] ++ [.emitted ["new", "old"]]) = some final ∧
      final.1.calls = [] ∧ final.2.loaded = true ∧ ¬Complete final := by
  refine ⟨exists_of_any _ (by decide +kernel), exists_of_any _ (by decide +kernel),
    exists_of_any _ (by decide +kernel), exists_of_any _ (by decide +kernel), likesOne,
      rfl, rfl, rfl,
    ?_⟩
  rintro ⟨bound, everything⟩
  have found := everything (replicate bound fun _ => true) length_replicate.ge "new"
    mem_cons_self
  rw [foldl_loadsMore_likesOne] at found
  exact absurd found (by decide)

end Examples

end Divine.ProfileLikedVideos
