/-
This file settles which targets a sync records.
-/

import Divine.Repositories.Reposts

namespace Divine.Repositories

open Dictionary

def Settled (deleted : List String) (events : List Event) (id : String) : Prop :=
  id ∈ deleted ∨ ∃ event ∈ events, event.id = id

/-! ### Likes -/

namespace LikesRepository

variable {deleted : List String} {syncing : Syncing} {event : Event} {reactions : List Event}
  {target : String}

def Live (deleted : List String) (target : String) (event : Event) : Prop :=
  extractTargetEventId event = some target ∧ event.content = likeContent ∧ event.id ∉ deleted

def Gone (deleted : List String) (target : String) (event : Event) : Prop :=
  extractTargetEventId event = some target ∧ event.id ∈ deleted

def liveItem (deleted : List String) (event : Event) : Option (String × LikeRecord) :=
  if event.id ∈ deleted then none
  else (extractTargetEventId event).bind fun target =>
    if event.content = likeContent then some (target, reactionRecord event target) else none

theorem liveItem_eq_some {item : String × LikeRecord} :
    liveItem deleted event = some item ↔
      Live deleted item.1 event ∧ item.2 = reactionRecord event item.1 := by
  unfold liveItem Live
  by_cases gone : event.id ∈ deleted
  · rw [if_pos gone]
    exact iff_of_false nofun fun live => live.1.2.2 gone
  · rw [if_neg gone, Option.bind_eq_some_iff]
    constructor
    · rintro ⟨target, extracted, same⟩
      obtain ⟨content, same⟩ := Option.ite_none_right_eq_some.mp same
      rw [← Option.some.inj same]
      exact ⟨⟨extracted, content, gone⟩, rfl⟩
    · rintro ⟨⟨extracted, content, -⟩, record⟩
      exact ⟨item.1, extracted, (if_pos content).trans (congrArg some (Prod.ext rfl record.symm))⟩

theorem mem_liveItems {record : LikeRecord} :
    (target, record) ∈ reactions.filterMap (liveItem deleted) ↔
      ∃ event ∈ reactions, Live deleted target event ∧ record = reactionRecord event target := by
  rw [List.mem_filterMap]
  exact exists_congr fun event => and_congr_right fun _ => liveItem_eq_some

theorem syncReaction_likeRecords (deleted : List String) (syncing : Syncing) (event : Event) :
    (syncReaction deleted syncing event).likeRecords =
      (liveItem deleted event).toList.foldl (offer LikeRecord.createdAt) syncing.likeRecords := by
  unfold syncReaction liveItem
  by_cases gone : event.id ∈ deleted
  · rw [if_pos gone, if_pos gone]
    cases extractTargetEventId event with
    | none => rfl
    | some target =>
      dsimp only
      split <;> rfl
  · rw [if_neg gone, if_neg gone]
    cases extractTargetEventId event with
    | none => rfl
    | some target =>
      dsimp only [Option.bind_some]
      by_cases content : event.content = likeContent
      · rw [if_pos content, if_pos content]
        split <;> rfl
      · rw [if_neg content, if_neg content]
        rfl

theorem foldl_syncReaction_likeRecords (deleted : List String) (syncing : Syncing)
    (reactions : List Event) :
    (reactions.foldl (syncReaction deleted) syncing).likeRecords =
      (reactions.filterMap (liveItem deleted)).foldl (offer LikeRecord.createdAt)
        syncing.likeRecords := by
  induction reactions generalizing syncing with
  | nil => rfl
  | cons event rest ih =>
    rw [List.foldl_cons, ih, syncReaction_likeRecords, List.filterMap_cons]
    cases liveItem deleted event <;> rfl

theorem find_syncReaction_ne_none :
    find (syncReaction deleted syncing event).likeRecords target ≠ none ↔
      find syncing.likeRecords target ≠ none ∨ Live deleted target event := by
  rw [syncReaction_likeRecords]
  cases item : liveItem deleted event with
  | none =>
    refine ⟨.inl, fun either => either.resolve_right fun live => ?_⟩
    have present : liveItem deleted event = some (target, reactionRecord event target) :=
      liveItem_eq_some.mpr ⟨live, rfl⟩
    exact Option.some_ne_none _ (present.symm.trans item)
  | some item' =>
    obtain ⟨live, -⟩ := liveItem_eq_some.mp item
    rw [Option.toList_some, List.foldl_cons, List.foldl_nil, find_offer]
    by_cases own : item'.1 = target
    · rw [if_pos own]
      exact iff_of_true (Option.some_ne_none _) (.inr (own ▸ live))
    · rw [if_neg own]
      refine ⟨.inl, fun either => either.resolve_right fun other => own ?_⟩
      exact Option.some.inj (live.1.symm.trans other.1)

theorem mem_syncReaction_deletedTargetIds :
    target ∈ (syncReaction deleted syncing event).deletedTargetIds ↔
      target ∈ syncing.deletedTargetIds ∨
        find syncing.likeRecords target ≠ none ∧ Gone deleted target event := by
  unfold syncReaction Gone
  by_cases gone : event.id ∈ deleted
  · rw [if_pos gone]
    cases extracted : extractTargetEventId event with
    | none => simp
    | some own =>
      dsimp only
      by_cases recorded : (find syncing.likeRecords own).isSome
      · rw [if_pos recorded]
        have known := Option.isSome_iff_ne_none.mp recorded
        simp only [List.mem_append, List.mem_singleton, Option.some.injEq]
        refine or_congr_right ⟨?_, fun both => both.2.1.symm⟩
        rintro rfl
        exact ⟨known, rfl, gone⟩
      · rw [if_neg recorded]
        refine ⟨.inl, fun either => either.resolve_right fun both => recorded ?_⟩
        rw [Option.some.inj both.2.1]
        exact Option.isSome_iff_ne_none.mpr both.1
  · rw [if_neg gone]
    have unchanged : ∀ extracted, target ∈ syncing.deletedTargetIds ↔
        target ∈ syncing.deletedTargetIds ∨ find syncing.likeRecords target ≠ none ∧
          extracted = some target ∧ event.id ∈ deleted :=
      fun _ => ⟨.inl, fun either => either.resolve_right fun both => gone both.2.2⟩
    cases extractTargetEventId event with
    | none => exact unchanged none
    | some own =>
      dsimp only
      by_cases content : event.content = likeContent
      · rw [if_pos content]
        split <;> exact unchanged (some own)
      · rw [if_neg content]
        exact unchanged (some own)

/-- A deleted reaction is read while its target is recorded, from before the sync or by a live like.
-/
def Withdrawn (recorded : Prop) (deleted : List String) (reactions : List Event)
    (target : String) : Prop :=
  (recorded ∧ ∃ event ∈ reactions, Gone deleted target event) ∨
    ∃ live gone, [live, gone].Sublist reactions ∧ Live deleted target live ∧
      Gone deleted target gone

theorem withdrawn_cons {recorded : Prop} :
    Withdrawn recorded deleted (event :: reactions) target ↔
      recorded ∧ Gone deleted target event ∨
        Withdrawn (recorded ∨ Live deleted target event) deleted reactions target := by
  have pairs : (∃ live gone, [live, gone].Sublist (event :: reactions) ∧
      Live deleted target live ∧ Gone deleted target gone) ↔
      (∃ live gone, [live, gone].Sublist reactions ∧ Live deleted target live ∧
        Gone deleted target gone) ∨
      Live deleted target event ∧ ∃ gone ∈ reactions, Gone deleted target gone := by
    constructor
    · rintro ⟨live, gone, sublist, isLive, isGone⟩
      rcases List.sublist_cons_iff.mp sublist with later | ⟨rest, same, later⟩
      · exact .inl ⟨live, gone, later, isLive, isGone⟩
      · obtain ⟨rfl, rfl⟩ := List.cons.inj same
        exact .inr ⟨isLive, gone, List.singleton_sublist.mp later, isGone⟩
    · rintro (⟨live, gone, sublist, both⟩ | ⟨isLive, gone, member, isGone⟩)
      · exact ⟨live, gone, sublist.cons event, both⟩
      · exact ⟨event, gone, (List.singleton_sublist.mpr member).cons_cons event, isLive, isGone⟩
  unfold Withdrawn
  rw [pairs]
  simp only [List.mem_cons, exists_eq_or_imp]
  rw [and_or_left, or_and_right, or_assoc, or_assoc]
  exact or_congr_right (or_congr_right or_comm)

theorem mem_deletedTargetIds :
    target ∈ (reactions.foldl (syncReaction deleted) syncing).deletedTargetIds ↔
      target ∈ syncing.deletedTargetIds ∨
        Withdrawn (find syncing.likeRecords target ≠ none) deleted reactions target := by
  induction reactions generalizing syncing with
  | nil =>
    refine ⟨.inl, fun either => either.resolve_right ?_⟩
    rintro (⟨-, event, member, -⟩ | ⟨live, gone, sublist, -⟩)
    · cases member
    · cases sublist
  | cons event rest ih =>
    rw [List.foldl_cons, ih, mem_syncReaction_deletedTargetIds,
      find_syncReaction_ne_none, withdrawn_cons, or_assoc]

def Recorded (repository : LikesRepository) (target : String) : Prop :=
  ∃ record, find repository.likeRecords target = some record ∧
    isPlaceholder record.reactionEventId = false

/-- The target has a live like, or it was recorded and its reaction is neither returned nor
deleted. -/
def Expected (known : LikesRepository) (deleted : List String) (reactions : List Event)
    (target : String) : Prop :=
  (∃ event ∈ reactions, Live deleted target event) ∨
    ∃ record, find known.likeRecords target = some record ∧
      isPlaceholder record.reactionEventId = false ∧
        ¬Settled deleted reactions record.reactionEventId

/-- No deleted reaction is read while a returned live like of its target is recorded, which is newer
than a placeholder; and where none is returned, a recorded one is deleted. -/
structure InOrder (known : LikesRepository) (deleted : List String) (reactions : List Event)
    (target : String) : Prop where
  live : (∃ event ∈ reactions, Live deleted target event) →
    ¬Withdrawn (find known.likeRecords target ≠ none) deleted reactions target ∧
      ∀ record, find known.likeRecords target = some record →
        isPlaceholder record.reactionEventId = true →
          ∃ event ∈ reactions, Live deleted target event ∧ record.createdAt < event.createdAt * 1000
  gone : (¬∃ event ∈ reactions, Live deleted target event) →
    ∀ record, find known.likeRecords target = some record →
      isPlaceholder record.reactionEventId = false →
        ((∃ event ∈ reactions, Gone deleted target event) ↔
          Settled deleted reactions record.reactionEventId)

theorem recorded_finishSync {known : LikesRepository} :
    (known.finishSync (reactions.foldl (syncReaction deleted) ⟨known.likeRecords, [], []⟩)).Recorded
        target ↔
      ¬Withdrawn (find known.likeRecords target ≠ none) deleted reactions target ∧
        ((find known.likeRecords target = none ∧ ∃ event ∈ reactions, Live deleted target event) ∨
          ∃ first, find known.likeRecords target = some first ∧
            (isPlaceholder first.reactionEventId = false ∨
              ∃ event ∈ reactions, Live deleted target event ∧
                first.createdAt < event.createdAt * 1000)) := by
  have each : ∀ item ∈ reactions.filterMap (liveItem deleted),
      isPlaceholder item.2.reactionEventId = false := by
    intro item member
    obtain ⟨event, -, live⟩ := List.mem_filterMap.mp member
    obtain ⟨-, record⟩ := liveItem_eq_some.mp live
    rw [record]
    exact event.published
  have withdrawn : target ∈ (reactions.foldl (syncReaction deleted)
      ⟨known.likeRecords, [], []⟩).deletedTargetIds ↔
        Withdrawn (find known.likeRecords target ≠ none) deleted reactions target :=
    mem_deletedTargetIds.trans (or_iff_right List.not_mem_nil)
  have live : ∀ condition : LikeRecord → Prop,
      (∃ record, (target, record) ∈ reactions.filterMap (liveItem deleted) ∧ condition record) ↔
        ∃ event ∈ reactions, Live deleted target event ∧
          condition (reactionRecord event target) := by
    intro condition
    constructor
    · rintro ⟨record, member, holds⟩
      obtain ⟨event, present, isLive, rfl⟩ := mem_liveItems.mp member
      exact ⟨event, present, isLive, holds⟩
    · rintro ⟨event, present, isLive, holds⟩
      exact ⟨_, mem_liveItems.mpr ⟨event, present, isLive, rfl⟩, holds⟩
  have anyLive := live fun _ => True
  simp only [and_true] at anyLive
  have newer : ∀ first : LikeRecord, _ := fun first =>
    live fun record => first.createdAt < record.createdAt
  unfold Recorded finishSync
  dsimp only
  rw [find_foldl_remove, foldl_syncReaction_likeRecords]
  by_cases gone : Withdrawn (find known.likeRecords target ≠ none) deleted reactions target
  · rw [if_pos (withdrawn.mpr gone)]
    exact iff_of_false (fun ⟨_, same, _⟩ => Option.some_ne_none _ same.symm) fun both => both.1 gone
  · rw [if_neg (mt withdrawn.mp gone), and_iff_right gone, exists_find_foldl_offer each, anyLive]
    simp only [newer]
    rfl

/-- The recorded targets are the expected ones exactly when the reactions come in order. -/
theorem recorded_iff_expected {known : LikesRepository} :
    ((known.finishSync (reactions.foldl (syncReaction deleted)
        ⟨known.likeRecords, [], []⟩)).Recorded target ↔ known.Expected deleted reactions target) ↔
      known.InOrder deleted reactions target := by
  rw [recorded_finishSync]
  unfold Expected
  by_cases live : ∃ event ∈ reactions, Live deleted target event
  · refine Iff.trans (iff_true_right (.inl live)) ⟨?_, ?_⟩
    · rintro ⟨kept, recorded⟩
      refine ⟨fun _ => ⟨kept, fun record found placeholder => ?_⟩, fun dead => (dead live).elim⟩
      rcases recorded with ⟨absent, -⟩ | ⟨first, held, real | newer⟩
      · exact (Option.some_ne_none _ (found.symm.trans absent)).elim
      · rw [Option.some.inj (found.symm.trans held), real] at placeholder
        cases placeholder
      · exact Option.some.inj (found.symm.trans held) ▸ newer
    · intro inOrder
      obtain ⟨kept, newer⟩ := inOrder.live live
      refine ⟨kept, ?_⟩
      cases found : find known.likeRecords target with
      | none => exact .inl ⟨rfl, live⟩
      | some first =>
        refine .inr ⟨first, rfl, ?_⟩
        cases placeholder : isPlaceholder first.reactionEventId with
        | false => exact .inl rfl
        | true => exact .inr (newer first found placeholder)
  · have noPair : ¬∃ event gone, [event, gone].Sublist reactions ∧ Live deleted target event ∧
        Gone deleted target gone := by
      rintro ⟨event, gone, sublist, isLive, -⟩
      exact live ⟨event, sublist.subset List.mem_cons_self, isLive⟩
    have noNewer : ∀ bound, ¬∃ event ∈ reactions, Live deleted target event ∧
        bound < event.createdAt * 1000 := by
      rintro bound ⟨event, member, isLive, -⟩
      exact live ⟨event, member, isLive⟩
    have order : known.InOrder deleted reactions target ↔
        ∀ record, find known.likeRecords target = some record →
          isPlaceholder record.reactionEventId = false →
            ((∃ event ∈ reactions, Gone deleted target event) ↔
              Settled deleted reactions record.reactionEventId) :=
      ⟨fun inOrder => inOrder.gone live, fun all => ⟨fun some => (live some).elim, fun _ => all⟩⟩
    rw [order]
    unfold Withdrawn
    simp only [noPair, noNewer, or_false, or_false, false_or, live, and_false]
    cases found : find known.likeRecords target with
    | none => simp
    | some first =>
      simp only [ne_eq, reduceCtorEq, not_false_eq_true, true_and, Option.some.injEq,
        exists_eq_left', forall_eq']
      cases isPlaceholder first.reactionEventId with
      | false =>
        simp only [and_true, true_and, forall_const]
        exact not_iff_not
      | true => simp

end LikesRepository

/-! ### Reposts -/

namespace RepostsRepository

variable {deleted : List String} {reposts : List Event} {target : String}

theorem syncRepost_repostRecords (syncing : Syncing) (event : Event) :
    (syncRepost syncing event).repostRecords =
      (repostRecord event).toList.foldl (offer RepostRecord.createdAt) syncing.repostRecords := by
  unfold syncRepost
  cases repostRecord event with
  | none => rfl
  | some item =>
    dsimp only
    split <;> rfl

theorem foldl_syncRepost_repostRecords (syncing : Syncing) (reposts : List Event) :
    (reposts.foldl syncRepost syncing).repostRecords =
      (reposts.filterMap repostRecord).foldl (offer RepostRecord.createdAt)
        syncing.repostRecords := by
  induction reposts generalizing syncing with
  | nil => rfl
  | cons event rest ih =>
    rw [List.foldl_cons, ih, syncRepost_repostRecords, List.filterMap_cons]
    cases repostRecord event <;> rfl

/-- A repost of the target that names the author of the original. -/
def Complete (target : String) (event : Event) : Prop :=
  extractAddressableId event = some target ∧ extractOriginalAuthorPubkey event ≠ none

theorem repostRecord_eq_some {event : Event} {record : RepostRecord}
    (same : repostRecord event = some (target, record)) :
    Complete target event ∧ record.repostEventId = event.id ∧
      record.createdAt = event.createdAt * 1000 := by
  unfold repostRecord at same
  unfold Complete
  cases addressable : extractAddressableId event with
  | none =>
    rw [addressable] at same
    cases same
  | some addressableId =>
    cases author : extractOriginalAuthorPubkey event with
    | none =>
      rw [addressable, author] at same
      cases same
    | some authorPubkey =>
      rw [addressable, author] at same
      cases same
      exact ⟨⟨rfl, Option.some_ne_none _⟩, rfl, rfl⟩

theorem repostRecord_of_complete {event : Event} (complete : Complete target event) :
    ∃ record, repostRecord event = some (target, record) := by
  obtain ⟨addressableId, named⟩ := complete
  obtain ⟨authorPubkey, author⟩ := Option.ne_none_iff_exists'.mp named
  unfold repostRecord
  rw [addressableId, author]
  exact ⟨_, rfl⟩

def Recorded (repository : RepostsRepository) (target : String) : Prop :=
  ∃ record, find repository.repostRecords target = some record ∧
    isPlaceholder record.repostEventId = false

def Live (deleted : List String) (target : String) (event : Event) : Prop :=
  extractAddressableId event = some target ∧ event.id ∉ deleted

/-- The target has a live repost, or it was recorded and its repost is neither returned nor
deleted. -/
def Expected (known : RepostsRepository) (deleted : List String) (reposts : List Event)
    (target : String) : Prop :=
  (∃ event ∈ reposts, Live deleted target event) ∨
    ∃ record, find known.repostRecords target = some record ∧
      isPlaceholder record.repostEventId = false ∧ ¬Settled deleted reposts record.repostEventId

def Newer (reposts : List Event) (target : String) (record : RepostRecord) : Prop :=
  ∃ event ∈ reposts, Complete target event ∧ record.createdAt < event.createdAt * 1000

/-- A live repost of the target that is returned is that of the author, unless the target is
recorded, and is newer than a placeholder; and where none is returned, none of the author's is. -/
structure Undeleted (known : RepostsRepository) (deleted : List String) (reposts : List Event)
    (target : String) : Prop where
  live : (∃ event ∈ reposts, Live deleted target event) →
    (find known.repostRecords target = none → ∃ event ∈ reposts, Complete target event) ∧
      ∀ record, find known.repostRecords target = some record →
        isPlaceholder record.repostEventId = true → Newer reposts target record
  gone : (¬∃ event ∈ reposts, Live deleted target event) →
    (find known.repostRecords target = none → ¬∃ event ∈ reposts, Complete target event) ∧
      ∀ record, find known.repostRecords target = some record →
        (isPlaceholder record.repostEventId = true → ¬Newer reposts target record) ∧
          (isPlaceholder record.repostEventId = false →
            ¬Settled deleted reposts record.repostEventId)

theorem recorded_finishSync {known : RepostsRepository} :
    (known.finishSync (reposts.foldl syncRepost ⟨known.repostRecords, []⟩)).Recorded target ↔
      (find known.repostRecords target = none ∧ ∃ event ∈ reposts, Complete target event) ∨
        ∃ first, find known.repostRecords target = some first ∧
          (isPlaceholder first.repostEventId = false ∨ Newer reposts target first) := by
  have each : ∀ item ∈ reposts.filterMap repostRecord,
      isPlaceholder item.2.repostEventId = false := by
    intro item member
    obtain ⟨event, -, same⟩ := List.mem_filterMap.mp member
    obtain ⟨-, id, -⟩ := repostRecord_eq_some same
    rw [id]
    exact event.published
  have complete : (∃ record, (target, record) ∈ reposts.filterMap repostRecord) ↔
      ∃ event ∈ reposts, Complete target event := by
    constructor
    · rintro ⟨record, member⟩
      obtain ⟨event, present, same⟩ := List.mem_filterMap.mp member
      exact ⟨event, present, (repostRecord_eq_some same).1⟩
    · rintro ⟨event, present, complete⟩
      obtain ⟨record, same⟩ := repostRecord_of_complete complete
      exact ⟨record, List.mem_filterMap.mpr ⟨event, present, same⟩⟩
  have newer : ∀ first : RepostRecord, (∃ record,
      (target, record) ∈ reposts.filterMap repostRecord ∧ first.createdAt < record.createdAt) ↔
        Newer reposts target first := by
    intro first
    constructor
    · rintro ⟨record, member, later⟩
      obtain ⟨event, present, same⟩ := List.mem_filterMap.mp member
      obtain ⟨complete, -, createdAt⟩ := repostRecord_eq_some same
      exact ⟨event, present, complete, createdAt ▸ later⟩
    · rintro ⟨event, present, complete, later⟩
      obtain ⟨record, same⟩ := repostRecord_of_complete complete
      obtain ⟨-, -, createdAt⟩ := repostRecord_eq_some same
      exact ⟨record, List.mem_filterMap.mpr ⟨event, present, same⟩, createdAt ▸ later⟩
  unfold Recorded finishSync
  dsimp only
  rw [foldl_syncRepost_repostRecords, exists_find_foldl_offer each, complete]
  simp only [newer]

/-- The recorded targets are the expected ones exactly when nothing that decides is deleted. -/
theorem recorded_iff_expected {known : RepostsRepository} :
    ((known.finishSync (reposts.foldl syncRepost ⟨known.repostRecords, []⟩)).Recorded target ↔
        known.Expected deleted reposts target) ↔ known.Undeleted deleted reposts target := by
  rw [recorded_finishSync]
  unfold Expected
  by_cases live : ∃ event ∈ reposts, Live deleted target event
  · refine Iff.trans (iff_true_right (.inl live)) ⟨?_, ?_⟩
    · intro recorded
      refine ⟨fun _ => ⟨fun absent => ?_, fun record found placeholder => ?_⟩,
        fun dead => (dead live).elim⟩
      · rcases recorded with ⟨-, complete⟩ | ⟨first, held, -⟩
        · exact complete
        · exact (Option.some_ne_none _ (held.symm.trans absent)).elim
      · rcases recorded with ⟨absent, -⟩ | ⟨first, held, real | newer⟩
        · exact (Option.some_ne_none _ (found.symm.trans absent)).elim
        · rw [Option.some.inj (found.symm.trans held), real] at placeholder
          cases placeholder
        · exact Option.some.inj (found.symm.trans held) ▸ newer
    · intro undeleted
      obtain ⟨complete, newer⟩ := undeleted.live live
      cases found : find known.repostRecords target with
      | none => exact .inl ⟨rfl, complete found⟩
      | some first =>
        refine .inr ⟨first, rfl, ?_⟩
        cases placeholder : isPlaceholder first.repostEventId with
        | false => exact .inl rfl
        | true => exact .inr (newer first found placeholder)
  · have order : known.Undeleted deleted reposts target ↔ _ :=
      ⟨fun undeleted => undeleted.gone live,
        fun all => ⟨fun some => (live some).elim, fun _ => all⟩⟩
    rw [order]
    simp only [live, false_or]
    cases found : find known.repostRecords target with
    | none => simp
    | some first =>
      simp only [reduceCtorEq, false_and, false_or, Option.some.injEq, exists_eq_left', forall_eq',
        false_implies, true_and]
      cases isPlaceholder first.repostEventId with
      | false => simp
      | true => simp

end RepostsRepository

/-! ### Syncs -/

/-- The targets recorded after a sync are the expected ones exactly when what was known and returned
meets the condition. -/
theorem sync_recorded_iff (likes : LikesRepository) (reposts : RepostsRepository)
    (reactions repostEvents deletions : List Event) :
    (∃ synced, likes.syncUserReactions (some (reactions, deletions)) = .ok synced ∧
      ∀ target, (synced.Recorded target ↔
          likes.load.Expected (deletedEventIds deletions) reactions target) ↔
        likes.load.InOrder (deletedEventIds deletions) reactions target) ∧
    ∃ synced, reposts.syncUserReposts (some repostEvents) = .ok synced ∧
      ∀ target, (synced.Recorded target ↔
          reposts.load.Expected (deletedEventIds deletions) repostEvents target) ↔
        reposts.load.Undeleted (deletedEventIds deletions) repostEvents target :=
  ⟨⟨_, rfl, fun _ => LikesRepository.recorded_iff_expected⟩,
    ⟨_, rfl, fun _ => RepostsRepository.recorded_iff_expected⟩⟩

def sampleReaction (id target : String) (createdAt : Nat) (published : isPlaceholder id = false) :
    Event where
  id := id
  createdAt := createdAt
  content := likeContent
  tags := [["e", target]]
  published := published

/-- A target that is liked again is recorded or not by the order of what is read, and a deleted
repost is recorded. -/
theorem sync_depends_on_order :
    let old := sampleReaction "r1" "t" 1 (by decide)
    let new := sampleReaction "r2" "t" 2 (by decide)
    let deletion : Event := ⟨"d1", 1, "delete", [["e", "r1"]], by decide⟩
    let repost : Event := ⟨"r1", 1, "", [["a", "v"], ["p", "author"]], by decide⟩
    (∃ synced, (LikesRepository.mk [] none).syncUserReactions (some ([new, old], [deletion])) =
      .ok synced ∧ ¬synced.Recorded "t") ∧
    (∃ synced, (LikesRepository.mk [] none).syncUserReactions (some ([old, new], [deletion])) =
      .ok synced ∧ synced.Recorded "t") ∧
    ∃ synced, (RepostsRepository.mk [] none).syncUserReposts (some [repost]) = .ok synced ∧
      synced.Recorded "v" ∧
        ¬(RepostsRepository.mk [] none).load.Expected (deletedEventIds [deletion])
          [repost] "v" := by
  refine ⟨⟨_, rfl, ?_⟩, ⟨_, rfl, ?_⟩, ⟨_, rfl, ?_, ?_⟩⟩
  · rintro ⟨record, found, -⟩
    exact Option.some_ne_none record (found.symm.trans (by decide))
  · exact ⟨⟨"t", "r2", 2000⟩, by decide, by decide⟩
  · exact ⟨⟨"v", "r1", "author", 1000⟩, by decide, by decide⟩
  · rintro (⟨event, member, -, alive⟩ | ⟨record, found, -⟩)
    · rw [List.mem_singleton.mp member] at alive
      exact alive (by decide)
    · exact Option.some_ne_none record found.symm

end Divine.Repositories
