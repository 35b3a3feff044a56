/-
This file proves when the votes that are shown are the votes that are held.
-/

import Divine.CommentsBloc.Bloc
import Divine.Library.Observer

namespace Divine.CommentsBloc

open Dictionary Interleaving Observer Transition

/-! ### Votes shown and votes held -/

/-- The counts that were fetched last, and the votes that were held then. -/
structure Baseline where
  state : CommentsState
  repository : LikesRepository

def observe : Observe Bloc Action Bool Baseline := fun baseline _ _ after fetched =>
  if fetched then ⟨after.state, after.repository⟩ else baseline

def ShownAsHeld (bloc : Bloc) (commentId : String) : Prop :=
  ∀ isUpvote, commentId ∈ (bloc.state.votes isUpvote).ids ↔
    bloc.repository.holds commentId isUpvote = true

/-- A count differs from the one that was fetched by the own votes since then. -/
def Counted (baseline : Baseline) (commentId : String) (isUpvote : Bool) (count : Int)
    (held : Bool) : Prop :=
  count - (baseline.state.votes isUpvote).count commentId =
    held.toInt - (baseline.repository.holds commentId isUpvote).toInt

/-- What holds while nothing is in progress. -/
structure Agrees (seen : Bloc × Baseline) : Prop where
  disjoint : ∀ commentId ∈ seen.1.state.upvotes.ids, commentId ∉ seen.1.state.downvotes.ids
  held : ∀ commentId ∈ seen.1.state.commentIds, ShownAsHeld seen.1 commentId
  counts : ∀ commentId ∈ seen.1.state.commentIds, ∀ isUpvote,
    Counted seen.2 commentId isUpvote ((seen.1.state.votes isUpvote).count commentId)
      (seen.1.repository.holds commentId isUpvote)

/-! ### The condition -/

def toggling (calls : List Call) : List String :=
  calls.filterMap fun call => call.toggle.map Toggle.commentId

def isFetching (calls : List Call) : Bool := calls.any fun call => call.toggle.isNone

structure RecordsAgree (repository : LikesRepository) (commentId : String) : Prop where
  published : ∀ reactionId ∈ find repository.likeRecords commentId,
    ∃ reaction ∈ repository.reactions, reaction.id = reactionId
  own : ∀ reaction ∈ repository.reactions,
    find repository.likeRecords commentId = some reaction.id ↔
      (reaction.target = commentId ∧ reaction.isUpvote = true)

/-- Votes are fetched while none is in progress, as they are held; a published vote finds the record
of the comment in order; and it does not fail after the opposite one was removed. -/
def CallCondition (bloc : Bloc) (index : Nat) : Call → Reply → Prop
  | .fetching _, .fetched upvotes downvotes =>
      toggling bloc.calls = [] ∧ (∀ commentId ∈ upvotes.ids, commentId ∉ downvotes.ids) ∧
        ∀ commentId ∈ bloc.state.commentIds,
          (commentId ∈ upvotes.ids ↔ bloc.repository.holds commentId true = true) ∧
            (commentId ∈ downvotes.ids ↔ bloc.repository.holds commentId false = true)
  | .fetching _, .failed =>
      isFetching (bloc.calls.eraseIdx index) = true ∨ ∀ commentId ∈ bloc.state.commentIds,
        commentId ∈ toggling bloc.calls ∨ ShownAsHeld bloc commentId
  | .removing toggle, .succeeded _ | .unliking toggle, .succeeded _ | .voting toggle,
    .succeeded _ =>
      RecordsAgree bloc.repository toggle.commentId
  | .voting toggle, .failed => toggle.hadOppositeVote = false
  | _, _ => True

/-- A vote starts while none of its comment is in progress and the votes are shown as they are held,
and comments are added with their votes as they are held. -/
def Condition (seen : Bloc × Baseline) : Action → Prop
  | .toggled commentId isUpvote isAuthenticated =>
      seen.1.toggled commentId isUpvote isAuthenticated = seen.1 ∨ isAuthenticated = false ∨
        (commentId ∉ toggling seen.1.calls ∧ ShownAsHeld seen.1 commentId ∧
          ∀ isUpvote, commentId ∈ (seen.1.state.votes isUpvote).ids →
            1 ≤ (seen.1.state.votes isUpvote).count commentId)
  | .changed commentIds _ => ∀ commentId ∈ commentIds,
      commentId ∈ seen.1.state.commentIds ∨ commentId ∈ toggling seen.1.calls ∨
        ShownAsHeld seen.1 commentId ∨ isFetching seen.1.calls = true
  | .answer index reply => ∀ call, seen.1.calls[index]? = some call →
      CallCondition seen.1 index call reply
  | _ => True

section

instance decidableShownAsHeld (bloc : Bloc) (commentId : String) :
    Decidable (ShownAsHeld bloc commentId) :=
  inferInstanceAs (Decidable (∀ isUpvote, commentId ∈ (bloc.state.votes isUpvote).ids ↔
    bloc.repository.holds commentId isUpvote = true))

instance decidableRecordsAgree (repository : LikesRepository) (commentId : String) :
    Decidable (RecordsAgree repository commentId) :=
  decidable_of_iff ((∀ reactionId ∈ find repository.likeRecords commentId,
      ∃ reaction ∈ repository.reactions, reaction.id = reactionId) ∧
    ∀ reaction ∈ repository.reactions,
      find repository.likeRecords commentId = some reaction.id ↔
        (reaction.target = commentId ∧ reaction.isUpvote = true))
    ⟨fun ⟨published, own⟩ => ⟨published, own⟩, fun ⟨published, own⟩ => ⟨published, own⟩⟩

instance decidableCallCondition (bloc : Bloc) (index : Nat) (call : Call) (reply : Reply) :
    Decidable (CallCondition bloc index call reply) := by
  unfold CallCondition
  split <;> infer_instance

instance decidableCondition (seen : Bloc × Baseline) (action : Action) :
    Decidable (Condition seen action) := by
  unfold Condition
  split <;> infer_instance

instance decidableAgrees (seen : Bloc × Baseline) : Decidable (Agrees seen) :=
  decidable_of_iff ((∀ commentId ∈ seen.1.state.upvotes.ids,
      commentId ∉ seen.1.state.downvotes.ids) ∧
    (∀ commentId ∈ seen.1.state.commentIds, ShownAsHeld seen.1 commentId) ∧
    ∀ commentId ∈ seen.1.state.commentIds, ∀ isUpvote,
      (seen.1.state.votes isUpvote).count commentId -
          (seen.2.state.votes isUpvote).count commentId =
        (seen.1.repository.holds commentId isUpvote).toInt -
          (seen.2.repository.holds commentId isUpvote).toInt)
    ⟨fun ⟨disjoint, held, counts⟩ => ⟨disjoint, held, counts⟩,
      fun ⟨disjoint, held, counts⟩ => ⟨disjoint, held, counts⟩⟩

end

/-! ### What a toggle shows -/

def Toggle.shown (toggle : Toggle) (isUpvote : Bool) : Bool :=
  if isUpvote = toggle.isUpvote then !toggle.hadSameVote
  else toggle.was isUpvote && toggle.hadSameVote

section

variable {toggle : Toggle} {votes : Votes} {other : String} {isUpvote : Bool}

def Touches (commentId : String) (before after : Votes) : Prop :=
  ∀ other, other ≠ commentId →
    (other ∈ after.ids ↔ other ∈ before.ids) ∧ after.count other = before.count other
variable {ids : List String}


theorem touches_put {commentId : String} {count : Int}
    (same : ∀ other, other ≠ commentId → (other ∈ ids ↔ other ∈ votes.ids)) :
    Touches commentId votes ⟨ids, put votes.counts commentId count⟩ := by
  intro other differs
  refine ⟨same other differs, ?_⟩
  unfold Votes.count
  rw [find_put, if_neg (Ne.symm differs)]

theorem mem_insert_of_ne {commentId : String} (differs : other ≠ commentId) :
    other ∈ ids.insert commentId ↔ other ∈ ids := by
  rw [List.mem_insert_iff]
  exact or_iff_right differs

theorem mem_filter_of_ne {commentId : String} (differs : other ≠ commentId) :
    (other ∈ ids.filter fun id => id ≠ commentId) ↔ other ∈ ids := by
  simp [differs]

theorem touches_optimistic : Touches toggle.commentId votes (toggle.optimistic isUpvote votes) := by
  unfold Toggle.optimistic
  split
  · split
    · exact touches_put fun _ => mem_filter_of_ne
    · exact touches_put fun _ => mem_insert_of_ne
  · split
    · exact touches_put fun _ => mem_filter_of_ne
    · exact fun _ _ => ⟨Iff.rfl, rfl⟩

theorem touches_reverted : Touches toggle.commentId votes (toggle.reverted isUpvote votes) := by
  unfold Toggle.reverted Votes.restore
  split
  · exact touches_put fun _ => mem_insert_of_ne
  · exact touches_put fun _ => mem_filter_of_ne

theorem count_put {commentId : String} {count : Int} :
    (Votes.mk ids (put votes.counts commentId count)).count commentId = count := by
  unfold Votes.count
  rw [find_put, if_pos rfl]
  rfl

theorem optimistic_spec (was : toggle.commentId ∈ votes.ids ↔ toggle.was isUpvote = true)
    (count : votes.count toggle.commentId = toggle.prevCount isUpvote)
    (positive : toggle.was isUpvote = true → 1 ≤ toggle.prevCount isUpvote) :
    (toggle.commentId ∈ (toggle.optimistic isUpvote votes).ids ↔ toggle.shown isUpvote = true) ∧
      (toggle.optimistic isUpvote votes).count toggle.commentId =
        toggle.prevCount isUpvote + (toggle.shown isUpvote).toInt -
          (toggle.was isUpvote).toInt := by
  unfold Toggle.optimistic Toggle.shown
  by_cases same : isUpvote = toggle.isUpvote
  · have hadSame : toggle.hadSameVote = toggle.was isUpvote := by
      unfold Toggle.hadSameVote
      rw [same]
    rw [if_pos same, if_pos same, hadSame]
    cases held : toggle.was isUpvote with
    | true =>
      have bound := positive held
      refine ⟨by simp [Votes.remove], ?_⟩
      show Votes.count ⟨_, _⟩ _ = _
      rw [count_put]
      simp only [Bool.not_true, Bool.toInt_false, Bool.toInt_true]
      omega
    | false =>
      refine ⟨by simp [Votes.add, List.mem_insert_iff], ?_⟩
      show Votes.count ⟨_, _⟩ _ = _
      rw [count_put]
      simp
  · have opposite : toggle.hadOppositeVote = toggle.was isUpvote := by
      unfold Toggle.hadOppositeVote
      rw [Bool.eq_not_of_ne same]
    rw [if_neg same, if_neg same, opposite]
    cases hadSame : toggle.hadSameVote with
    | true => simpa using ⟨was, count⟩
    | false =>
      cases held : toggle.was isUpvote with
      | true =>
        have bound := positive held
        refine ⟨by simp [Votes.remove], ?_⟩
        show Votes.count ⟨_, _⟩ _ = _
        rw [count_put]
        simp only [Bool.and_false, Bool.toInt_false, Bool.toInt_true]
        omega
      | false =>
        rw [held] at was
        simpa using ⟨mt was.mp Bool.false_ne_true, count⟩

theorem reverted_spec :
    (toggle.commentId ∈ (toggle.reverted isUpvote votes).ids ↔ toggle.was isUpvote = true) ∧
      (toggle.reverted isUpvote votes).count toggle.commentId = toggle.prevCount isUpvote := by
  unfold Toggle.reverted Votes.restore
  refine ⟨?_, count_put⟩
  cases toggle.was isUpvote with
  | true => simp [List.mem_insert_iff]
  | false => simp

theorem shown_exclusive (upvote : toggle.shown true = true) : toggle.shown false = false := by
  unfold Toggle.shown at *
  cases kind : toggle.isUpvote <;> cases same : toggle.hadSameVote <;> simp_all

end

/-! ### What is kept -/

def Call.commentId (call : Call) : Option String := call.toggle.map Toggle.commentId

def weight (commentId : String) (call : Call) : Nat :=
  if call.commentId = some commentId then 1 else 0

def Call.held (isUpvote : Bool) : Call → Bool
  | .removing toggle | .unliking toggle => toggle.was isUpvote
  | _ => false

/-- The votes before a toggle at the call that it waits for. -/
def Call.Staged : Call → Prop
  | .removing toggle => toggle.hadSameVote = true
  | .unliking toggle => toggle.hadSameVote = false ∧ toggle.hadOppositeVote = true
  | .voting toggle => toggle.hadSameVote = false
  | _ => True

structure Underway (seen : Bloc × Baseline) (call : Call) (toggle : Toggle) : Prop where
  staged : call.Staged
  exclusive : toggle.was true = true → toggle.was false = false
  prior : ∀ isUpvote, Counted seen.2 toggle.commentId isUpvote (toggle.prevCount isUpvote)
    (toggle.was isUpvote)
  shown : ∀ isUpvote, toggle.commentId ∈ (seen.1.state.votes isUpvote).ids ↔
    toggle.shown isUpvote = true
  counted : ∀ isUpvote, (seen.1.state.votes isUpvote).count toggle.commentId =
    toggle.prevCount isUpvote + (toggle.shown isUpvote).toInt - (toggle.was isUpvote).toInt
  held : ∀ isUpvote, seen.1.repository.holds toggle.commentId isUpvote = call.held isUpvote

/-- What is kept by every step that meets the condition. -/
structure Invariant (seen : Bloc × Baseline) : Prop where
  disjoint : ∀ commentId ∈ seen.1.state.upvotes.ids, commentId ∉ seen.1.state.downvotes.ids
  single : ∀ commentId, total (weight commentId) seen.1.calls ≤ 1
  held : ∀ commentId ∈ seen.1.state.commentIds, commentId ∈ toggling seen.1.calls ∨
    ShownAsHeld seen.1 commentId ∨ isFetching seen.1.calls = true
  counts : ∀ commentId, commentId ∉ toggling seen.1.calls → ∀ isUpvote,
    Counted seen.2 commentId isUpvote ((seen.1.state.votes isUpvote).count commentId)
      (seen.1.repository.holds commentId isUpvote)
  underway : ∀ call ∈ seen.1.calls, ∀ toggle, call.toggle = some toggle →
    Underway seen call toggle

theorem mem_toggling {calls : List Call} {commentId : String} :
    commentId ∈ toggling calls ↔ ∃ call ∈ calls, call.commentId = some commentId :=
  List.mem_filterMap

theorem weight_eq_zero {commentId : String} {call : Call} :
    weight commentId call = 0 ↔ call.commentId ≠ some commentId := by
  unfold weight
  split <;> simp [*]

theorem weight_of_toggle {commentId : String} {call : Call} {toggle : Toggle}
    (toggles : call.toggle = some toggle) :
    weight commentId call = if toggle.commentId = commentId then 1 else 0 := by
  unfold weight Call.commentId
  rw [toggles]
  simp

theorem isFetching_iff {calls : List Call} :
    isFetching calls = true ↔ ∃ call ∈ calls, call.toggle = none := by
  unfold isFetching
  simp [List.any_eq_true]

structure Changes (commentId : String) (before after : Bloc) : Prop where
  commentIds : after.state.commentIds = before.state.commentIds
  votes : ∀ isUpvote, Touches commentId (before.state.votes isUpvote) (after.state.votes isUpvote)
  held : ∀ other, other ≠ commentId → ∀ isUpvote,
    after.repository.holds other isUpvote = before.repository.holds other isUpvote

section

variable {before after : Bloc} {baseline : Baseline} {commentId : String}

theorem Changes.shownAsHeld (changes : Changes commentId before after) {other : String}
    (differs : other ≠ commentId) :
    ShownAsHeld after other ↔ ShownAsHeld before other :=
  forall_congr' fun isUpvote => by
    rw [(changes.votes isUpvote other differs).1, changes.held other differs isUpvote]

theorem Changes.underway (changes : Changes commentId before after) {call : Call} {toggle : Toggle}
    (differs : toggle.commentId ≠ commentId) (underway : Underway (before, baseline) call toggle) :
    Underway (after, baseline) call toggle where
  staged := underway.staged
  exclusive := underway.exclusive
  prior := underway.prior
  shown isUpvote := (changes.votes isUpvote _ differs).1.trans (underway.shown isUpvote)
  counted isUpvote := (changes.votes isUpvote _ differs).2.trans (underway.counted isUpvote)
  held isUpvote := (changes.held _ differs isUpvote).trans (underway.held isUpvote)

section

variable (invariant : Invariant (before, baseline))

include invariant

theorem Invariant.changes (changes : Changes commentId before after)
    (single : ∀ other, total (weight other) after.calls ≤ 1)
    (exclusive : commentId ∈ after.state.upvotes.ids → commentId ∉ after.state.downvotes.ids)
    (kept : ∀ call ∈ before.calls, call.commentId ≠ some commentId → call ∈ after.calls)
    (calls : ∀ call ∈ after.calls, (call ∈ before.calls ∧ call.commentId ≠ some commentId) ∨
      ∀ toggle, call.toggle = some toggle →
        toggle.commentId = commentId ∧ Underway (after, baseline) call toggle)
    (settled : commentId ∈ toggling after.calls ∨ (ShownAsHeld after commentId ∧
      ∀ isUpvote, Counted baseline commentId isUpvote
        ((after.state.votes isUpvote).count commentId)
        (after.repository.holds commentId isUpvote))) :
    Invariant (after, baseline) := by
  have toggled {other : String} (differs : other ≠ commentId)
    (member : other ∈ toggling before.calls) :
      other ∈ toggling after.calls := by
    obtain ⟨call, present, votes⟩ := mem_toggling.mp member
    refine mem_toggling.mpr ⟨call, kept call present fun same => differs ?_, votes⟩
    exact Option.some.inj (votes.symm.trans same)
  refine ⟨fun other upvoted => ?_, single, fun other listed => ?_, fun other quiet isUpvote => ?_,
    fun call member toggle toggles => ?_⟩
  · by_cases same : other = commentId
    · rw [same] at upvoted ⊢
      exact exclusive upvoted
    · have held := invariant.disjoint other (((changes.votes true) other same).1.mp upvoted)
      exact fun downvoted => held (((changes.votes false) other same).1.mp downvoted)
  · by_cases same : other = commentId
    · rw [same]
      exact settled.imp_right fun agreed => .inl agreed.1
    · rw [changes.commentIds] at listed
      rcases invariant.held other listed with inProgress | shown | fetching
      · exact .inl (toggled same inProgress)
      · exact .inr (.inl ((changes.shownAsHeld same).mpr shown))
      · obtain ⟨call, present, fetches⟩ := isFetching_iff.mp fetching
        refine .inr (.inr (isFetching_iff.mpr ⟨call, kept call present ?_, fetches⟩))
        unfold Call.commentId
        rw [fetches]
        exact nofun
  · by_cases same : other = commentId
    · rw [same] at quiet ⊢
      exact (settled.resolve_left quiet).2 isUpvote
    · have counted :=
        invariant.counts other (fun inProgress => quiet (toggled same inProgress)) isUpvote
      rw [(changes.votes isUpvote other same).2, changes.held other same isUpvote]
      exact counted
  · rcases calls call member with ⟨present, differs⟩ | own
    · refine changes.underway (fun same => differs ?_)
        (invariant.underway call present toggle toggles)
      unfold Call.commentId
      rw [toggles, ← same, Option.map_some]
    · exact (own toggle toggles).2

theorem Invariant.quiet
    (votes : ∀ isUpvote, after.state.votes isUpvote = before.state.votes isUpvote)
    (repository : after.repository = before.repository)
    (single : ∀ other, total (weight other) after.calls ≤ total (weight other) before.calls)
    (calls : ∀ call toggle, call.toggle = some toggle →
      (call ∈ after.calls ↔ call ∈ before.calls))
    (held : ∀ commentId ∈ after.state.commentIds, commentId ∈ toggling before.calls ∨
      ShownAsHeld before commentId ∨ isFetching after.calls = true) :
    Invariant (after, baseline) := by
  have toggled (other : String) : other ∈ toggling after.calls ↔ other ∈ toggling before.calls := by
    rw [mem_toggling, mem_toggling]
    refine exists_congr fun call => and_congr_left fun own => ?_
    obtain ⟨toggle, toggles, -⟩ := Option.map_eq_some_iff.mp own
    exact calls call toggle toggles
  have shown (other : String) : ShownAsHeld after other ↔ ShownAsHeld before other :=
    forall_congr' fun isUpvote => by rw [votes, repository]
  refine ⟨fun other upvoted downvoted => ?_, fun other => (single other).trans
    (invariant.single other), fun other listed => ?_, fun other quiet isUpvote => ?_,
    fun call member toggle toggles => ?_⟩
  · have upvotes : other ∈ before.state.upvotes.ids := by
      have same : after.state.upvotes = before.state.upvotes := votes true
      rwa [← same]
    refine invariant.disjoint other upvotes ?_
    have same : after.state.downvotes = before.state.downvotes := votes false
    rwa [← same]
  · rw [toggled, shown]
    exact held other listed
  · rw [toggled] at quiet
    rw [votes, repository]
    exact invariant.counts other quiet isUpvote
  · have earlier := invariant.underway call ((calls call toggle toggles).mp member) toggle toggles
    refine ⟨earlier.staged, earlier.exclusive, earlier.prior, fun isUpvote => ?_,
      fun isUpvote => ?_,
      fun isUpvote => ?_⟩
    · rw [votes]
      exact earlier.shown isUpvote
    · rw [votes]
      exact earlier.counted isUpvote
    · rw [repository]
      exact earlier.held isUpvote

theorem Invariant.answer {index : Nat} {call : Call}
    {toggle : Toggle} (present : before.calls[index]? = some call)
    (toggles : call.toggle = some toggle) (next : Option Call)
    (goesOn : after.calls = proceed before.calls index next)
    (changes : Changes toggle.commentId before after) {votes : Bool → Bool}
    (exclusive : votes true = true → votes false = false)
    (shown : ∀ isUpvote, toggle.commentId ∈ (after.state.votes isUpvote).ids ↔
      votes isUpvote = true)
    (counted : ∀ isUpvote, (after.state.votes isUpvote).count toggle.commentId =
      toggle.prevCount isUpvote + (votes isUpvote).toInt - (toggle.was isUpvote).toInt)
    (stages : ∀ stage, next = some stage → stage.toggle = some toggle ∧
      Underway (after, baseline) stage toggle) (ends : next = none → ∀ isUpvote,
      after.repository.holds toggle.commentId isUpvote = votes isUpvote) :
    Invariant (after, baseline) := by
  have own : call.commentId = some toggle.commentId := by
    unfold Call.commentId
    rw [toggles, Option.map_some]
  have heavy : weight toggle.commentId call = 1 := if_pos own
  have earlier := invariant.underway call (List.mem_of_getElem? present) toggle toggles
  refine invariant.changes changes (fun other => ?_) ?_ (fun other member differs => ?_)
    (fun other member => ?_) ?_
  · have exchanged := total_proceed (weight other) present next
    have bound := invariant.single other
    rw [goesOn]
    have lighter : weightOf (weight other) next ≤ weight other call := by
      cases next with
      | none => exact Nat.zero_le _
      | some stage =>
        show weight other stage ≤ _
        rw [weight_of_toggle (stages stage rfl).1, weight_of_toggle toggles]
    change total (weight other) before.calls ≤ 1 at bound
    omega
  · intro upvoted downvoted
    have none := exclusive ((shown true).mp upvoted)
    rw [(shown false).mp downvoted] at none
    cases none
  · rw [goesOn]
    rcases mem_proceed_of_mem member index next with same | kept
    · rw [present] at same
      exact absurd (Option.some.inj same ▸ own) differs
    · exact kept
  · rw [goesOn] at member
    rcases mem_proceed member with stage | kept
    · refine .inr fun found finds => ?_
      obtain ⟨votes, underway⟩ := stages other stage
      cases votes.symm.trans finds
      exact ⟨rfl, underway⟩
    · refine .inl ⟨List.mem_of_mem_eraseIdx kept, ?_⟩
      refine weight_eq_zero.mp (weight_eq_zero_of_mem_eraseIdx (invariant.single _) present ?_ kept)
      omega
  · cases next with
    | some stage =>
      refine .inl (mem_toggling.mpr ⟨stage, ?_, ?_⟩)
      · rw [goesOn]
        exact mem_proceed_next present stage
      · unfold Call.commentId
        rw [(stages stage rfl).1, Option.map_some]
    | none =>
      refine .inr ⟨fun isUpvote => ?_, fun isUpvote => ?_⟩
      · rw [shown, ends rfl]
      · have prior : toggle.prevCount isUpvote - (baseline.state.votes isUpvote).count _ =
          (toggle.was isUpvote).toInt - (baseline.repository.holds _ isUpvote).toInt :=
          earlier.prior isUpvote
        unfold Counted
        rw [counted, ends rfl]
        omega

end
variable {state : CommentsState}


theorem changes_votes {repository : LikesRepository} {calls : List Call}
    (commentIds : state.commentIds = before.state.commentIds)
    (votes : ∀ isUpvote, state.votes isUpvote = before.state.votes isUpvote)
    (held : ∀ other, other ≠ commentId → ∀ isUpvote,
      repository.holds other isUpvote = before.repository.holds other isUpvote) :
    Changes commentId before ⟨state, repository, calls⟩ where
  commentIds := commentIds
  votes isUpvote := by
    rw [votes]
    exact fun _ _ => ⟨Iff.rfl, rfl⟩
  held := held

theorem votes_reverts {toggle : Toggle} (isUpvote : Bool) :
    (toggle.reverts state).votes isUpvote = toggle.reverted isUpvote (state.votes isUpvote) := by
  cases isUpvote <;> rfl

theorem votes_shows {toggle : Toggle} (isUpvote : Bool) :
    (toggle.shows state).votes isUpvote = toggle.optimistic isUpvote (state.votes isUpvote) := by
  cases isUpvote <;> rfl

theorem Invariant.reverts (invariant : Invariant (before, baseline)) {index : Nat} {call : Call}
    {toggle : Toggle} (present : before.calls[index]? = some call)
    (toggles : call.toggle = some toggle)
    (held : ∀ isUpvote, call.held isUpvote = toggle.was isUpvote) :
    Invariant (⟨toggle.reverts before.state, before.repository, proceed before.calls index none⟩,
      baseline) := by
  have earlier := invariant.underway call (List.mem_of_getElem? present) toggle toggles
  refine invariant.answer present toggles none rfl ⟨rfl, fun isUpvote => ?_, fun _ _ _ => rfl⟩
    earlier.exclusive (fun isUpvote => ?_) (fun isUpvote => ?_) nofun
    (fun _ isUpvote => (earlier.held isUpvote).trans (held isUpvote))
  · show Touches _ _ ((toggle.reverts before.state).votes isUpvote)
    rw [votes_reverts]
    exact touches_reverted
  · show _ ∈ ((toggle.reverts before.state).votes isUpvote).ids ↔ _
    rw [votes_reverts]
    exact reverted_spec.1
  · show ((toggle.reverts before.state).votes isUpvote).count _ = _
    rw [votes_reverts, reverted_spec.2]
    omega

theorem Invariant.publishes (invariant : Invariant (before, baseline)) {index : Nat} {call : Call}
    {toggle : Toggle} {repository : LikesRepository} (present : before.calls[index]? = some call)
    (toggles : call.toggle = some toggle)
    (held : ∀ isUpvote, repository.holds toggle.commentId isUpvote = toggle.shown isUpvote)
    (others : ∀ other, other ≠ toggle.commentId → ∀ isUpvote,
      repository.holds other isUpvote = before.repository.holds other isUpvote) :
    Invariant (⟨before.state.copyWith before.state.commentIds none, repository,
      proceed before.calls index none⟩, baseline) := by
  have earlier := invariant.underway call (List.mem_of_getElem? present) toggle toggles
  refine invariant.answer present toggles none rfl
    (changes_votes rfl (fun isUpvote => by cases isUpvote <;> rfl) others)
    shown_exclusive (fun isUpvote => ?_) (fun isUpvote => ?_) nofun
    (fun _ => held)
  · exact earlier.shown isUpvote
  · exact earlier.counted isUpvote

end

/-! ### What a call changes -/

section

variable {repository : LikesRepository} {commentId : String}

theorem holds_iff {isUpvote : Bool} : repository.holds commentId isUpvote = true ↔
    ∃ reaction ∈ repository.reactions,
      reaction.target = commentId ∧ reaction.isUpvote = isUpvote := by
  unfold LikesRepository.holds
  simp [List.any_eq_true]

section

variable (agree : RecordsAgree repository commentId)

include agree

theorem find_of_unheld (unheld : repository.holds commentId true = false) :
    find repository.likeRecords commentId = none := by
  cases found : find repository.likeRecords commentId with
  | none => rfl
  | some reactionId =>
    obtain ⟨reaction, present, rfl⟩ := agree.published reactionId found
    rw [holds_iff.mpr ⟨reaction, present, (agree.own reaction present).mp found⟩] at unheld
    cases unheld

theorem unlikeEvent_of_unheld (unheld : repository.holds commentId true = false) :
    repository.unlikeEvent commentId = none := by
  unfold LikesRepository.unlikeEvent
  rw [find_of_unheld agree unheld, Option.map_none]

theorem unlikeEvent_of_held (held : repository.holds commentId true = true) :
    ∃ after, repository.unlikeEvent commentId = some after ∧
      after.holds commentId true = false ∧
      ∀ other isUpvote, other ≠ commentId ∨ isUpvote = false →
        after.holds other isUpvote = repository.holds other isUpvote := by
  obtain ⟨upvote, present, votes⟩ := holds_iff.mp held
  have found := (agree.own upvote present).mpr votes
  refine ⟨_, congrArg (Option.map _) found, ?_, fun other isUpvote differs => ?_⟩
  · refine Bool.eq_false_iff.mpr fun still => ?_
    obtain ⟨reaction, kept, again⟩ := holds_iff.mp still
    obtain ⟨member, differs⟩ := List.mem_filter.mp kept
    have same := (agree.own reaction member).mpr again
    rw [found] at same
    simp [Option.some.inj same] at differs
  · refine Bool.eq_iff_iff.mpr ?_
    rw [holds_iff, holds_iff]
    refine exists_congr fun reaction => and_congr_left fun votes => ?_
    rw [List.mem_filter]
    refine and_iff_left_of_imp fun member => decide_eq_true fun same => ?_
    obtain ⟨target, kind⟩ := (agree.own reaction member).mp (found.trans (congrArg some same.symm))
    rcases differs with differs | downvote
    · exact differs (votes.1.symm.trans target)
    · rw [← votes.2, kind] at downvote
      cases downvote

theorem toggleLike_of_held (held : repository.holds commentId true = true) (reactionId : String) :
    repository.toggleLike commentId reactionId = repository.unlikeEvent commentId := by
  obtain ⟨upvote, present, votes⟩ := holds_iff.mp held
  have found := (agree.own upvote present).mpr votes
  unfold LikesRepository.toggleLike
  rw [found]
  rfl

end

theorem holds_append {reaction : Reaction} {records : List (String × String)} {other : String}
    {isUpvote : Bool} :
    (LikesRepository.mk records (repository.reactions ++ [reaction])).holds other isUpvote =
      (repository.holds other isUpvote ||
        decide (reaction.target = other ∧ reaction.isUpvote = isUpvote)) := by
  unfold LikesRepository.holds
  simp

end

/-! ### Steps -/

section

variable {bloc : Bloc} {baseline : Baseline} {index : Nat} {toggle : Toggle}

theorem was_of_not_opposite (isUpvote : Bool) (fresh : toggle.hadSameVote = false)
    (alone : toggle.hadOppositeVote = false) : toggle.was isUpvote = false := by
  by_cases same : isUpvote = toggle.isUpvote
  · rw [same]
    exact fresh
  · rw [Bool.eq_not_of_ne same]
    exact alone

theorem toggle_spec (commentId : String) (isUpvote : Bool)
    (unmarked : bloc.state.voteInProgressCommentId ≠ some commentId)
    (exclusive : commentId ∈ bloc.state.upvotes.ids → commentId ∉ bloc.state.downvotes.ids) :
    ∃ toggle call, bloc.toggle commentId isUpvote =
        ⟨toggle.shows bloc.state, bloc.repository, bloc.calls ++ [call]⟩ ∧
      toggle.commentId = commentId ∧ call.toggle = some toggle ∧ call.Staged ∧
      (toggle.was true = true → toggle.was false = false) ∧
      (∀ side, commentId ∈ (bloc.state.votes side).ids ↔ toggle.was side = true) ∧
      (∀ side, (bloc.state.votes side).count commentId = toggle.prevCount side) ∧
      ∀ side, call.held side = toggle.was side := by
  unfold Bloc.toggle
  rw [if_neg unmarked]
  refine ⟨_, _, rfl, rfl, ?_, ?_, fun upvoted => ?_, fun side => ?_, fun side => ?_, fun side => ?_⟩
  · split
    · rfl
    · split <;> rfl
  · split
    · assumption
    · split
      · exact ⟨eq_false_of_ne_true ‹_›, ‹_›⟩
      · exact eq_false_of_ne_true ‹_›
  · exact Bool.eq_false_iff.mpr fun downvoted =>
      exclusive (List.contains_iff_mem.mp upvoted) (List.contains_iff_mem.mp downvoted)
  · cases side <;> exact List.contains_iff_mem.symm
  · cases side <;> rfl
  · split
    · rfl
    · split
      · rfl
      · exact (was_of_not_opposite side (eq_false_of_ne_true ‹_›) (eq_false_of_ne_true ‹_›)).symm

theorem Invariant.starts (invariant : Invariant (bloc, baseline)) (commentId : String)
    (isUpvote : Bool) (free : commentId ∉ toggling bloc.calls) (agreed : ShownAsHeld bloc commentId)
    (positive : ∀ side, commentId ∈ (bloc.state.votes side).ids →
      1 ≤ (bloc.state.votes side).count commentId) :
    Invariant (bloc.toggle commentId isUpvote, baseline) := by
  by_cases marked : bloc.state.voteInProgressCommentId = some commentId
  · unfold Bloc.toggle
    rw [if_pos marked]
    exact invariant
  obtain ⟨toggle, call, starts, rfl, toggles, staged, exclusive, was, count, held⟩ :=
    toggle_spec commentId isUpvote marked (invariant.disjoint commentId)
  rw [starts]
  have own : call.commentId = some toggle.commentId := by
    unfold Call.commentId
    rw [toggles, Option.map_some]
  have shows (side : Bool) := optimistic_spec (was side) (count side)
    fun before => (count side) ▸ positive side ((was side).mpr before)
  have ahead (side : Bool) : bloc.repository.holds toggle.commentId side = toggle.was side :=
    Bool.eq_iff_iff.mpr ((agreed side).symm.trans (was side))
  have changes : Changes toggle.commentId bloc
      ⟨toggle.shows bloc.state, bloc.repository, bloc.calls ++ [call]⟩ := by
    refine ⟨rfl, fun side => ?_, fun _ _ _ => rfl⟩
    rw [votes_shows]
    exact touches_optimistic
  refine invariant.changes changes (fun other => ?_) ?_
    (fun other member _ => List.mem_append_left _ member) (fun other member => ?_) (.inl ?_)
  · rw [total_append, total_cons, total_nil]
    by_cases same : toggle.commentId = other
    · have none : total (weight other) bloc.calls = 0 := total_eq_zero fun call member =>
        weight_eq_zero.mpr fun votes => free (mem_toggling.mpr ⟨call, member, same ▸ votes⟩)
      rw [none, weight_of_toggle toggles, if_pos same]
    · rw [weight_of_toggle toggles, if_neg same]
      exact invariant.single other
  · intro upvoted downvoted
    have none := shown_exclusive ((shows true).1.mp upvoted)
    rw [(shows false).1.mp downvoted] at none
    cases none
  · rcases List.mem_append.mp member with present | added
    · exact .inl ⟨present, fun votes => free (mem_toggling.mpr ⟨other, present, votes⟩)⟩
    · obtain rfl := List.mem_singleton.mp added
      refine .inr fun found finds => ?_
      cases toggles.symm.trans finds
      refine ⟨rfl, staged, exclusive, fun side => ?_, fun side => ?_, fun side => ?_,
        fun side => ?_⟩
      · have counted := invariant.counts _ free side
        rwa [← count, ← ahead]
      · show _ ∈ ((toggle.shows bloc.state).votes side).ids ↔ _
        rw [votes_shows]
        exact (shows side).1
      · show ((toggle.shows bloc.state).votes side).count _ = _
        rw [votes_shows]
        exact (shows side).2
      · exact (ahead side).trans (held side).symm
  · exact mem_toggling.mpr ⟨call, List.mem_append_right _ List.mem_cons_self, own⟩

def goesOn (bloc : Bloc) (index : Nat) (outcome : CommentsState × LikesRepository × Option Call) :
    Bloc :=
  ⟨outcome.1, outcome.2.1, proceed bloc.calls index outcome.2.2⟩

section

variable (invariant : Invariant (bloc, baseline))

include invariant

theorem Invariant.removes (present : bloc.calls[index]? = some (.removing toggle))
    (agree : RecordsAgree bloc.repository toggle.commentId) (reactionId : String) :
    Invariant (goesOn bloc index (bloc.resumeToggle (.removing toggle) toggle
      (bloc.publish reactionId (.removing toggle))), baseline) := by
  have earlier := invariant.underway _ (List.mem_of_getElem? present) toggle rfl
  have same : toggle.was toggle.isUpvote = true := earlier.staged
  simp only [Bloc.publish]
  cases kind : toggle.isUpvote with
  | true =>
    rw [kind] at same
    have held : bloc.repository.holds toggle.commentId true = true := (earlier.held true).trans same
    obtain ⟨after, unliked, gone, others⟩ := unlikeEvent_of_held agree held
    rw [if_pos rfl, toggleLike_of_held agree held, unliked]
    refine invariant.publishes present rfl (fun side => ?_) fun other differs side =>
      others other side (.inl differs)
    unfold Toggle.shown Toggle.hadSameVote
    rw [kind, same]
    cases side with
    | true => exact gone
    | false =>
      rw [if_neg Bool.false_ne_true, Bool.and_true]
      exact (others _ false (.inr rfl)).trans (earlier.held false)
  | false =>
    rw [kind] at same
    have unheld : bloc.repository.holds toggle.commentId true = false := by
      refine (earlier.held true).trans (Bool.eq_false_iff.mpr fun upvoted => ?_)
      rw [earlier.exclusive upvoted] at same
      cases same
    rw [if_neg Bool.false_ne_true, unlikeEvent_of_unheld agree unheld]
    exact invariant.reverts present rfl fun _ => rfl

theorem Invariant.unlikes (present : bloc.calls[index]? = some (.unliking toggle))
    (agree : RecordsAgree bloc.repository toggle.commentId) (reactionId : String) :
    Invariant (goesOn bloc index (bloc.resumeToggle (.unliking toggle) toggle
      (bloc.publish reactionId (.unliking toggle))), baseline) := by
  have earlier := invariant.underway _ (List.mem_of_getElem? present) toggle rfl
  obtain ⟨fresh, opposite⟩ := earlier.staged
  have same : toggle.was toggle.isUpvote = false := fresh
  change toggle.was (!toggle.isUpvote) = true at opposite
  simp only [Bloc.publish]
  cases kind : toggle.isUpvote with
  | true =>
    rw [kind] at same
    rw [unlikeEvent_of_unheld agree ((earlier.held true).trans same)]
    exact invariant.reverts present rfl fun _ => rfl
  | false =>
    rw [kind] at same opposite
    obtain ⟨after, unliked, gone, others⟩ :=
      unlikeEvent_of_held agree ((earlier.held true).trans opposite)
    rw [unliked]
    refine invariant.answer present rfl (some (.voting toggle)) rfl
      (changes_votes rfl (fun _ => rfl) fun other differs side => others other side (.inl differs))
      shown_exclusive earlier.shown earlier.counted (fun stage goes => ?_) nofun
    cases goes
    refine ⟨rfl, fresh, earlier.exclusive, earlier.prior, earlier.shown, earlier.counted,
      fun side => ?_⟩
    cases side with
    | true => exact gone
    | false => exact (others _ false (.inr rfl)).trans ((earlier.held false).trans same)

theorem Invariant.votes (present : bloc.calls[index]? = some (.voting toggle))
    (agree : RecordsAgree bloc.repository toggle.commentId) (reactionId : String) :
    Invariant (goesOn bloc index (bloc.resumeToggle (.voting toggle) toggle
      (bloc.publish reactionId (.voting toggle))), baseline) := by
  have earlier := invariant.underway _ (List.mem_of_getElem? present) toggle rfl
  have fresh : toggle.hadSameVote = false := earlier.staged
  have added (records : List (String × String)) :
      Invariant (⟨bloc.state.copyWith bloc.state.commentIds none, ⟨records,
        bloc.repository.reactions ++ [⟨reactionId, toggle.commentId, toggle.isUpvote⟩]⟩,
        proceed bloc.calls index none⟩, baseline) := by
    refine invariant.publishes present rfl (fun side => ?_) fun other differs side => ?_
    · have unheld : bloc.repository.holds toggle.commentId side = false := earlier.held side
      rw [holds_append, unheld]
      unfold Toggle.shown
      rw [fresh]
      cases side <;> cases toggle.isUpvote <;> simp
    · rw [holds_append]
      simp [Ne.symm differs]
  simp only [Bloc.publish]
  cases kind : toggle.isUpvote with
  | true =>
    rw [kind] at added
    have unheld : bloc.repository.holds toggle.commentId true = false := earlier.held true
    have liked : bloc.repository.likeEvent toggle.commentId reactionId = some
        ⟨put bloc.repository.likeRecords toggle.commentId reactionId,
          bloc.repository.reactions ++ [⟨reactionId, toggle.commentId, true⟩]⟩ := by
      unfold LikesRepository.likeEvent
      rw [find_of_unheld agree unheld]
      rfl
    rw [if_pos rfl, liked]
    exact added _
  | false =>
    rw [kind] at added
    exact added bloc.repository.likeRecords

theorem Invariant.fails {call : Call}
    (present : bloc.calls[index]? = some call) (toggles : call.toggle = some toggle)
    (alone : ∀ toggle, call = .voting toggle → toggle.hadOppositeVote = false) :
    Invariant (goesOn bloc index (bloc.resumeToggle call toggle none), baseline) := by
  have earlier := invariant.underway call (List.mem_of_getElem? present) toggle toggles
  refine invariant.reverts present toggles fun side => ?_
  cases call with
  | removing | unliking =>
    cases toggles
    rfl
  | voting other =>
    obtain rfl := Option.some.inj toggles
    exact (was_of_not_opposite side earlier.staged (alone other rfl)).symm
  | requested | fetching => cases toggles

theorem Invariant.copies {commentIds : List String}
    (error : Option CommentsError) {calls : List Call}
    (single : ∀ other, total (weight other) calls ≤ total (weight other) bloc.calls)
    (same : ∀ call toggle, call.toggle = some toggle → (call ∈ calls ↔ call ∈ bloc.calls))
    (held : ∀ commentId ∈ commentIds, commentId ∈ toggling bloc.calls ∨
      ShownAsHeld bloc commentId ∨ isFetching calls = true) :
    Invariant (⟨bloc.state.copyWith commentIds error, bloc.repository, calls⟩, baseline) :=
  invariant.quiet (fun isUpvote => by cases isUpvote <;> rfl) rfl single same held

end

theorem same_toggles {call : Call} (present : bloc.calls[index]? = some call)
    (idle : call.toggle = none) {next : Option Call}
    (rests : ∀ stage, next = some stage → stage.toggle = none) :
    (∀ other, total (weight other) (proceed bloc.calls index next) ≤
      total (weight other) bloc.calls) ∧
    ∀ other toggle, other.toggle = some toggle →
      (other ∈ proceed bloc.calls index next ↔ other ∈ bloc.calls) := by
  refine ⟨fun other => ?_, fun other toggle toggles => ⟨fun member => ?_, fun member => ?_⟩⟩
  · have exchanged := total_proceed (weight other) present next
    have none : weightOf (weight other) next = 0 := by
      cases next with
      | none => rfl
      | some stage =>
        refine weight_eq_zero.mpr ?_
        unfold Call.commentId
        rw [rests stage rfl, Option.map_none]
        exact nofun
    omega
  · rcases mem_proceed member with stage | kept
    · rw [rests other stage] at toggles
      cases toggles
    · exact List.mem_of_mem_eraseIdx kept
  · rcases mem_proceed_of_mem member index next with same | kept
    · rw [present] at same
      rw [← Option.some.inj same, idle] at toggles
      cases toggles
    · exact kept

theorem Invariant.fetched (invariant : Invariant (bloc, baseline)) {commentIds : List String}
    (present : bloc.calls[index]? = some (.fetching commentIds)) {upvotes downvotes : Votes}
    (condition : CallCondition bloc index (.fetching commentIds) (.fetched upvotes downvotes)) :
    Invariant (⟨{ bloc.state.copyWith bloc.state.commentIds none with
        upvotes := upvotes, downvotes := downvotes }, bloc.repository,
      proceed bloc.calls index none⟩,
      ⟨{ bloc.state.copyWith bloc.state.commentIds none with
        upvotes := upvotes, downvotes := downvotes }, bloc.repository⟩) := by
  obtain ⟨idle, disjoint, held⟩ := condition
  obtain ⟨single, same⟩ := same_toggles present rfl (fun stage (goes : none = some stage) => by
    cases goes)
  refine ⟨disjoint, fun other => (single other).trans (invariant.single other),
    fun other listed => .inr (.inl fun isUpvote => ?_), fun other _ isUpvote => ?_,
    fun call member toggle toggles => ?_⟩
  · cases isUpvote with
    | true => exact (held other listed).1
    | false => exact (held other listed).2
  · unfold Counted
    rw [Int.sub_self, Int.sub_self]
  · have votes : toggle.commentId ∈ toggling bloc.calls := by
      refine mem_toggling.mpr ⟨call, (same call toggle toggles).mp member, ?_⟩
      unfold Call.commentId
      rw [toggles, Option.map_some]
    rw [idle] at votes
    cases votes

theorem Invariant.resumes (invariant : Invariant (bloc, baseline)) {call : Call} {reply : Reply}
    (present : bloc.calls[index]? = some call) (condition : CallCondition bloc index call reply)
    {state : CommentsState} {repository : LikesRepository} {stage : Option Call} {fetched : Bool}
    (resumed : bloc.resume call reply = some (state, repository, stage, fetched)) :
    Invariant (⟨state, repository, proceed bloc.calls index stage⟩,
      if fetched then ⟨state, repository⟩ else baseline) := by
  unfold Bloc.resume at resumed
  split at resumed
  · split at resumed
    · rename_i none
      obtain ⟨rfl, rfl, rfl, rfl⟩ := resumed
      obtain ⟨single, same⟩ :=
        same_toggles present rfl (fun stage (goes : Option.none = some stage) =>
        by cases goes)
      refine invariant.quiet (fun _ => rfl) rfl single same fun commentId listed => ?_
      rw [List.isEmpty_iff.mp none] at listed
      cases listed
    · obtain ⟨rfl, rfl, rfl, rfl⟩ := resumed
      obtain ⟨single, same⟩ := same_toggles present rfl (fun stage
        (goes : some (.fetching bloc.state.commentIds) = some stage) => Option.some.inj goes ▸ rfl)
      exact invariant.quiet (fun _ => rfl) rfl single same fun _ _ =>
        .inr (.inr (isFetching_iff.mpr ⟨_, mem_proceed_next present _, rfl⟩))
  · obtain ⟨rfl, rfl, rfl, rfl⟩ := resumed
    exact invariant.fetched present condition
  · obtain ⟨rfl, rfl, rfl, rfl⟩ := resumed
    obtain ⟨single, same⟩ := same_toggles present rfl (fun stage (goes : none = some stage) => by
      cases goes)
    refine invariant.quiet (fun _ => rfl) rfl single same fun commentId listed => ?_
    rcases condition with others | agreed
    · exact .inr (.inr others)
    · exact (agreed commentId listed).imp_right .inl
  · rename_i reactionId
    obtain ⟨toggle, toggles, same⟩ := Option.map_eq_some_iff.mp resumed
    obtain ⟨rfl, rfl, rfl, rfl⟩ := same
    cases call with
    | removing other =>
      cases toggles
      exact invariant.removes present condition reactionId
    | unliking other =>
      cases toggles
      exact invariant.unlikes present condition reactionId
    | voting other =>
      cases toggles
      exact invariant.votes present condition reactionId
    | requested | fetching => cases toggles
  · obtain ⟨toggle, toggles, same⟩ := Option.map_eq_some_iff.mp resumed
    obtain ⟨rfl, rfl, rfl, rfl⟩ := same
    refine invariant.fails present toggles fun other votes => ?_
    rw [votes] at condition
    exact condition
  · cases resumed

end

theorem requests (calls : List Call) :
    (∀ other, total (weight other) (calls ++ [.requested]) ≤ total (weight other) calls) ∧
      (∀ call toggle, call.toggle = some toggle → (call ∈ calls ++ [.requested] ↔ call ∈ calls)) ∧
      isFetching (calls ++ [.requested]) = true := by
  refine ⟨fun other => ?_, fun call toggle toggles => ?_, isFetching_iff.mpr
    ⟨.requested, List.mem_append_right _ List.mem_cons_self, rfl⟩⟩
  · rw [total_append]
    exact le_rfl
  · rw [List.mem_append, List.mem_singleton]
    refine or_iff_left fun same => ?_
    rw [same] at toggles
    cases toggles

theorem Invariant.step {seen next : Bloc × Baseline} {action : Action} (invariant : Invariant seen)
    (condition : Condition seen action) (stepped : watched step observe seen action = some next) :
    Invariant next := by
  obtain ⟨bloc, baseline⟩ := seen
  obtain ⟨after, history⟩ := next
  obtain ⟨effect, went, observed⟩ := watched_eq_some.mp stepped
  have recorded : history = if effect then ⟨after.state, after.repository⟩ else baseline := observed
  have unfetched (none : false = effect) : history = baseline := by
    rw [recorded, ← none]
    rfl
  cases action with
  | toggled commentId isUpvote isAuthenticated =>
    have ended := Prod.mk.inj (Option.some.inj went)
    obtain rfl : bloc.toggled commentId isUpvote isAuthenticated = after := ended.1
    obtain rfl := unfetched ended.2
    by_cases dropped : bloc.toggled commentId isUpvote isAuthenticated = bloc
    · rw [dropped]
      exact invariant
    · unfold Bloc.toggled at *
      split
      · rename_i busy
        exact absurd (if_pos busy) dropped
      · split
        · exact invariant.copies _ (fun _ => le_rfl) (fun _ _ _ => Iff.rfl) invariant.held
        · rename_i free authenticated
          rcases condition with same | stopped | ⟨free, agreed, positive⟩
          · exact absurd same dropped
          · rw [stopped] at authenticated
            exact absurd rfl authenticated
          · exact invariant.starts commentId isUpvote free agreed positive
  | fetchRequested =>
    have ended := Prod.mk.inj (Option.some.inj went)
    obtain rfl : (⟨bloc.state, bloc.repository, bloc.calls ++ [.requested]⟩ : Bloc) =
      after := ended.1
    obtain rfl := unfetched ended.2
    obtain ⟨single, same, fetching⟩ := requests bloc.calls
    exact invariant.quiet (fun _ => rfl) rfl single same fun _ _ => .inr (.inr fetching)
  | loaded commentIds =>
    have ended := Prod.mk.inj (Option.some.inj went)
    obtain rfl : (⟨bloc.state.copyWith commentIds none, bloc.repository,
      bloc.calls ++ [.requested]⟩ : Bloc) = after := ended.1
    obtain rfl := unfetched ended.2
    obtain ⟨single, same, fetching⟩ := requests bloc.calls
    exact invariant.copies _ single same fun _ _ => .inr (.inr fetching)
  | changed commentIds error =>
    have ended := Prod.mk.inj (Option.some.inj went)
    obtain rfl : (⟨bloc.state.copyWith commentIds error, bloc.repository, bloc.calls⟩ : Bloc) =
      after := ended.1
    obtain rfl := unfetched ended.2
    refine invariant.copies _ (fun _ => le_rfl) (fun _ _ _ => Iff.rfl) fun commentId listed => ?_
    rcases condition commentId listed with before | others
    · exact invariant.held commentId before
    · exact others
  | answer index reply =>
    obtain ⟨call, present, answered⟩ := Option.bind_eq_some_iff.mp went
    obtain ⟨⟨state, repository, stage, fetched⟩, resumed, ended⟩ :=
      Option.map_eq_some_iff.mp answered
    obtain ⟨same, rfl⟩ := Prod.mk.inj ended
    obtain rfl : ⟨state, repository, proceed bloc.calls index stage⟩ = after := same
    have kept := invariant.resumes present (condition call present) resumed
    rw [recorded]
    exact kept

/-- What is shown agrees with what is held whenever nothing is in progress. -/
theorem votes_agree_of_run {repository : LikesRepository} {actions : List Action}
    {final : Bloc × Baseline}
    (meets : Meets (watched step observe) Condition
      (initialBloc repository, ⟨(initialBloc repository).state, repository⟩) actions)
    (ran : run (watched step observe)
      (initialBloc repository, ⟨(initialBloc repository).state, repository⟩) actions = some final)
    (quiet : final.1.calls = []) : Agrees final := by
  have initial :
    Invariant (initialBloc repository, ⟨(initialBloc repository).state, repository⟩) := by
    refine ⟨nofun, fun _ => Nat.zero_le 1,
      nofun, fun _ _ isUpvote => ?_, nofun⟩
    exact (Int.sub_self _).trans (Int.sub_self _).symm
  have kept := invariant_of_meets _ (fun _ _ _ invariant condition stepped =>
    invariant.step condition stepped) initial meets ran
  have idle (commentId : String) : commentId ∉ toggling final.1.calls := by
    rw [quiet]
    exact List.not_mem_nil
  refine ⟨kept.disjoint, fun commentId listed => ?_, fun commentId _ => kept.counts _ (idle _)⟩
  rcases kept.held commentId listed with votes | agreed | fetching
  · exact absurd votes (idle commentId)
  · exact agreed
  · rw [quiet] at fetching
    cases fetching

section

def shownAfter (actions : List Action) : Option (Bloc × Baseline) :=
  run (watched step observe)
    (initialBloc ⟨[], []⟩, ⟨(initialBloc ⟨[], []⟩).state, ⟨[], []⟩⟩) actions

/-- A comment is loaded, and its votes are fetched: two upvotes of others. -/
def loads : List Action :=
  [.loaded ["comment"], .answer 0 .started,
    .answer 0 (.fetched ⟨[], [("comment", 2)]⟩ ⟨[], []⟩)]

def votesTwice : List Action :=
  loads ++ [.toggled "comment" true true, .answer 0 (.succeeded "upvote"),
    .toggled "comment" true true, .changed ["comment", "reply"] none,
      .answer 0 (.succeeded "deletion"),
    .toggled "comment" false true, .answer 0 .failed]

theorem agrees_votesTwice : ∃ final, shownAfter votesTwice = some final ∧ Agrees final := by
  obtain ⟨final, ran, quiet⟩ := @exists_of_any _ (shownAfter votesTwice)
    (fun final => final.1.calls = []) _ (by decide +kernel)
  exact ⟨final, ran, votes_agree_of_run (by decide +kernel) ran quiet⟩

/-- The votes that were requested before an upvote come before its answer. -/
def fetchesLate : List Action :=
  [.loaded ["comment"], .answer 0 .started, .toggled "comment" true true,
    .answer 0 (.fetched ⟨[], []⟩ ⟨[], []⟩), .answer 0 (.succeeded "upvote")]

def switches : List Action :=
  loads ++ [.toggled "comment" true true, .answer 0 (.succeeded "upvote"),
    .toggled "comment" false true, .answer 0 (.succeeded "deletion"), .answer 0 .failed]

/-- Another event comes between an upvote and a downvote of the same comment, which both fail. -/
def unmarks : List Action :=
  loads ++ [.toggled "comment" true true, .changed ["comment"] none,
    .toggled "comment" false true, .answer 0 .failed, .answer 0 .failed]

/-- No vote is shown while one is held, or an upvote while none is held. -/
theorem disagreements :
    (∃ final, shownAfter fetchesLate = some final ∧ final.1.calls = [] ∧ ¬Agrees final) ∧
    (∃ final, shownAfter switches = some final ∧ final.1.calls = [] ∧ ¬Agrees final) ∧
    ∃ final, shownAfter unmarks = some final ∧ final.1.calls = [] ∧ ¬Agrees final :=
  ⟨exists_of_any _ (by decide +kernel), exists_of_any _ (by decide +kernel),
    exists_of_any _ (by decide +kernel)⟩

end

end Divine.CommentsBloc
