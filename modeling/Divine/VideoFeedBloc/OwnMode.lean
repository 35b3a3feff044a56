/-
This file proves when a feed shows only the videos of its mode.
-/

import Divine.Library.Observer
import Divine.VideoFeedBloc.Bloc
import Mathlib

namespace Divine.VideoFeedBloc

open List Dictionary Interleaving Models Observer Sorting Transition

/-! ### The feed of one mode -/

def observe : Observe Bloc Action (List Entry) (List Entry) := fun log _ _ _ entries =>
  entries ++ log

/-- The page was asked for in the mode, and the list was not emptied since. -/
def Fresh : List Entry → Nat → FeedMode → Prop
  | [], _, _ => False
  | .emptied :: _, _, _ => False
  | .asked other asked :: log, fetch, mode =>
      (other = fetch ∧ asked = mode) ∨ Fresh log fetch mode
  | .answered .. :: log, fetch, mode => Fresh log fetch mode

def Brought (log : List Entry) (fetch : Nat) (video : VideoEvent) : Prop :=
  ∃ mode current videos before after,
    .answered fetch mode current videos before after ∈ log ∧ video ∈ videos

structure Own (seen : Bloc × List Entry) : Prop where
  listed : seen.1.state.status = .success → ∀ video ∈ seen.1.state.videos,
    ∃ fetch, Fresh seen.2 fetch seen.1.state.mode ∧ Brought seen.2 fetch video
  undisturbed : ∀ fetch mode current videos before after,
    .answered fetch mode current videos before after ∈ seen.2 → mode ≠ current →
      after.videos = before.videos ∧ after.status = before.status

/-! ### The condition -/

/-- An answer is for the current mode and of a request made since the list was emptied; a failure
too, or of a handler that keeps the list. -/
def CallCondition (seen : Bloc × List Entry) : Call → Reply → Prop
  | .loading fetch mode, .fetched _ _ _ =>
      mode = seen.1.state.mode ∧ Fresh seen.2 fetch mode
  | .loading _ mode, .failed => mode = seen.1.state.mode ∨ seen.1.state.status = .failure
  | .more fetch mode _, .fetched _ _ _ =>
      mode = seen.1.state.mode ∧ (seen.1.state.status = .success → Fresh seen.2 fetch mode)
  | _, _ => True

def Condition (seen : Bloc × List Entry) : Action → Prop
  | .answer index reply => ∀ call, seen.1.calls[index]? = some call →
      CallCondition seen call reply
  | _ => True

section

instance decidableFresh : ∀ log fetch mode, Decidable (Fresh log fetch mode)
  | [], _, _ => instDecidableFalse
  | .emptied :: _, _, _ => instDecidableFalse
  | .asked other asked :: log, fetch, mode =>
      have := decidableFresh log fetch mode
      inferInstanceAs (Decidable ((other = fetch ∧ asked = mode) ∨ Fresh log fetch mode))
  | .answered .. :: log, fetch, mode => decidableFresh log fetch mode

instance decidableCallCondition (seen : Bloc × List Entry) (call : Call) (reply : Reply) :
    Decidable (CallCondition seen call reply) := by
  unfold CallCondition
  split <;> infer_instance

instance decidableCondition (seen : Bloc × List Entry) (action : Action) :
    Decidable (Condition seen action) := by
  unfold Condition
  split <;> infer_instance

end

/-! ### What keeps the feed -/

section

variable {bloc : Bloc} {state : VideoFeedState} {log : List Entry} {entry : Entry}

theorem Fresh.cons {fetch : Nat} {mode : FeedMode} (fresh : Fresh log fetch mode)
    (kept : entry ≠ .emptied) : Fresh (entry :: log) fetch mode := by
  cases entry with
  | emptied => exact absurd rfl kept
  | asked other asked => exact .inr fresh
  | answered other asked current videos before after => exact fresh

theorem Brought.cons {fetch : Nat} {video : VideoEvent} (brought : Brought log fetch video) :
    Brought (entry :: log) fetch video := by
  obtain ⟨mode, current, videos, before, after, member, inside⟩ := brought
  exact ⟨mode, current, videos, before, after, mem_cons_of_mem _ member, inside⟩

theorem Own.listed_cons (own : Own (bloc, log)) (kept : entry ≠ .emptied)
    (success : bloc.state.status = .success) {video : VideoEvent}
    (member : video ∈ bloc.state.videos) :
    ∃ fetch, Fresh (entry :: log) fetch bloc.state.mode ∧ Brought (entry :: log) fetch video := by
  obtain ⟨fetch, fresh, brought⟩ := own.listed success video member
  exact ⟨fetch, fresh.cons kept, brought.cons⟩

theorem Own.unloaded (own : Own (bloc, log)) {next : Bloc} {entries : List Entry}
    (notLoaded : next.state.status ≠ .success)
    (noAnswer : ∀ fetch mode current videos before after,
      .answered fetch mode current videos before after ∉ entries) :
    Own (next, entries ++ log) where
  listed success := absurd success notLoaded
  undisturbed fetch mode current videos before after member :=
    own.undisturbed fetch mode current videos before after
      ((mem_append.mp member).resolve_left (noAnswer _ _ _ _ _ _))

/-- An answer keeps the feed when it keeps the list, or what it leaves listed was listed before or
is of the mode. -/
theorem Own.answered (own : Own (bloc, log)) {next : Bloc} {fetch : Nat} {mode : FeedMode}
    {videos : List VideoEvent}
    (sameMode : next.state.mode = bloc.state.mode)
    (listed : next.state.status = .success → ∀ video ∈ next.state.videos,
      (bloc.state.status = .success ∧ video ∈ bloc.state.videos) ∨
        (Fresh log fetch bloc.state.mode ∧ video ∈ videos))
    (undisturbed : mode ≠ bloc.state.mode →
      next.state.videos = bloc.state.videos ∧ next.state.status = bloc.state.status) :
    Own (next, .answered fetch mode bloc.state.mode videos bloc.state next.state :: log) where
  listed success video member := by
    rw [sameMode]
    rcases listed success video member with ⟨wasLoaded, before⟩ | ⟨fresh, brought⟩
    · exact own.listed_cons (fun same => by cases same) wasLoaded before
    · exact ⟨fetch, (fresh.cons nofun),
        mode, bloc.state.mode, videos, bloc.state, next.state, mem_cons_self, brought⟩
  undisturbed other asked current found before after member differs := by
    rcases mem_cons.mp member with same | earlier
    · obtain ⟨-, rfl, rfl, -, rfl, rfl⟩ := Entry.answered.inj same
      exact undisturbed differs
    · exact own.undisturbed other asked current found before after earlier differs

theorem mem_extended {order : Descending VideoEvent.createdAt} {result : HomeFeedResult}
    {video : VideoEvent} (member : video ∈ (state.extended order result).videos) :
    video ∈ state.videos ∨ video ∈ result.videos := by
  have inside : video ∈ dedupById [] (state.videos ++ validVideos result) := by
    have member : video ∈ (if state.mode = .popular then
        dedupById [] (state.videos ++ validVideos result)
      else order.sort (dedupById [] (state.videos ++ validVideos result))) := member
    split at member
    · exact member
    · exact order.mem_sort.mp member
  rcases mem_append.mp (mem_of_dedupById inside).1 with before | valid
  · exact .inl before
  · exact .inr (mem_of_mem_filter valid)

theorem mem_loaded {mode : FeedMode} {result : HomeFeedResult} {followsNobody : Bool}
    {video : VideoEvent} (member : video ∈ (state.loaded mode result followsNobody).videos) :
    video ∈ result.videos := by
  simp only [VideoFeedState.loaded] at member
  split at member
  · cases member
  · exact mem_of_mem_filter member

theorem mode_loaded (state : VideoFeedState) (mode : FeedMode) (result : HomeFeedResult)
    (followsNobody : Bool) : (state.loaded mode result followsNobody).mode = state.mode := by
  simp only [VideoFeedState.loaded]
  split <;> rfl

end

/-! ### Steps -/

section

variable {config : Config} {bloc next : Bloc} {log entries : List Entry}

theorem Own.load (own : Own (bloc, log)) {state : VideoFeedState}
    (notLoaded : state.status ≠ .success) (mode : FeedMode) {earlier : List Entry}
    (noAnswer : ∀ fetch mode current videos before after,
      .answered fetch mode current videos before after ∉ earlier) :
    Own ((bloc.load state mode earlier).1, (bloc.load state mode earlier).2 ++ log) := by
  refine own.unloaded notLoaded fun fetch asked current videos before after member => ?_
  exact noAnswer _ _ _ _ _ _ ((mem_cons.mp member).resolve_left nofun)

theorem Own.reload (own : Own (bloc, log)) : Own (bloc.reload.1, bloc.reload.2 ++ log) := by
  have loading : VideoFeedStatus.loading ≠ .success := nofun
  exact own.load loading bloc.state.mode fun _ _ _ _ _ _ member => by
    cases mem_singleton.mp member

theorem Own.loadMore (own : Own (bloc, log)) : Own (bloc.loadMore.1, bloc.loadMore.2 ++ log) := by
  unfold Bloc.loadMore
  split
  · exact own
  · split
    · exact own
    · refine ⟨fun success video member =>
        own.listed_cons (fun same => by cases same) success member,
        fun fetch mode current videos before after member => ?_⟩
      exact own.undisturbed fetch mode current videos before after
        ((mem_cons.mp member).resolve_left nofun)

theorem Own.resume (own : Own (bloc, log)) {index : Nat} {call : Call} {reply : Reply}
    (condition : CallCondition (bloc, log) call reply)
    (resumed : bloc.resume config index call reply = some (next, entries)) :
    Own (next, entries ++ log) := by
  unfold Bloc.resume at resumed
  split at resumed
  · cases resumed
    have loading : VideoFeedStatus.loading ≠ .success := nofun
    refine own.unloaded loading fun _ _ _ _ _ _ member => ?_
    rcases mem_cons.mp member with same | last
    · cases same
    · cases mem_singleton.mp last
  · cases resumed
    exact ⟨own.listed, own.undisturbed⟩
  · rename_i fetch mode result followsNobody now
    obtain ⟨isCurrent, fresh⟩ := condition
    cases resumed
    refine own.answered (mode_loaded _ _ _ _) (fun _ video member => .inr ⟨?_, mem_loaded member⟩)
      fun differs => absurd isCurrent differs
    rw [← isCurrent]
    exact fresh
  · rename_i fetch mode
    cases resumed
    have failure : VideoFeedStatus.failure ≠ .success := nofun
    refine own.answered rfl (fun success => absurd success failure) fun differs => ⟨rfl, ?_⟩
    exact (condition.resolve_left differs).symm
  · rename_i fetch mode cursor result followsNobody now
    obtain ⟨isCurrent, fresh⟩ := condition
    cases resumed
    refine own.answered rfl (fun success video member => ?_) fun differs => absurd isCurrent differs
    rcases mem_extended member with before | brought
    · exact .inl ⟨success, before⟩
    · refine .inr ⟨?_, brought⟩
      rw [← isCurrent]
      exact fresh success
  · cases resumed
    exact own.answered rfl (fun success video member => .inl ⟨success, member⟩) fun _ => ⟨rfl, rfl⟩
  · cases resumed

theorem Own.step {seen after : Bloc × List Entry} {action : Action} (own : Own seen)
    (condition : Condition seen action)
    (sees : watched (step config) observe seen action = some after) : Own after := by
  obtain ⟨bloc, log⟩ := seen
  obtain ⟨entries, stepped, recorded⟩ := watched_eq_some.mp sees
  obtain ⟨next, history⟩ := after
  obtain rfl : history = entries ++ log := recorded
  cases action with
  | started savedModeName given =>
    cases stepped
    have loading : VideoFeedStatus.loading ≠ .success := nofun
    exact own.load loading _ fun _ _ _ _ _ _ => not_mem_nil
  | modeChanged mode =>
    simp only [VideoFeedBloc.step] at stepped
    split at stepped
    · cases stepped
      exact own
    · cases stepped
      exact ⟨own.listed, own.undisturbed⟩
  | loadMoreRequested =>
    obtain ⟨rfl, rfl⟩ := Prod.mk.inj (Option.some.inj stepped)
    exact own.loadMore
  | refreshRequested =>
    cases stepped
    exact own.reload
  | autoRefreshRequested | followingListChanged | curatedListsChanged =>
    simp only [VideoFeedBloc.step] at stepped
    split at stepped
    · cases stepped
      exact own
    · cases stepped
      exact own.reload
  | answer index reply =>
    obtain ⟨call, present, resumed⟩ := Option.bind_eq_some_iff.mp stepped
    exact own.resume (condition call present) resumed

end

/-! ### Runs -/

/-- A feed shows only its own mode in a run whose answers meet the condition. -/
theorem own_of_run {config : Config} {actions : List Action} {final : Bloc × List Entry}
    (meets : Meets (watched (step config) observe) Condition (initialBloc, []) actions)
    (ran : run (watched (step config) observe) (initialBloc, []) actions = some final) :
    Own final := by
  have initial : Own (initialBloc, []) :=
    { listed := nofun
      undisturbed := fun _ _ _ _ _ _ member => absurd member not_mem_nil }
  exact invariant_of_meets (watched (step config) observe)
    (fun _ _ _ own condition stepped => Own.step own condition stepped) initial meets ran

section

def sampleConfig : Config := ⟨insertion VideoEvent.createdAt, 600000⟩

def sampleVideo (id : String) (createdAt : Int) : VideoEvent where
  id := id
  pubkey := "author"
  createdAt := createdAt
  content := ""
  timestamp := ⟨0, epoch_inRange⟩
  videoUrl := some "https://media.divine.video/hash"

def sampleReply (id : String) (createdAt : Int) : Reply :=
  .fetched { videos := [sampleVideo id createdAt] } false 0

def feedAfter (actions : List Action) : Option (Bloc × List Entry) :=
  run (watched (step sampleConfig) observe) (initialBloc, []) actions

/-- A feed is loaded and extended, and changes its mode. -/
def scrolls : List Action :=
  [.started none .home, .answer 0 (sampleReply "first" 2), .loadMoreRequested,
    .answer 0 (sampleReply "second" 1), .modeChanged .latest, .answer 0 .saved,
    .answer 0 (sampleReply "third" 3)]

theorem own_scrolled : ∃ final, feedAfter scrolls = some final ∧ Own final := by
  refine exists_of_isSome (by decide +kernel) fun final ran => ?_
  exact own_of_run (by decide +kernel) ran

/-- The feed changes to the latest videos while the home feed is loaded, which is answered last. -/
def changesWhileLoading (reply : Reply) : List Action :=
  [.started none .home, .modeChanged .latest, .answer 1 .saved,
    .answer 1 (sampleReply "latest" 3), .answer 0 reply]

def changesWhileExtending : List Action :=
  [.started none .home, .answer 0 (sampleReply "first" 2), .loadMoreRequested,
    .modeChanged .latest, .answer 1 .saved, .answer 1 (sampleReply "latest" 3),
    .answer 0 (sampleReply "second" 1)]

/-- A late answer for the home feed replaces or follows the latest videos, and a late failure ends
the feed. -/
theorem mixes :
    (∃ final, feedAfter (changesWhileLoading (sampleReply "home" 2)) = some final ∧
      final.1.state.mode = .latest ∧ final.1.state.status = .success ∧
        final.1.state.videos = [sampleVideo "home" 2]) ∧
    (∃ final, feedAfter changesWhileExtending = some final ∧
      final.1.state.mode = .latest ∧ final.1.state.status = .success ∧
        final.1.state.videos = [sampleVideo "latest" 3, sampleVideo "second" 1]) ∧
    ∃ final, feedAfter (changesWhileLoading .failed) = some final ∧
      final.1.state.mode = .latest ∧ final.1.state.status = .failure :=
  ⟨exists_of_any _ (by decide +kernel), exists_of_any _ (by decide +kernel),
    exists_of_any _ (by decide +kernel)⟩

end

end Divine.VideoFeedBloc
