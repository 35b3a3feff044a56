/-
This file proves when a failed upload is retried at most three times.
-/

import Divine.UploadManager.Finished

namespace Divine.UploadManager

open List Option Dictionary Interleaving Transition Observer

/-! ### The life of the app -/

/-- What happens to the app: what the manager is asked or waits for, and a restart. -/
inductive Event where
  | act (action : Action)
  | restart

/-- A restart keeps what is stored, and no call goes on after it. -/
def lifeStep (config : Config) (state : State) : Event → Option (State × List Entry)
  | .act action => step config state action
  | .restart => some ({ state with calls := [] }, [])

/-- An attempt that begins then is one of `retryUpload` or of the startup. -/
def Event.retries : Event → Bool
  | .act (.startUpload _) | .act (.resumeUpload _) | .restart => false
  | .act _ => true

def Entry.begun : Entry → Option String
  | .began id _ => some id
  | _ => none

/-- The history of a life, with the uploads of the retries, the newest first. -/
structure Life where
  log : List Entry
  retried : List String

def observeLife : Observe State Event (List Entry) Life := fun life _ event _ entries =>
  { log := entries ++ life.log
    retried := (if event.retries then entries.filterMap Entry.begun else []) ++ life.retried }

def live (config : Config) : State × Life → Event → Option (State × Life) :=
  watched (lifeStep config) observeLife

def AllFail (id : String) (log : List Entry) : Prop :=
  ∀ number, .began id number ∈ log → ∃ before, .wrote id number before .failed ∈ log

def Entry.fails (id : String) (number : Nat) : Entry → Bool
  | .wrote other attempt _ after => other = id && attempt = number && after = .failed
  | _ => false

/-- Whether every attempt of the upload ended in a failure, computed. -/
def allFail (id : String) (log : List Entry) : Bool :=
  log.all fun entry => match entry with
    | .began other number => other ≠ id || log.any (Entry.fails id number)
    | _ => true

theorem AllFail.of_allFail {id : String} {log : List Entry} (all : allFail id log = true) :
    AllFail id log := by
  intro number began
  have own := all_eq_true.mp all _ began
  have fails := (Bool.or_eq_true_iff.mp own).resolve_left fun differs =>
    of_decide_eq_true differs rfl
  obtain ⟨entry, member, isFailure⟩ := any_eq_true.mp fails
  cases entry with
  | wrote other attempt before after =>
    obtain ⟨both, isFailed⟩ := Bool.and_eq_true_iff.mp isFailure
    obtain ⟨same, isAttempt⟩ := Bool.and_eq_true_iff.mp both
    obtain rfl := of_decide_eq_true same
    obtain rfl := of_decide_eq_true isAttempt
    obtain rfl := of_decide_eq_true isFailed
    exact ⟨before, member⟩
  | _ => cases isFailure

/-! ### Failed uploads -/

/-- A call may still write the record of the upload or begin an attempt for it. -/
def Call.Concerns (id : String) : Call → Prop
  | .attempt running => running.stage.upload.id = id ∧ ∀ upload, running.stage ≠ .failed upload
  | .resuming rest current => ∃ upload ∈ current.toList ++ rest, upload.id = id
  | .polling _ => False
  | .checking upload => upload.id = id

/-- Records are stored under their ids. -/
structure Filed (box : Box) : Prop where
  keys : (box.map Prod.fst).Nodup
  keyed : ∀ id upload, find box id = some upload → upload.id = id

/-- The upload failed with its last attempt, and nothing of it goes on. -/
structure Failed (id : String) (upload : PendingUpload) (state : State) : Prop where
  filed : Filed state.box
  stored : find state.box id = some upload
  failed : upload.status = .failed
  drawn : id ∈ state.drawn
  free : ∀ call ∈ state.calls, ¬ call.Concerns id

/-! ### Retries that fail -/

section

variable {config : Config} {box : Box} {calls : List Call} {attempts : Nat} {drawn : List String}
  {id : String} {upload : PendingUpload} {life : Life}

/-- A retry whose video is not found, when the device is offline. -/
def failingRetry (id : String) (index : Nat) : List Event :=
  [.act (.retryUpload id), .act (.answer index (.done false 0)),
    .act (.answer index (.connectivity .none .none)), .act (.answer index (.done false 0))]

def missingVideo (config : Config) : ErrorText :=
  if config.isWeb then "exception: web platform uploads not yet implemented"
  else "exception: video file not found"

theorem performUpload_missing (number : Nat) (box : Box) (upload : PendingUpload) :
    performUpload config number box upload false =
      (box, .failing upload (missingVideo config), []) := by
  unfold performUpload missingVideo
  split <;> rfl

def refailed (config : Config) (upload : PendingUpload) : PendingUpload :=
  failedUpload (resetUpload upload) (missingVideo config) .none .none

theorem live_last {number : Nat} {stage : Stage} {answer : Answer}
    {outcome : Box × Stage × List Entry}
    (advanced : advanceAttempt config number box stage answer = some outcome) :
    live config (⟨box, calls ++ [.attempt ⟨number, .other, stage⟩], attempts, drawn⟩, life)
        (.act (.answer calls.length answer)) =
      some (⟨outcome.1, calls ++ [.attempt ⟨number, .other, outcome.2.1⟩], attempts, drawn⟩,
        ⟨outcome.2.2 ++ life.log, outcome.2.2.filterMap Entry.begun ++ life.retried⟩) := by
  refine watched_eq_some.mpr ⟨outcome.2.2, ?_, rfl⟩
  show ((calls ++ [_])[calls.length]?).bind _ = _
  rw [getElem?_concat_length, bind_some]
  unfold State.resume
  cases stage with
  | succeeded | failed => cases answer <;> cases advanced
  | _ =>
    dsimp only
    rw [advanced, map_some, proceed_concat]
    rfl

theorem live_failed {number : Nat} :
    live config (⟨box, calls ++ [.attempt ⟨number, .other, .failed upload⟩], attempts, drawn⟩, life)
        (.act (.answer calls.length (.done false 0))) =
      some (⟨box, calls, attempts, drawn⟩, life) := by
  refine watched_eq_some.mpr ⟨[], ?_, rfl⟩
  show ((calls ++ [_])[calls.length]?).bind _ = _
  rw [getElem?_concat_length, bind_some]
  unfold State.resume
  dsimp only
  rw [proceed_concat, toList_none, append_nil]
  rfl

theorem run_failingRetry (found : find box upload.id = some upload)
    (canRetry : upload.canRetry = true) :
    run (live config) (⟨box, calls, attempts, drawn⟩, life)
        (failingRetry upload.id calls.length) =
      some (⟨updateUpload (updateUpload box (resetUpload upload)) (refailed config upload), calls,
          attempts + 1, drawn⟩,
        ⟨.wrote upload.id attempts (some .pending) .failed :: .began upload.id attempts :: life.log,
          upload.id :: life.retried⟩) := by
  have begins : live config (⟨box, calls, attempts, drawn⟩, life) (.act (.retryUpload upload.id)) =
      some (⟨updateUpload box (resetUpload upload),
          calls ++ [.attempt ⟨attempts, .other, .starting (resetUpload upload)⟩], attempts + 1,
          drawn⟩,
        ⟨.began upload.id attempts :: life.log, upload.id :: life.retried⟩) := by
    refine watched_eq_some.mpr ⟨[.began upload.id attempts], ?_, rfl⟩
    simp only [lifeStep, step, found, if_pos canRetry]
    rfl
  have wrote : wrote (updateUpload box (resetUpload upload)) attempts (refailed config upload) =
      .wrote upload.id attempts (some .pending) .failed := by
    show Entry.wrote upload.id attempts
      ((find (updateUpload box
        (resetUpload upload)) upload.id).map PendingUpload.status) .failed = _
    rw [find_updateUpload, if_pos (show (resetUpload upload).id = upload.id from rfl)]
    rfl
  have misses : advanceAttempt config attempts (updateUpload box (resetUpload upload))
      (.starting (resetUpload upload)) (.done false 0) =
        some (updateUpload box (resetUpload upload),
        .failing (resetUpload upload) (missingVideo config), []) :=
    congrArg some (performUpload_missing attempts _ _)
  have fails : advanceAttempt config attempts (updateUpload box (resetUpload upload))
      (.failing (resetUpload upload) (missingVideo config)) (.connectivity .none .none) =
        some (updateUpload (updateUpload box (resetUpload upload)) (refailed config upload),
          .failed (resetUpload upload), [.wrote upload.id attempts (some .pending) .failed]) := by
    rw [← wrote]
    rfl
  unfold failingRetry
  rw [run_cons, begins, bind_some, run_cons, live_last misses, bind_some, run_cons,
    live_last fails, bind_some, run_cons, live_failed]
  rfl

theorem AllFail.retry {log : List Entry} (fail : AllFail id log) (number : Nat)
    (before : Option UploadStatus) :
    AllFail id (.wrote id number before .failed :: .began id number :: log) := by
  intro other began
  rcases mem_cons.mp began with own | began
  · cases own
  rcases mem_cons.mp began with own | began
  · obtain ⟨-, rfl⟩ := Entry.began.inj own
    exact ⟨before, mem_cons_self⟩
  · obtain ⟨status, wrote⟩ := fail other began
    exact ⟨status, mem_cons_of_mem _ (mem_cons_of_mem _ wrote)⟩

theorem exists_failures (found : find box upload.id = some upload)
    (canRetry : upload.canRetry = true) (fail : AllFail upload.id life.log) (retries : Nat) :
    ∃ events final, run (live config) (⟨box, calls, attempts, drawn⟩, life) events = some final ∧
      AllFail upload.id final.2.log ∧
        final.2.retried.count upload.id = life.retried.count upload.id + retries := by
  induction retries generalizing box attempts upload life with
  | zero => exact ⟨[], _, rfl, fail, rfl⟩
  | succ retries ih =>
    have ran := @run_failingRetry config box calls attempts drawn upload life found canRetry
    have again : (refailed config upload).canRetry = true := by
      obtain ⟨-, few⟩ := Bool.and_eq_true_iff.mp canRetry
      exact Bool.and_eq_true_iff.mpr ⟨rfl, few⟩
    have found :
      find (updateUpload (updateUpload box (resetUpload upload)) (refailed config upload))
        (refailed config upload).id = some (refailed config upload) := by
      rw [find_updateUpload, if_pos rfl]
    have failed : AllFail (refailed config upload).id (Life.log
        ⟨.wrote upload.id attempts (some .pending) .failed :: .began upload.id attempts :: life.log,
          upload.id :: life.retried⟩) := fail.retry attempts (some .pending)
    obtain ⟨events, final, continued, fail, count⟩ := ih found again failed
    refine ⟨failingRetry upload.id calls.length ++ events, final, ?_, fail, ?_⟩
    · rw [run_append, ran]
      exact continued
    · rw [show final.2.retried.count upload.id = _ from count]
      show (upload.id :: life.retried).count upload.id + retries = _
      rw [count_cons_self]
      omega

end

/-! ### Uploads that are not retried -/

/-- The records of the upload failed with no retry left, and nothing of it goes on. -/
structure Spent (id : String) (state : State) : Prop where
  filed : Filed state.box
  spent : ∀ upload, find state.box id = some upload →
    upload.status = .failed ∧ 3 ≤ upload.retryCount.getD 0
  drawn : id ∈ state.drawn
  free : ∀ call ∈ state.calls, ¬ call.Concerns id

section

variable {box : Box} {calls next : List Call} {attempts : Nat} {drawn : List String} {id : String}
  {upload stored : PendingUpload}

theorem Filed.put (filed : Filed box) (upload : PendingUpload) :
    Filed (updateUpload box upload) where
  keys := nodup_keys_put filed.keys
  keyed id stored found := by
    rw [find_updateUpload] at found
    split at found
    · rename_i same
      cases found
      exact same
    · exact filed.keyed id stored found

theorem Filed.delete (filed : Filed box) (id : String) : Filed (remove box id) where
  keys := nodup_keys_remove filed.keys
  keyed other stored found := by
    rw [find_remove] at found
    split at found
    · cases found
    · exact filed.keyed other stored found

section

variable (spent : Spent id ⟨box, calls, attempts, drawn⟩)

include spent

theorem Spent.put
    (harmless : upload.id = id → upload.status = .failed ∧ 3 ≤ upload.retryCount.getD 0) :
    Spent id ⟨updateUpload box upload, calls, attempts, drawn⟩ where
  filed := spent.filed.put upload
  spent stored found := by
    have found : find (updateUpload box upload) id = some stored := found
    rw [find_updateUpload] at found
    split at found
    · rename_i same
      cases found
      exact harmless same
    · exact spent.spent stored found
  drawn := spent.drawn
  free := spent.free

theorem Spent.delete (other : String) :
    Spent id ⟨remove box other, calls, attempts, drawn⟩ where
  filed := spent.filed.delete other
  spent stored found := by
    have found : find (remove box other) id = some stored := found
    rw [find_remove] at found
    split at found
    · cases found
    · exact spent.spent stored found
  drawn := spent.drawn
  free := spent.free

theorem Spent.waits {given : Nat} {ids : List String} (drawn : drawn ⊆ ids)
    (free : ∀ call ∈ next, call ∈ calls ∨ ¬ call.Concerns id) :
    Spent id ⟨box, next, given, ids⟩ where
  filed := spent.filed
  spent := spent.spent
  drawn := drawn spent.drawn
  free call member := (free call member).elim (spent.free call) fun own => own

theorem Spent.of_find {other : String}
    (found : find box other = some stored) (same : stored.id = id) :
    stored.status = .failed ∧ 3 ≤ stored.retryCount.getD 0 := by
  have own := spent.filed.keyed other stored found
  exact spent.spent stored (same ▸ own ▸ found)

theorem Spent.progress (other : String)
    (progress : Rat) :
      Spent id ⟨updateUploadProgress box other progress, calls, attempts, drawn⟩ := by
  unfold updateUploadProgress
  split
  · exact spent
  · rename_i stored found
    split
    · have kept : stored.id = id → _ := spent.of_find found
      exact spent.put kept
    · exact spent

end

end

/-! ### Steps of other uploads -/

section

variable {config : Config} {box : Box} {calls : List Call} {attempts number index : Nat}
  {drawn : List String} {id : String} {upload : PendingUpload} {answer : Answer}
  {outcome : Box × Stage × List Entry}

/-- An attempt goes on with its own upload, and none begins. -/
structure Elsewhere (id : String) (calls : List Call) (attempts : Nat) (drawn : List String)
    (upload : PendingUpload) (outcome : Box × Stage × List Entry) : Prop where
  spent : Spent id ⟨outcome.1, calls, attempts, drawn⟩
  upload : outcome.2.1.upload = upload
  begun : outcome.2.2.filterMap Entry.begun = []

section

variable (spent : Spent id ⟨box, calls, attempts, drawn⟩)

include spent

theorem elsewhere_announce (differs : upload.id ≠ id) (tries : Nat) :
    Elsewhere id calls attempts drawn upload (announce number box upload tries) :=
  ⟨spent.put fun same => absurd same differs, rfl, rfl⟩

theorem elsewhere_performUpload (differs : upload.id ≠ id) (present : Bool) :
    Elsewhere id calls attempts drawn upload (performUpload config number box upload present) := by
  unfold performUpload
  split
  · exact ⟨spent, rfl, rfl⟩
  · split
    · exact elsewhere_announce spent differs 0
    · exact ⟨spent, rfl, rfl⟩

theorem elsewhere_caught (upload : PendingUpload) (tries : Nat) (error : ErrorText) :
    Elsewhere id calls attempts drawn upload (box, caught config upload tries error, []) :=
  ⟨spent, upload_caught upload tries error, rfl⟩

theorem elsewhere_handleUploadSuccess (differs : upload.id ≠ id) (tries : Nat)
    (result : UploadResult) (now : Nat) :
    Elsewhere id calls attempts drawn upload
      (handleUploadSuccess config number box upload tries result now) := by
  unfold handleUploadSuccess
  split
  · have own : ((find box upload.id).getD upload).id = upload.id := by
      cases found : find box upload.id with
      | none => rfl
      | some stored => exact spent.filed.keyed upload.id stored found
    exact ⟨spent.put fun same => absurd (own ▸ same) differs, rfl, rfl⟩
  · exact elsewhere_caught spent upload tries _

theorem elsewhere_advanceAttempt {stage : Stage} (differs : stage.upload.id ≠ id)
    (advanced : advanceAttempt config number box stage answer = some outcome) :
    Elsewhere id calls attempts drawn stage.upload outcome := by
  unfold advanceAttempt at advanced
  split at advanced
  · cases advanced
    exact elsewhere_performUpload spent differs _
  · rename_i upload tries present now
    cases advanced
    cases present with
    | true => exact ⟨spent, rfl, rfl⟩
    | false => exact elsewhere_caught spent upload tries _
  · cases advanced
    exact elsewhere_caught spent _ _ _
  · split at advanced
    · cases advanced
      exact ⟨spent, rfl, rfl⟩
    · cases advanced
      exact elsewhere_handleUploadSuccess spent differs _ _ _
  · rename_i upload tries result url now
    have finished := spent.progress upload.id 1
    cases url with
    | none =>
      cases advanced
      exact elsewhere_handleUploadSuccess finished differs tries result now
    | some url =>
      cases advanced
      exact ⟨finished.put fun same => absurd same differs, rfl, rfl⟩
  · cases advanced
    exact elsewhere_handleUploadSuccess spent differs _ _ _
  · cases advanced
    exact elsewhere_announce spent differs _
  · cases advanced
    exact ⟨spent.put fun same => absurd same differs, rfl, rfl⟩
  · cases advanced

theorem Spent.resumeNext (present : Bool)
    {rest : List PendingUpload} (others : ∀ upload ∈ rest, upload.id ≠ id) :
    Spent id ⟨(resumeNext config box present rest).1, calls, attempts, drawn⟩ ∧
      ∀ call ∈ (UploadManager.resumeNext config box present rest).2, ¬ call.Concerns id := by
  cases rest with
  | nil => exact ⟨spent, fun call member => by cases member⟩
  | cons next rest =>
    have differs := others next mem_cons_self
    have later : ∀ upload ∈ rest, upload.id ≠ id := fun upload member =>
      others upload (mem_cons_of_mem next member)
    simp only [UploadManager.resumeNext]
    split
    · refine ⟨spent.put fun same => absurd same differs, fun call member => ?_⟩
      cases member
      rintro ⟨upload, inside, same⟩
      rcases mem_cons.mp inside with rfl | inside
      · exact differs same
      · exact later upload inside same
    · refine ⟨spent.put fun same => absurd same differs, fun call member => ?_⟩
      cases member
      rintro ⟨upload, inside, same⟩
      exact later upload inside same

end

theorem free_of_mem_proceed {stage : Option Call} {call : Call}
    (free : ∀ call ∈ stage, ¬ call.Concerns id) (member : call ∈ proceed calls index stage) :
    call ∈ calls ∨ ¬ call.Concerns id := by
  rcases mem_proceed member with own | other
  · exact .inr (free call own)
  · exact .inl (mem_of_mem_eraseIdx other)

theorem Spent.ends (spent : Spent id ⟨box, calls, attempts, drawn⟩) :
    Spent id ⟨box, proceed calls index none, attempts, drawn⟩ :=
  spent.waits (List.Subset.refl _) fun _ member => .inl (mem_of_mem_eraseIdx member)

/-- Nothing of the upload begins, and it stays spent. -/
structure Passes (id : String) (next : State) (entries : List Entry) : Prop where
  spent : Spent id next
  begun : id ∉ entries.filterMap Entry.begun

variable {entries : List Entry} {after : State}

theorem Spent.passes {next : State} (spent : Spent id next) : Passes id next [] :=
  ⟨spent, not_mem_nil⟩

theorem begun_returns (box : Box) (attempt : Attempt) :
    (returns box attempt).filterMap Entry.begun = [] := by
  unfold returns
  split <;> rfl

theorem Spent.continues (spent : Spent id ⟨box, calls, attempts, drawn⟩) {attempt : Attempt}
    (present : calls[index]? = some (.attempt attempt))
    (resumed : State.resume config ⟨box, calls, attempts, drawn⟩ index answer (.attempt attempt) =
      some (after, entries)) : Passes id after entries := by
  have free := spent.free _ (mem_of_getElem? present)
  obtain ⟨number, caller, stage⟩ := attempt
  simp only [State.resume] at resumed
  split at resumed
  · cases resumed
    refine ⟨spent.waits (List.Subset.refl _) fun call member => ?_, ?_⟩
    · rcases mem_append.mp member with inside | new
      · exact .inl (mem_of_mem_eraseIdx inside)
      · split at new
        · obtain rfl := mem_singleton.mp new
          exact .inr not_false
        · cases new
    · rw [begun_returns]
      exact not_mem_nil
  · cases resumed
    refine ⟨spent.ends, ?_⟩
    rw [begun_returns]
    exact not_mem_nil
  · obtain ⟨outcome, advanced, isAfter⟩ := map_eq_some_iff.mp resumed
    cases isAfter
    have differs : stage.upload.id ≠ id := fun same => free ⟨same, fun upload isFailed => by
      obtain rfl : stage = .failed upload := isFailed
      cases answer <;> cases advanced⟩
    have elsewhere := elsewhere_advanceAttempt spent differs advanced
    refine ⟨elsewhere.spent.waits (List.Subset.refl _) fun call member => ?_, ?_⟩
    · refine free_of_mem_proceed (fun stage own => ?_) member
      cases own
      exact fun concerns => differs (elsewhere.upload ▸ concerns.1)
    · rw [elsewhere.begun]
      exact not_mem_nil

theorem Spent.resumes (spent : Spent id ⟨box, calls, attempts, drawn⟩) {rest : List PendingUpload}
    {current : Option PendingUpload} (present : calls[index]? = some (.resuming rest current))
    (resumed : State.resume config ⟨box, calls, attempts, drawn⟩ index answer
      (.resuming rest current) = some (after, entries)) : Passes id after entries := by
  have free := spent.free _ (mem_of_getElem? present)
  have others : ∀ upload ∈ rest, upload.id ≠ id := fun upload member same =>
    free ⟨upload, mem_append_right _ member, same⟩
  simp only [State.resume] at resumed
  split at resumed
  · rename_i started found
    cases resumed
    obtain ⟨stored, isFree⟩ := @Spent.resumeNext config _ _ _ _ _ spent found _ others
    exact (stored.waits (List.Subset.refl _) fun call member =>
      free_of_mem_proceed isFree member).passes
  · rename_i upload started found
    cases resumed
    have differs : upload.id ≠ id := fun same => free ⟨upload, mem_cons_self, same⟩
    have elsewhere :=
      @elsewhere_performUpload config _ _ attempts attempts _ _ _ spent differs started
    obtain ⟨stored, isFree⟩ := @Spent.resumeNext config _ _ _ _ _ elsewhere.spent found _ others
    refine ⟨stored.waits (List.Subset.refl _) fun call member => ?_, fun begun => ?_⟩
    · rcases mem_append.mp member with inside | new
      · exact free_of_mem_proceed isFree inside
      · obtain rfl := mem_singleton.mp new
        exact .inr fun concerns => differs (elsewhere.upload ▸ concerns.1)
    · rw [filterMap_append, elsewhere.begun] at begun
      exact differs (mem_singleton.mp begun).symm
  · cases resumed

theorem Spent.polls (spent : Spent id ⟨box, calls, attempts, drawn⟩) {other : String}
    (resumed : State.resume config ⟨box, calls, attempts, drawn⟩ index answer (.polling other) =
      some (after, entries)) : Passes id after entries := by
  simp only [State.resume] at resumed
  split at resumed
  · cases resumed
    exact spent.ends.passes
  · split at resumed
    · cases resumed
      exact spent.ends.passes
    · rename_i stored found
      split at resumed
      · rename_i processing
        cases resumed
        refine (spent.waits (List.Subset.refl _) fun call member => ?_).passes
        rcases mem_append.mp member with inside | new
        · exact .inl inside
        · obtain rfl := mem_singleton.mp new
          refine .inr fun same => ?_
          cases processing.symm.trans (spent.of_find found same).1
      · cases resumed
        exact spent.ends.passes
  · cases resumed

theorem Spent.checks (spent : Spent id ⟨box, calls, attempts, drawn⟩)
    (present : calls[index]? = some (.checking upload))
    (resumed : State.resume config ⟨box, calls, attempts, drawn⟩ index answer (.checking upload) =
      some (after, entries)) : Passes id after entries := by
  have differs : upload.id ≠ id := spent.free _ (mem_of_getElem? present)
  simp only [State.resume] at resumed
  split at resumed
  · cases resumed
    refine (Spent.ends ?_).passes
    split
    · exact spent.put fun same => absurd same differs
    · exact spent
  · cases resumed

theorem Spent.starts (spent : Spent id ⟨box, calls, attempts, drawn⟩) (differs : upload.id ≠ id)
    (caller : Caller) : Passes id (State.begin ⟨box, calls, attempts, drawn⟩ upload caller).1
      (State.begin ⟨box, calls, attempts, drawn⟩ upload caller).2 := by
  have stored := spent.put fun same => absurd same differs
  refine ⟨stored.waits (List.Subset.refl _) fun call member => ?_, fun begun => ?_⟩
  · rcases mem_append.mp member with inside | new
    · exact .inl inside
    · obtain rfl := mem_singleton.mp new
      exact .inr fun concerns => differs concerns.1
  · exact differs (mem_singleton.mp begun).symm

theorem Spent.not_interrupted (spent : Spent id ⟨box, calls, attempts, drawn⟩)
    (member : upload ∈ (box.map Prod.snd).filter PendingUpload.isInterrupted) : upload.id ≠ id := by
  intro same
  obtain ⟨inside, isInterrupted⟩ := mem_filter.mp member
  obtain ⟨entry, stored, rfl⟩ := mem_map.mp inside
  obtain ⟨failed, many⟩ := spent.of_find (find_of_mem spent.filed.keys stored) same
  have spares : ¬ entry.2.retryCount.getD 0 < 3 := Nat.not_lt.mpr many
  unfold PendingUpload.isInterrupted PendingUpload.canRetry at isInterrupted
  rw [failed, decide_eq_false spares] at isInterrupted
  cases isInterrupted

theorem Spent.step {state next : State} {action : Action} (spent : Spent id state)
    (stepped : step config state action = some (next, entries)) : Passes id next entries := by
  obtain ⟨box, calls, attempts, drawn⟩ := state
  cases action with
  | startUpload upload =>
    simp only [UploadManager.step] at stepped
    split at stepped
    · cases stepped
      exact ⟨spent, not_mem_nil⟩
    · split at stepped
      · rename_i isNew
        cases stepped
        have draws : Spent id ⟨box, calls, attempts, upload.id :: drawn⟩ :=
          spent.waits (subset_cons_self _ _) fun _ member => .inl member
        exact draws.starts (fun same => isNew.1 (same ▸ spent.drawn)) .startUpload
      · cases stepped
  | resumeUpload other =>
    simp only [UploadManager.step] at stepped
    split at stepped
    · cases stepped
      exact spent.passes
    · rename_i stored found
      split at stepped
      · rename_i paused
        cases stepped
        refine spent.starts (fun same => ?_) .other
        cases paused.symm.trans (spent.of_find found same).1
      · cases stepped
        exact spent.passes
  | retryUpload other =>
    simp only [UploadManager.step] at stepped
    split at stepped
    · cases stepped
      exact spent.passes
    · rename_i stored found
      split at stepped
      · rename_i canRetry
        cases stepped
        refine spent.starts (fun same => ?_) .other
        have few := of_decide_eq_true (Bool.and_eq_true_iff.mp canRetry).2
        exact absurd few (Nat.not_lt.mpr (spent.of_find found same).2)
      · cases stepped
        exact spent.passes
  | pauseUpload other =>
    simp only [UploadManager.step] at stepped
    split at stepped
    · cases stepped
      exact spent.passes
    · rename_i stored found
      split at stepped
      · rename_i uploading
        cases stepped
        refine ⟨spent.put fun same => ?_, not_mem_nil⟩
        cases uploading.symm.trans (spent.of_find found same).1
      · cases stepped
        exact spent.passes
  | cancelUpload other =>
    simp only [UploadManager.step] at stepped
    split at stepped
    · cases stepped
      exact spent.passes
    · rename_i stored found
      cases stepped
      exact ⟨spent.put fun same => ⟨rfl, (spent.of_find found same).2⟩, not_mem_nil⟩
  | deleteUpload other =>
    simp only [UploadManager.step] at stepped
    split at stepped
    · cases stepped
      exact spent.passes
    · cases stepped
      exact ⟨spent.delete other, not_mem_nil⟩
  | updateUploadMetadata other metadata =>
    simp only [UploadManager.step] at stepped
    split at stepped
    · cases stepped
      exact spent.passes
    · rename_i stored found
      cases stepped
      have kept : stored.id = id → _ := spent.of_find found
      exact ⟨spent.put kept, not_mem_nil⟩
  | resumeInterruptedUploads uploads present =>
    simp only [UploadManager.step] at stepped
    split at stepped
    · rename_i isInterrupted
      cases stepped
      have others : ∀ upload ∈ uploads, upload.id ≠ id := fun upload member =>
        spent.not_interrupted (isInterrupted.1.mem_iff.mp member)
      obtain ⟨stored, isFree⟩ := @Spent.resumeNext config _ _ _ _ _ spent present _ others
      refine (stored.waits (List.Subset.refl _) fun call member => ?_).passes
      rcases mem_append.mp member with before | new
      · exact .inl before
      · exact .inr (isFree call (mem_toList.mp new))
    · cases stepped
  | progress other progress =>
    cases stepped
    exact (spent.progress other progress).passes
  | answer index answer =>
    obtain ⟨call, present, resumed⟩ := bind_eq_some_iff.mp stepped
    cases call with
    | attempt attempt => exact spent.continues present resumed
    | resuming rest current => exact spent.resumes present resumed
    | polling other => exact spent.polls resumed
    | checking upload => exact spent.checks present resumed

theorem Spent.lifeStep {state next : State} {event : Event} (spent : Spent id state)
    (stepped : lifeStep config state event = some (next, entries)) : Passes id next entries := by
  cases event with
  | act action => exact spent.step stepped
  | restart =>
    cases stepped
    have ended : Spent id ⟨state.box, [], state.attempts, state.drawn⟩ :=
      spent.waits (List.Subset.refl _) fun _ member => absurd member not_mem_nil
    exact ended.passes

end

/-! ### Runs -/

theorem count_retried_of_run {config : Config} {id : String} {state : State} {events : List Event}
    {final : State × Life} (spent : Spent id state)
    (ran : run (live config) (state, ⟨[], []⟩) events = some final) :
    final.2.retried.count id = 0 := by
  have kept := @invariant_of_run _ _ (live config)
    (fun seen => Spent id seen.1 ∧ id ∉ seen.2.retried)
    (fun seen event next held stepped => ?_) _ _ _ ⟨spent, not_mem_nil⟩ ran
  · exact count_eq_zero.mpr kept.2
  · obtain ⟨entries, stepped, recorded⟩ := watched_eq_some.mp stepped
    have passes := held.1.lifeStep stepped
    refine ⟨passes.spent, fun retried => ?_⟩
    rw [recorded] at retried
    rcases mem_append.mp retried with now | before
    · split at now
      · exact passes.begun now
      · cases now
    · exact held.2 before

/-- After an upload failed, at most three retries of it begin exactly when its record says that no
retry is left. -/
theorem retried_le_iff {config : Config} {id : String} {upload : PendingUpload} {state : State}
    (failed : Failed id upload state) :
    (∀ events final, run (live config) (state, ⟨[], []⟩) events = some final →
      AllFail id final.2.log → final.2.retried.count id ≤ 3) ↔ 3 ≤ upload.retryCount.getD 0 := by
  constructor
  · intro bounded
    by_contra few
    obtain rfl := failed.filed.keyed id upload failed.stored
    have canRetry : upload.canRetry = true := by
      unfold PendingUpload.canRetry
      rw [failed.failed, decide_eq_true (Nat.not_le.mp few)]
      rfl
    have none : AllFail upload.id (Life.log ⟨[], []⟩) := nofun
    obtain ⟨events, final, ran, fail, count⟩ :=
      @exists_failures config state.box state.calls state.attempts state.drawn upload _
        failed.stored canRetry none 4
    have most := bounded events final ran fail
    rw [count] at most
    exact Nat.not_succ_le_self 3 (Nat.le_trans (Nat.le_add_left 4 _) most)
  · intro many events final ran fail
    have spent : Spent id state :=
      { filed := failed.filed
        spent := fun stored found => by
          cases failed.stored.symm.trans found
          exact ⟨failed.failed, many⟩
        drawn := failed.drawn
        free := failed.free }
    rw [count_retried_of_run spent ran]
    exact Nat.zero_le 3

section

/-- What follows until an attempt whose file is there fails with an error of the service. -/
def failsWith404 : List Event :=
  [.act (.answer 0 (.done true 0)), .act (.answer 0 (.raised "exception: 404")),
    .act (.answer 0 (.connectivity .wifi .wifi)), .act (.answer 0 (.done true 0))]

def startAndFail : List Event :=
  [.act (.startUpload sampleUpload), .act (.answer 0 (.done true 0))] ++ failsWith404

def failedVideo : PendingUpload := failedUpload sampleUpload "exception: 404" .wifi .wifi

/-- The app after `startUpload` failed. -/
def afterFailure : State where
  box := [("video", failedVideo)]
  calls := []
  attempts := 1
  drawn := ["video"]

def fourRetries : List Event :=
  let byUser := [.act (.retryUpload "video"), .act (.answer 0 (.done true 0))] ++ failsWith404
  let byStartup := [.restart, .act (.resumeInterruptedUploads [failedVideo] true),
    .act (.answer 0 (.files true false))] ++ failsWith404
  byUser ++ byUser ++ byStartup ++ byStartup

theorem failed_afterFailure : Failed "video" failedVideo afterFailure where
  filed := ⟨by decide, fun id upload found => by
    rw [show afterFailure.box = [("video", failedVideo)] from rfl, find_cons] at found
    split at found
    · rename_i same
      cases found
      exact same
    · cases found⟩
  stored := rfl
  failed := rfl
  drawn := mem_cons_self
  free call member := absurd member not_mem_nil

theorem retried_le_iff_sample :
    (∀ events final, run (live sampleConfig) (afterFailure, ⟨[], []⟩) events = some final →
      AllFail "video" final.2.log → final.2.retried.count "video" ≤ 3) ↔
        3 ≤ failedVideo.retryCount.getD 0 :=
  retried_le_iff failed_afterFailure

/-- An upload fails, the user retries it twice, and two startups resume it. -/
theorem fourRetries_fail :
    (∃ life, run (live sampleConfig) (⟨[], [], 0, []⟩, ⟨[], []⟩) startAndFail =
      some (afterFailure, life)) ∧
    ∃ final, run (live sampleConfig) (afterFailure, ⟨[], []⟩) fourRetries = some final ∧
      AllFail "video" final.2.log ∧ final.2.retried.count "video" = 4 := by
  constructor
  · obtain ⟨⟨⟨box, calls, attempts, drawn⟩, life⟩, ran, rfl, rfl, rfl, rfl⟩ := exists_of_any
      (fun final : State × Life => final.1.box = afterFailure.box ∧ final.1.calls = [] ∧
        final.1.attempts = 1 ∧ final.1.drawn = ["video"])
      (show (run (live sampleConfig) (⟨[], [], 0, []⟩, ⟨[], []⟩) startAndFail).any _ = true by
        decide +kernel)
    exact ⟨life, ran⟩
  · obtain ⟨final, ran, fail, count⟩ := exists_of_any
      (fun final : State × Life => allFail "video" final.2.log = true ∧
        final.2.retried.count "video" = 4)
      (show (run (live sampleConfig) (afterFailure, ⟨[], []⟩) fourRetries).any _ = true by
        decide +kernel)
    exact ⟨final, ran, .of_allFail fail, count⟩

end

end Divine.UploadManager
