/-
This file proves when an upload that is finished can be published.
-/

import Divine.UploadManager.Obedience

namespace Divine.UploadManager

open List Option Dictionary Interleaving Transition Observer

/-! ### Finished uploads -/

structure Done (log : List Entry) (id : String) (attempt : Nat) (status : UploadStatus) : Prop where
  finished : status = .readyToPublish ∨ status = .processing
  wrote : ∃ before, .wrote id attempt before status ∈ log

/-- `startUpload` returns what its attempt uploaded, and what an attempt wrote can be published. -/
structure Finished (seen : State × List Entry) : Prop where
  returned : ∀ number record, .returned number (some record) ∈ seen.2 →
    ∃ attempt, number = some attempt ∧ Done seen.2 record.id attempt record.status
  ready : ∀ id stored, find seen.1.box id = some stored → stored.status = .readyToPublish →
    (∃ attempt before after, .wrote id attempt before after ∈ seen.2) → stored.publishable = true

/-! ### The condition -/

/-- A successful result is in processing, or has the id and the URL that the record lacks. -/
def Completes (box : Box) (upload : PendingUpload) (result : UploadResult) : Prop :=
  result.success = true → result.isProcessing = false →
    ((result.videoId <|> ((find box upload.id).getD upload).videoId).isSome &&
      (validated result.cdnUrl <|> ((find box upload.id).getD upload).cdnUrl).any isHttpUrl) = true

/-- What an attempt finds when it stores a success, and stores when it returns to `startUpload`. -/
def StageFinishes (box : Box) (caller : Caller) : Stage → Answer → Prop
  | .uploading upload _, .result result _ => result.cdnUrl = none → Completes box upload result
  | .thumbnail upload _ result, .thumbnail none _ => Completes box upload result
  | .stored upload _ result, .done _ _ => Completes box upload result
  | .succeeded upload updated, .done _ _ => caller = .startUpload →
      ∀ stored, find box upload.id = some stored → stored.status = updated.status
  | .failed upload, .done _ _ => caller = .startUpload → find box upload.id = none
  | _, _ => True

def CallFinishes (box : Box) : Call → Answer → Prop
  | .attempt attempt, answer => StageFinishes box attempt.caller attempt.stage answer
  | .checking upload, .ready true _ => upload.videoId.isSome = true →
      upload.cdnUrl.any isHttpUrl = true
  | _, _ => True

def Finishes (seen : State × List Entry) : Action → Prop
  | .answer index answer => ∀ call, seen.1.calls[index]? = some call →
      CallFinishes seen.1.box call answer
  | _ => True

section

instance decidableCompletes (box : Box) (upload : PendingUpload) (result : UploadResult) :
    Decidable (Completes box upload result) :=
  inferInstanceAs (Decidable (_ → _ → _))

def stageFinishes (box : Box) (caller : Caller) : Stage → Answer → Bool
  | .uploading upload _, .result result _ =>
      decide (result.cdnUrl = none → Completes box upload result)
  | .thumbnail upload _ result, .thumbnail none _ => decide (Completes box upload result)
  | .stored upload _ result, .done _ _ => decide (Completes box upload result)
  | .succeeded upload updated, .done _ _ => decide (caller = .startUpload →
      ∀ stored, find box upload.id = some stored → stored.status = updated.status)
  | .failed upload, .done _ _ => decide (caller = .startUpload → find box upload.id = none)
  | _, _ => true

theorem stageFinishes_iff {box : Box} {caller : Caller} {stage : Stage} {answer : Answer} :
    stageFinishes box caller stage answer = true ↔ StageFinishes box caller stage answer := by
  unfold stageFinishes StageFinishes
  split <;> simp only [decide_eq_true_eq]

instance decidableStageFinishes (box : Box) (caller : Caller) (stage : Stage) (answer : Answer) :
    Decidable (StageFinishes box caller stage answer) :=
  decidable_of_iff _ stageFinishes_iff

def callFinishes (box : Box) : Call → Answer → Bool
  | .attempt attempt, answer => decide (StageFinishes box attempt.caller attempt.stage answer)
  | .checking upload, .ready true _ => !upload.videoId.isSome || upload.cdnUrl.any isHttpUrl
  | _, _ => true

theorem callFinishes_iff {box : Box} {call : Call} {answer : Answer} :
    callFinishes box call answer = true ↔ CallFinishes box call answer := by
  unfold callFinishes CallFinishes
  split
  · exact decide_eq_true_iff
  · simp only [Bool.or_eq_true, Bool.not_eq_true', ← Bool.not_eq_true, Decidable.imp_iff_not_or]
  · simp only

instance decidableCallFinishes (box : Box) (call : Call) (answer : Answer) :
    Decidable (CallFinishes box call answer) :=
  decidable_of_iff _ callFinishes_iff

def finishes (seen : State × List Entry) : Action → Bool
  | .answer index answer => seen.1.calls[index]?.all fun call =>
      decide (CallFinishes seen.1.box call answer)
  | _ => true

theorem finishes_iff {seen : State × List Entry} {action : Action} :
    finishes seen action = true ↔ Finishes seen action := by
  unfold finishes Finishes
  split
  · simp only [Option.all_eq_true, decide_eq_true_eq]
  · simp only

instance decidableFinishes (seen : State × List Entry) (action : Action) :
    Decidable (Finishes seen action) :=
  decidable_of_iff _ finishes_iff

end

/-! ### The invariant -/

def Stage.Sound (log : List Entry) (number : Nat) : Stage → Prop
  | .succeeded upload updated => Done log upload.id number updated.status
  | _ => True

def Call.Sound (log : List Entry) : Call → Prop
  | .attempt running => running.stage.upload.status ≠ .readyToPublish ∧
      running.stage.Sound log running.number
  | .resuming _ current => ∀ upload ∈ current, upload.status ≠ .readyToPublish
  | _ => True

structure Finishing (seen : State × List Entry) : Prop where
  finished : Finished seen
  keyed : ∀ id stored, find seen.1.box id = some stored → stored.id = id
  sound : ∀ call ∈ seen.1.calls, call.Sound seen.2

section

variable {box : Box} {calls next : List Call} {attempts number : Nat} {drawn : List String}
  {log : List Entry} {entry : Entry} {id : String} {upload stored : PendingUpload}

theorem Done.cons {status : UploadStatus} (done : Done log id number status) :
    Done (entry :: log) id number status where
  finished := done.finished
  wrote := done.wrote.imp fun _ member => mem_cons_of_mem _ member

theorem Stage.Sound.cons {stage : Stage} (sound : stage.Sound log number) :
    stage.Sound (entry :: log) number := by
  cases stage with
  | succeeded upload updated => exact Done.cons sound
  | _ => trivial

theorem Call.Sound.cons {call : Call} (sound : call.Sound log) : call.Sound (entry :: log) := by
  cases call with
  | attempt running => exact ⟨sound.1, sound.2.cons⟩
  | resuming rest current => exact sound
  | polling | checking => trivial

section

variable (finishing : Finishing (⟨box, calls, attempts, drawn⟩, log))

include finishing

theorem Finishing.put (ready : upload.status = .readyToPublish →
      (∃ attempt before after, .wrote upload.id attempt before after ∈ log) →
        upload.publishable = true) :
    Finishing (⟨updateUpload box upload, calls, attempts, drawn⟩, log) where
  finished :=
    { returned := finishing.finished.returned
      ready := fun id stored found isReady wrote => by
        have found : find (updateUpload box upload) id = some stored := found
        rw [find_updateUpload] at found
        split at found
        · rename_i same
          cases found
          exact ready isReady (same ▸ wrote)
        · exact finishing.finished.ready id stored found isReady wrote }
  keyed id stored found := by
    have found : find (updateUpload box upload) id = some stored := found
    rw [find_updateUpload] at found
    split at found
    · rename_i same
      cases found
      exact same
    · exact finishing.keyed id stored found
  sound := finishing.sound

theorem Finishing.cons
    (notWrote : ∀ id attempt before after, entry ≠ .wrote id attempt before after)
    (notReturned : ∀ attempt record, entry ≠ .returned attempt (some record)) :
    Finishing (⟨box, calls, attempts, drawn⟩, entry :: log) where
  finished :=
    { returned := fun number record member => by
        have before := (mem_cons.mp member).resolve_left fun same => notReturned _ _ same.symm
        obtain ⟨attempt, same, done⟩ := finishing.finished.returned number record before
        exact ⟨attempt, same, done.cons⟩
      ready := fun id stored found isReady wrote => by
        obtain ⟨attempt, before, after, member⟩ := wrote
        exact finishing.finished.ready id stored found isReady ⟨attempt, before, after,
          (mem_cons.mp member).resolve_left fun same => notWrote _ _ _ _ same.symm⟩ }
  keyed := finishing.keyed
  sound call member := (finishing.sound call member).cons

theorem Finishing.wrote (upload : PendingUpload)
    (ready : upload.status = .readyToPublish → upload.publishable = true) :
    Finishing (⟨updateUpload box upload, calls, attempts, drawn⟩,
      Divine.UploadManager.wrote box number upload :: log) := by
  have stored := finishing.put fun isReady _ => ready isReady
  refine ⟨⟨fun number record member => ?_, fun id held found isReady wrote => ?_⟩, stored.keyed,
    fun call member => (stored.sound call member).cons⟩
  · have before := (mem_cons.mp member).resolve_left fun same => by
      unfold UploadManager.wrote at same
      cases same
    obtain ⟨attempt, same, done⟩ := stored.finished.returned number record before
    exact ⟨attempt, same, done.cons⟩
  · by_cases same : upload.id = id
    · have found : find (updateUpload box upload) id = some held := found
      rw [find_updateUpload, if_pos same] at found
      cases found
      exact ready isReady
    · obtain ⟨attempt, before, after, member⟩ := wrote
      refine stored.finished.ready id held found isReady ⟨attempt, before, after, ?_⟩
      refine (mem_cons.mp member).resolve_left fun own => same ?_
      unfold UploadManager.wrote at own
      exact (Entry.wrote.inj own).1.symm

theorem Finishing.waits {given : Nat} {ids : List String}
    (sound : ∀ call ∈ next, call ∈ calls ∨ call.Sound log) :
    Finishing (⟨box, next, given, ids⟩, log) where
  finished :=
    { returned := finishing.finished.returned
      ready := finishing.finished.ready }
  keyed := finishing.keyed
  sound call member := (sound call member).elim (finishing.sound call) fun own => own

theorem Finishing.delete (id : String) :
    Finishing (⟨remove box id, calls, attempts, drawn⟩, log) := by
  have kept : ∀ other stored, find (remove box id) other = some stored →
      find box other = some stored := by
    intro other stored found
    rw [find_remove] at found
    split at found
    · cases found
    · exact found
  exact ⟨⟨finishing.finished.returned, fun other stored found =>
      finishing.finished.ready other stored (kept other stored found)⟩,
    fun other stored found => finishing.keyed other stored (kept other stored found),
    finishing.sound⟩

theorem Finishing.progress (id : String) (progress : Rat) :
    Finishing (⟨updateUploadProgress box id progress, calls, attempts, drawn⟩, log) := by
  unfold updateUploadProgress
  split
  · exact finishing
  · split
    · rename_i uploading
      refine finishing.put fun isReady _ => ?_
      cases uploading.symm.trans isReady
    · exact finishing

end

end

/-! ### Steps -/

section

variable {config : Config} {box : Box} {calls : List Call} {attempts number index : Nat}
  {drawn : List String} {log : List Entry} {id : String} {upload : PendingUpload}
  {outcome : Box × Stage × List Entry} {answer : Answer}

/-- What an attempt makes of the box keeps the invariant, with the stage that it goes on to. -/
structure Produces (calls : List Call) (attempts : Nat) (drawn : List String) (log : List Entry)
    (number : Nat) (upload : PendingUpload) (outcome : Box × Stage × List Entry) : Prop where
  finishing : Finishing (⟨outcome.1, calls, attempts, drawn⟩, outcome.2.2 ++ log)
  upload : outcome.2.1.upload = upload
  sound : outcome.2.1.Sound (outcome.2.2 ++ log) number

theorem announcement_not_ready (upload : PendingUpload) :
    (announcement upload).status ≠ .readyToPublish := by
  show (if upload.retryCount.getD 0 = 0 then UploadStatus.uploading else .retrying) ≠ _
  split <;> nofun

section

variable (finishing : Finishing (⟨box, calls, attempts, drawn⟩, log))

include finishing

theorem produces_announce (tries : Nat) :
    Produces calls attempts drawn log number upload (announce number box upload tries) where
  finishing := finishing.wrote (announcement upload) fun isReady =>
    absurd isReady (announcement_not_ready upload)
  upload := rfl
  sound := trivial

theorem produces_caught (tries : Nat) (error : ErrorText) :
    Produces calls attempts drawn log number upload
      (box, caught config upload tries error, []) where
  finishing := finishing
  upload := upload_caught upload tries error
  sound := by
    show (caught config upload tries error).Sound _ _
    unfold caught
    split <;> trivial

theorem produces_performUpload (present : Bool) :
    Produces calls attempts drawn log number upload
      (performUpload config number box upload present) := by
  unfold performUpload
  split
  · exact ⟨finishing, rfl, trivial⟩
  · split
    · exact produces_announce finishing 0
    · exact ⟨finishing, rfl, trivial⟩

theorem produces_handleUploadSuccess (tries : Nat) {result : UploadResult} (now : Nat)
    (completes : Completes box upload result) :
    Produces calls attempts drawn log number upload
      (handleUploadSuccess config number box upload tries result now) := by
  unfold handleUploadSuccess
  split
  · rename_i success
    have own : ((find box upload.id).getD upload).id = upload.id := by
      cases found : find box upload.id with
      | none => rfl
      | some stored => exact finishing.keyed upload.id stored found
    refine ⟨finishing.wrote _ fun isReady => ?_, rfl, ?_,
      (find box upload.id).map PendingUpload.status, ?_⟩
    · rw [publishable_createSuccessfulUpload]
      refine completes success (Bool.eq_false_iff.mpr fun processing => ?_)
      have isReady : (if result.isProcessing then UploadStatus.processing else .readyToPublish) =
        .readyToPublish := isReady
      rw [if_pos processing] at isReady
      cases isReady
    · show (if _ then _ else _) = _ ∨ (if _ then _ else _) = _
      split
      · exact .inr rfl
      · exact .inl rfl
    · refine mem_cons.mpr (.inl ?_)
      unfold wrote
      rw [createSuccessfulUpload_id, own]
  · exact produces_caught finishing tries _

end

theorem Completes.progress {result : UploadResult} (completes : Completes box upload result)
    (progress : Rat) (keyed : ∀ stored, find box upload.id = some stored → stored.id = upload.id) :
    Completes (updateUploadProgress box upload.id progress) upload result := by
  obtain ⟨given, found⟩ := find_updateUploadProgress box upload.id upload.id progress keyed
  unfold Completes
  rw [found]
  unfold Completes at completes
  cases held : find box upload.id with
  | none | some =>
    rw [held] at completes
    exact completes

theorem produces_advanceAttempt (finishing : Finishing (⟨box, calls, attempts, drawn⟩, log))
    {caller : Caller} {stage : Stage} (notReady : stage.upload.status ≠ .readyToPublish)
    (condition : StageFinishes box caller stage answer)
    (advanced : advanceAttempt config number box stage answer = some outcome) :
    Produces calls attempts drawn log number stage.upload outcome := by
  unfold advanceAttempt at advanced
  split at advanced
  · cases advanced
    exact produces_performUpload finishing _
  · rename_i upload tries present now
    cases advanced
    cases present with
    | true => exact ⟨finishing, rfl, trivial⟩
    | false => exact produces_caught finishing tries _
  · cases advanced
    exact produces_caught finishing _ _
  · split at advanced
    · cases advanced
      exact ⟨finishing, rfl, trivial⟩
    · rename_i upload tries result now missing
      cases advanced
      refine produces_handleUploadSuccess finishing tries now fun success processing => ?_
      refine condition (not_isSome_iff_eq_none.mp fun isSome => missing ?_) success processing
      rw [success, isSome]
      rfl
  · rename_i upload tries result url now
    have finished := finishing.progress upload.id 1
    cases url with
    | none =>
      cases advanced
      exact produces_handleUploadSuccess finished tries now
        (Completes.progress condition 1 (finishing.keyed upload.id))
    | some url =>
      cases advanced
      exact ⟨finished.wrote (withThumbnail upload url) fun isReady => absurd isReady notReady, rfl,
        trivial⟩
  · rename_i upload tries result present now
    cases advanced
    exact produces_handleUploadSuccess finishing tries now condition
  · rename_i upload tries present now
    cases advanced
    exact produces_announce finishing tries
  · rename_i upload error checked categorized
    cases advanced
    exact ⟨finishing.wrote (failedUpload upload error checked categorized) nofun, rfl, trivial⟩
  · cases advanced

theorem Finishing.resumeNext (finishing : Finishing (⟨box, calls, attempts, drawn⟩, log))
    (present : Bool) (rest : List PendingUpload) :
    Finishing (⟨(resumeNext config box present rest).1, calls, attempts, drawn⟩, log) ∧
      ∀ call ∈ (UploadManager.resumeNext config box present rest).2, call.Sound log := by
  have pending : UploadStatus.pending ≠ .readyToPublish := nofun
  have failed : UploadStatus.failed ≠ .readyToPublish := nofun
  cases rest with
  | nil => exact ⟨finishing, fun call member => by cases member⟩
  | cons next rest =>
    simp only [UploadManager.resumeNext]
    split
    · refine ⟨finishing.put fun isReady => absurd isReady pending, fun call member => ?_⟩
      cases member
      intro upload current
      cases current
      exact pending
    · refine ⟨finishing.put fun isReady => absurd isReady failed, fun call member => ?_⟩
      cases member
      intro upload current
      cases current

theorem sound_of_mem_proceed {stage : Option Call} {call : Call}
    (sound : ∀ call ∈ stage, call.Sound log) (member : call ∈ proceed calls index stage) :
    call ∈ calls ∨ call.Sound log := by
  rcases mem_proceed member with own | other
  · exact .inr (sound call own)
  · exact .inl (mem_of_mem_eraseIdx other)

section

variable (finishing : Finishing (⟨box, calls, attempts, drawn⟩, log))

include finishing

theorem Finishing.ends :
    Finishing (⟨box, proceed calls index none, attempts, drawn⟩, log) :=
  finishing.waits fun _ member => .inl (mem_of_mem_eraseIdx member)

theorem Finishing.returned {record : Option PendingUpload}
    (done : ∀ stored ∈ record, Done log stored.id number stored.status) :
    Finishing (⟨box, calls, attempts, drawn⟩, .returned number record :: log) := by
  cases record with
  | none =>
    exact finishing.cons (fun _ _ _ _ same => by cases same) (fun _ _ same => by cases same)
  | some stored =>
    refine ⟨⟨fun given record member => ?_, fun id held found isReady wrote => ?_⟩,
      finishing.keyed, fun call member => (finishing.sound call member).cons⟩
    · rcases mem_cons.mp member with own | before
      · obtain ⟨rfl, same⟩ := Entry.returned.inj own
        cases same
        exact ⟨number, rfl, (done _ rfl).cons⟩
      · obtain ⟨attempt, same, isDone⟩ := finishing.finished.returned given record before
        exact ⟨attempt, same, isDone.cons⟩
    · obtain ⟨attempt, before, after, member⟩ := wrote
      refine finishing.finished.ready id held found isReady ⟨attempt, before, after, ?_⟩
      exact (mem_cons.mp member).resolve_left fun same => by cases same

theorem Finishing.returns {held : Box} {attempt : Attempt}
    (done : attempt.caller = .startUpload → ∀ stored, find held attempt.stage.upload.id =
      some stored → Done log stored.id attempt.number stored.status) :
    Finishing (⟨box, calls, attempts, drawn⟩, UploadManager.returns held attempt ++ log) := by
  unfold UploadManager.returns
  split
  · rename_i isStart
    exact finishing.returned (done isStart)
  · exact finishing

end
variable {entries : List Entry} {after : State}


theorem Finishing.continues (finishing : Finishing (⟨box, calls, attempts, drawn⟩, log))
    {attempt : Attempt} (present : calls[index]? = some (.attempt attempt))
    (condition : StageFinishes box attempt.caller attempt.stage answer)
    (resumed : State.resume config ⟨box, calls, attempts, drawn⟩ index answer
      (.attempt attempt) = some (after, entries)) :
    Finishing (after, entries ++ log) := by
  obtain ⟨notReady, sound⟩ := finishing.sound _ (mem_of_getElem? present)
  obtain ⟨number, caller, stage⟩ := attempt
  simp only [State.resume] at resumed
  split at resumed
  · rename_i upload updated _ _
    cases resumed
    refine (finishing.waits fun call member => ?_).returns fun isStart stored found => ?_
    · rcases mem_append.mp member with inside | new
      · exact .inl (mem_of_mem_eraseIdx inside)
      · split at new
        · obtain rfl := mem_singleton.mp new
          exact .inr trivial
        · cases new
    · rw [condition isStart stored found, finishing.keyed _ _ found]
      exact sound
  · cases resumed
    refine finishing.ends.returns fun isStart stored found => ?_
    cases (condition isStart).symm.trans found
  · obtain ⟨outcome, advanced, isAfter⟩ := map_eq_some_iff.mp resumed
    cases isAfter
    have produces := produces_advanceAttempt finishing notReady condition advanced
    refine produces.finishing.waits fun call member => ?_
    refine sound_of_mem_proceed (fun stage own => ?_) member
    cases own
    exact ⟨produces.upload.symm ▸ notReady, produces.sound⟩

theorem Finishing.resumes (finishing : Finishing (⟨box, calls, attempts, drawn⟩, log))
    {rest : List PendingUpload} {current : Option PendingUpload}
    (present : calls[index]? = some (.resuming rest current))
    (resumed : State.resume config ⟨box, calls, attempts, drawn⟩ index answer
      (.resuming rest current) = some (after, entries)) :
    Finishing (after, entries ++ log) := by
  have notReady := finishing.sound _ (mem_of_getElem? present)
  simp only [State.resume] at resumed
  split at resumed
  · rename_i started found
    cases resumed
    obtain ⟨stored, sound⟩ := @Finishing.resumeNext config _ _ _ _ _ finishing found rest
    exact stored.waits fun call member => sound_of_mem_proceed sound member
  · rename_i upload started found
    cases resumed
    have began := @Finishing.cons _ _ _ _ _ (.began upload.id attempts) finishing
      (fun _ _ _ _ same => by cases same) (fun _ _ same => by cases same)
    have produces := @produces_performUpload config _ _ _ attempts _ _ upload began started
    obtain ⟨stored, sound⟩ := @Finishing.resumeNext config _ _ _ _ _ produces.finishing found rest
    rw [append_assoc]
    refine stored.waits fun call member => ?_
    rcases mem_append.mp member with inside | new
    · exact sound_of_mem_proceed sound inside
    · obtain rfl := mem_singleton.mp new
      exact .inr ⟨produces.upload.symm ▸ notReady upload rfl, produces.sound⟩
  · cases resumed

theorem Finishing.polls (finishing : Finishing (⟨box, calls, attempts, drawn⟩, log))
    (resumed : State.resume config ⟨box, calls, attempts, drawn⟩ index answer (.polling id) =
      some (after, entries)) :
    Finishing (after, entries ++ log) := by
  simp only [State.resume] at resumed
  split at resumed
  · cases resumed
    exact finishing.ends
  · split at resumed
    · cases resumed
      exact finishing.ends
    · split at resumed
      · cases resumed
        refine finishing.waits fun call member => ?_
        rcases mem_append.mp member with inside | new
        · exact .inl inside
        · obtain rfl := mem_singleton.mp new
          exact .inr trivial
      · cases resumed
        exact finishing.ends
  · cases resumed

theorem Finishing.checks (finishing : Finishing (⟨box, calls, attempts, drawn⟩, log))
    (condition : CallFinishes box (.checking upload) answer)
    (resumed : State.resume config ⟨box, calls, attempts, drawn⟩ index answer
      (.checking upload) = some (after, entries)) :
    Finishing (after, entries ++ log) := by
  simp only [State.resume] at resumed
  split at resumed
  · rename_i isReady now
    cases resumed
    refine Finishing.ends ?_
    split
    · rename_i isDone
      obtain ⟨rfl, isSome⟩ := Bool.and_eq_true_iff.mp isDone
      refine finishing.put fun _ _ => ?_
      show (upload.videoId.isSome && upload.cdnUrl.any isHttpUrl) = true
      rw [isSome, condition isSome]
      rfl
    · exact finishing
  · cases resumed

/-- A record that is ready and cannot be published was not written by an attempt. -/
theorem Finishing.update (finishing : Finishing (⟨box, calls, attempts, drawn⟩, log))
    {stored : PendingUpload} (found : find box id = some stored) (metadata : Metadata) :
    Finishing (⟨updateUpload box (withMetadata stored metadata), calls, attempts, drawn⟩, log) := by
  obtain rfl := finishing.keyed id stored found
  exact finishing.put fun isReady wrote =>
    finishing.finished.ready stored.id stored found isReady wrote

theorem Finishing.starts (finishing : Finishing (⟨box, calls, attempts, drawn⟩, log))
    (notReady : upload.status ≠ .readyToPublish) (caller : Caller) :
    Finishing ((State.begin ⟨box, calls, attempts, drawn⟩ upload caller).1,
      (State.begin ⟨box, calls, attempts, drawn⟩ upload caller).2 ++ log) := by
  have stored := finishing.put fun isReady _ => absurd isReady notReady
  have began := @Finishing.cons _ _ _ _ _ (.began upload.id attempts) stored
    (fun _ _ _ _ same => by cases same) (fun _ _ same => by cases same)
  refine began.waits fun call member => ?_
  rcases mem_append.mp member with inside | new
  · exact .inl inside
  · obtain rfl := mem_singleton.mp new
    exact .inr ⟨notReady, trivial⟩

theorem Finishing.step {seen next : State × List Entry} {action : Action}
    (finishing : Finishing seen) (condition : Finishes seen action)
    (sees : watched (step config) observe seen action = some next) : Finishing next := by
  obtain ⟨⟨box, calls, attempts, drawn⟩, log⟩ := seen
  obtain ⟨entries, stepped, recorded⟩ := watched_eq_some.mp sees
  obtain ⟨after, history⟩ := next
  obtain rfl : history = entries ++ log := recorded
  have pending : UploadStatus.pending ≠ .readyToPublish := nofun
  have failed : UploadStatus.failed ≠ .readyToPublish := nofun
  have paused : UploadStatus.paused ≠ .readyToPublish := nofun
  cases action with
  | startUpload upload =>
    simp only [UploadManager.step] at stepped
    split at stepped
    · cases stepped
      exact finishing.cons (fun _ _ _ _ same => by cases same) (fun _ _ same => by cases same)
    · split at stepped
      · rename_i isNew
        cases stepped
        have draws : Finishing (⟨box, calls, attempts, upload.id :: drawn⟩, log) :=
          finishing.waits fun _ member => .inl member
        refine draws.starts ?_ .startUpload
        rw [isNew.2]
        exact pending
      · cases stepped
  | resumeUpload | retryUpload =>
    simp only [UploadManager.step] at stepped
    split at stepped
    · cases stepped
      exact finishing
    · split at stepped
      · cases stepped
        exact finishing.starts pending .other
      · cases stepped
        exact finishing
  | pauseUpload id =>
    simp only [UploadManager.step] at stepped
    split at stepped
    · cases stepped
      exact finishing
    · split at stepped
      · cases stepped
        exact (finishing.put fun isReady _ => absurd isReady paused).cons
          (fun _ _ _ _ same => by cases same) (fun _ _ same => by cases same)
      · cases stepped
        exact finishing
  | cancelUpload id =>
    simp only [UploadManager.step] at stepped
    split at stepped
    · cases stepped
      exact finishing
    · cases stepped
      exact (finishing.put fun isReady _ => absurd isReady failed).cons
        (fun _ _ _ _ same => by cases same) (fun _ _ same => by cases same)
  | deleteUpload id =>
    simp only [UploadManager.step] at stepped
    split at stepped
    · cases stepped
      exact finishing
    · cases stepped
      exact (finishing.delete id).cons
        (fun _ _ _ _ same => by cases same) (fun _ _ same => by cases same)
  | updateUploadMetadata id metadata =>
    simp only [UploadManager.step] at stepped
    split at stepped
    · cases stepped
      exact finishing
    · rename_i stored found
      cases stepped
      exact (finishing.update found metadata).cons
        (fun _ _ _ _ same => by cases same) (fun _ _ same => by cases same)
  | resumeInterruptedUploads uploads present =>
    simp only [UploadManager.step] at stepped
    split at stepped
    · cases stepped
      obtain ⟨stored, sound⟩ := @Finishing.resumeNext config _ _ _ _ _ finishing present uploads
      refine stored.waits fun call member => ?_
      rcases mem_append.mp member with before | new
      · exact .inl before
      · exact .inr (sound call (mem_toList.mp new))
    · cases stepped
  | progress id progress =>
    cases stepped
    exact finishing.progress id progress
  | answer index answer =>
    obtain ⟨call, present, resumed⟩ := bind_eq_some_iff.mp stepped
    have finishes := condition call present
    cases call with
    | attempt attempt => exact finishing.continues present finishes resumed
    | resuming rest current => exact finishing.resumes present resumed
    | polling id => exact finishing.polls resumed
    | checking upload => exact finishing.checks finishes resumed

end

/-! ### Runs -/

/-- What is finished can be published in a run whose steps meet the condition. -/
theorem finished_of_run {config : Config} {box : Box} {drawn : List String} {actions : List Action}
    {final : State × List Entry} (stored : Stored box drawn)
    (meets : Meets (watched (step config) observe) Finishes (⟨box, [], 0, drawn⟩, []) actions)
    (ran : run (watched (step config) observe) (⟨box, [], 0, drawn⟩, []) actions = some final) :
    Finished final := by
  have initial : Finishing (⟨box, [], 0, drawn⟩, []) :=
    { finished :=
        { returned := fun _ _ member => absurd member not_mem_nil
          ready := fun _ _ _ _ wrote => by
            obtain ⟨_, _, _, member⟩ := wrote
            exact absurd member not_mem_nil }
      keyed := fun id upload found => (stored.keyed id upload found).1
      sound := fun _ member => absurd member not_mem_nil }
  exact Finishing.finished (invariant_of_meets (watched (step config) observe)
    (fun _ _ _ finishing condition stepped => Finishing.step finishing condition stepped) initial
    meets ran)

section

theorem finished_updated : ∃ final, afterUploads updates = some final ∧ Finished final := by
  refine exists_of_isSome (by decide +kernel) fun final ran => ?_
  exact finished_of_run (stored_nil []) (by decide +kernel) ran

def pathResult : UploadResult := { sampleResult with url := some "/data/user/0/clip.mp4" }

def processingResult : UploadResult :=
  { sampleResult with url := none, errorMessage := some "processing" }

/-- `startUpload` returns a failed record after an error, and a record is ready without a URL after
a path or a processed result. -/
theorem unfinished :
    (∃ final, afterUploads [.answer 0 (.raised "exception: 404"),
        .answer 0 (.connectivity .wifi .wifi), .answer 0 (.done true 0)] = some final ∧
      .returned (some 0) (some (failedUpload sampleUpload "exception: 404" .wifi .wifi)) ∈ final.2 ∧
        (failedUpload sampleUpload "exception: 404" .wifi .wifi).status = .failed) ∧
    (∃ final, afterUploads [.answer 0 (.result pathResult 0), .answer 0 (.thumbnail none 0),
        .answer 0 (.done true 0)] = some final ∧
      .wrote "video" 0 (some .uploading) .readyToPublish ∈ final.2 ∧
        ∃ record ∈ find final.1.box "video", record.status = .readyToPublish ∧
          record.cdnUrl = none) ∧
    ∃ final, afterUploads [.answer 0 (.result processingResult 0), .answer 0 (.done true 0),
        .answer 0 .tick, .answer 1 (.ready true 0)] = some final ∧
      .wrote "video" 0 (some .uploading) .processing ∈ final.2 ∧
        ∃ record ∈ find final.1.box "video", record.status = .readyToPublish ∧
          record.cdnUrl = none :=
  ⟨exists_of_any _ (by decide +kernel), exists_of_any _ (by decide +kernel),
    exists_of_any _ (by decide +kernel)⟩

end

end Divine.UploadManager
