/-
This file proves when the record of an upload obeys the user.
-/

import Divine.Library.Observer
import Divine.UploadManager.Attempts

namespace Divine.UploadManager

open Dictionary Interleaving Transition Observer

/-! ### Obedience -/

def observe : Observe State Action (List Entry) (List Entry) := fun log _ _ _ entries =>
  entries ++ log

def Call.key : Call → Option (String × Nat)
  | .attempt running => some (running.stage.upload.id, running.number)
  | _ => none

def State.running (state : State) : List (String × Nat) := state.calls.filterMap Call.key

/-- The upload of an attempt was paused or cancelled after the attempt began. -/
def Stopped (log : List Entry) (id : String) (attempt : Nat) : Prop :=
  ∃ later earlier, log = later ++ .stopped id :: earlier ∧ .began id attempt ∈ earlier

/-- What an attempt wrote after it was stopped kept the status. -/
def Still : List Entry → Prop
  | [] => True
  | .wrote id attempt before after :: log =>
      (Stopped log id attempt → before = some after) ∧ Still log
  | _ :: log => Still log

def expected : List Entry → String → Metadata
  | [], _ => ⟨none, none, none⟩
  | .updated other metadata :: log, id =>
      if other = id then metadata.over (expected log id) else expected log id
  | _ :: log, id => expected log id

structure Obeys (seen : State × List Entry) : Prop where
  alone : (seen.1.running.map Prod.fst).Nodup
  gone : ∀ id, .deleted id ∈ seen.2 → find seen.1.box id = none
  still : Still seen.2
  kept : ∀ id upload, find seen.1.box id = some upload →
    (expected seen.2 id).over upload.metadata = upload.metadata

/-! ### The condition -/

def State.Free (state : State) (id : String) : Prop := ∀ number, (id, number) ∉ state.running

/-- The record is there, and the upload was not paused or cancelled. -/
def Active (box : Box) (id : String) : Prop :=
  ∃ stored, find box id = some stored ∧ stored.status ≠ .paused ∧ stored.status ≠ .failed

/-- The record is there with the metadata of a record that was read before. -/
def Current (box : Box) (upload : PendingUpload) : Prop :=
  ∃ stored, find box upload.id = some stored ∧ stored.metadata = upload.metadata

/-- An attempt writes over a current record, or what is there, of an upload that was not paused or
cancelled; an attempt that fails may find it cancelled. -/
def StageCondition (box : Box) : Stage → Answer → Prop
  | .starting upload, .done true _ => Current box upload ∧ Active box upload.id
  | .uploading upload _, .result _ _ => Active box upload.id
  | .thumbnail upload _ _, .thumbnail none _ => Active box upload.id
  | .thumbnail upload _ _, .thumbnail (some _) _ => Current box upload ∧ Active box upload.id
  | .stored upload _ _, .done _ _ => Active box upload.id
  | .delaying upload _, .done _ _ => Current box upload ∧ Active box upload.id
  | .failing upload _, .connectivity _ _ => Current box upload ∧
      ∀ stored, find box upload.id = some stored → stored.status ≠ .paused
  | _, _ => True

/-- What the startup is to find when it writes the record of the next upload. -/
def State.NextCondition (state : State) (rest : List PendingUpload) : Prop :=
  ∀ next ∈ rest.head?, Current state.box next ∧ state.Free next.id

def CallCondition (state : State) : Call → Answer → Prop
  | .attempt attempt, answer => StageCondition state.box attempt.stage answer
  | .resuming rest current, .files _ _ =>
      (∀ upload ∈ current, Current state.box upload ∧ state.Free upload.id) ∧
        state.NextCondition rest
  | .checking upload, .ready true _ => Current state.box upload ∧ Active state.box upload.id
  | _, _ => True

def Condition (seen : State × List Entry) : Action → Prop
  | .resumeUpload id | .retryUpload id => seen.1.Free id
  | .resumeInterruptedUploads uploads _ => seen.1.NextCondition uploads
  | .answer index answer => ∀ call, seen.1.calls[index]? = some call →
      CallCondition seen.1 call answer
  | _ => True

section

instance decidableFree (state : State) (id : String) : Decidable (state.Free id) :=
  decidable_of_iff (∀ key ∈ state.running, key.1 ≠ id)
    ⟨fun free _ member => free _ member rfl,
      fun free key member same => free key.2 (same ▸ member)⟩

instance decidableActive (box : Box) (id : String) : Decidable (Active box id) :=
  decidable_of_iff (∃ stored ∈ find box id, stored.status ≠ .paused ∧ stored.status ≠ .failed)
    Iff.rfl

instance decidableCurrent (box : Box) (upload : PendingUpload) : Decidable (Current box upload) :=
  decidable_of_iff (∃ stored ∈ find box upload.id, stored.metadata = upload.metadata) Iff.rfl

instance decidableStageCondition (box : Box) (stage : Stage) (answer : Answer) :
    Decidable (StageCondition box stage answer) := by
  unfold StageCondition
  split <;> infer_instance

instance decidableNextCondition (state : State) (rest : List PendingUpload) :
    Decidable (state.NextCondition rest) :=
  inferInstanceAs (Decidable (∀ next ∈ rest.head?, Current state.box next ∧ state.Free next.id))

instance decidableCallCondition (state : State) (call : Call) (answer : Answer) :
    Decidable (CallCondition state call answer) := by
  unfold CallCondition
  split <;> infer_instance

instance decidableCondition (seen : State × List Entry) (action : Action) :
    Decidable (Condition seen action) := by
  unfold Condition
  split <;> infer_instance

end

/-! ### The invariant -/

/-- Each record and each attempt that runs has its id, drawn before; and a stopped attempt finds its
record paused, failed or gone. -/
structure Invariant (seen : State × List Entry) : Prop where
  obeys : Obeys seen
  keys : (seen.1.box.map Prod.fst).Nodup
  keyed : ∀ id upload, find seen.1.box id = some upload → upload.id = id ∧ id ∈ seen.1.drawn
  resuming : ∀ rest current, .resuming rest current ∈ seen.1.calls →
    ((current.toList ++ rest).map PendingUpload.id).Nodup
  named : ∀ id, (.deleted id ∈ seen.2 ∨ ∃ metadata, .updated id metadata ∈ seen.2) →
    id ∈ seen.1.drawn
  running : ∀ id number, (id, number) ∈ seen.1.running → id ∈ seen.1.drawn
  began : ∀ id number, .began id number ∈ seen.2 → number < seen.1.attempts
  stopped : ∀ id number, (id, number) ∈ seen.1.running → Stopped seen.2 id number →
    ¬ Active seen.1.box id

section

variable {log : List Entry} {entry : Entry} {id : String} {attempt : Nat}

theorem Stopped.cons (stopped : Stopped log id attempt) : Stopped (entry :: log) id attempt := by
  obtain ⟨later, earlier, rfl, began⟩ := stopped
  exact ⟨entry :: later, earlier, rfl, began⟩

theorem stopped_cons (other : entry ≠ .stopped id) :
    Stopped (entry :: log) id attempt ↔ Stopped log id attempt := by
  refine ⟨?_, Stopped.cons⟩
  rintro ⟨later, earlier, same, began⟩
  cases later with
  | nil => exact absurd (List.cons.inj same).1 other
  | cons _ later => exact ⟨later, earlier, (List.cons.inj same).2, began⟩

theorem stopped_began {other : String} {number : Nat} :
    Stopped (.began other number :: log) id attempt ↔ Stopped log id attempt :=
  stopped_cons nofun

theorem not_stopped {number : Nat} (fresh : ∀ id, .began id number ∉ log) :
    ¬ Stopped log id number := by
  rintro ⟨later, earlier, rfl, began⟩
  exact fresh id (List.mem_append_right _ (List.mem_cons_of_mem _ began))

theorem over_over {given set metadata : Metadata} (kept : set.over metadata = metadata) :
    (given.over set).over (given.over metadata) = given.over metadata := by
  have field : ∀ {Value : Type} (given set kept : Option Value), (set <|> kept) = kept →
      ((given <|> set) <|> (given <|> kept)) = (given <|> kept) := by
    intro Value given set kept same
    cases given with
    | none => exact same
    | some value => rfl
  unfold Metadata.over
  rw [field _ _ _ (congrArg Metadata.title kept), field _ _ _ (congrArg Metadata.description kept),
    field _ _ _ (congrArg Metadata.hashtags kept)]

theorem expected_of_not_named (fresh : ∀ metadata, .updated id metadata ∉ log) :
    expected log id = ⟨none, none, none⟩ := by
  induction log with
  | nil => rfl
  | cons entry log ih =>
    have rest := ih fun metadata member =>
      fresh metadata (List.mem_cons_of_mem _ member)
    cases entry with
    | updated other metadata =>
      have differs : other ≠ id := by
        rintro rfl
        exact fresh metadata List.mem_cons_self
      exact (if_neg differs).trans rest
    | stopped | deleted | began | wrote | returned => exact rest

theorem none_over (metadata : Metadata) : Metadata.over ⟨none, none, none⟩ metadata =
    metadata := rfl

end

section

variable {box : Box} {calls next : List Call} {attempts number : Nat} {drawn : List String}
  {log : List Entry} {id : String} {upload stored : PendingUpload}

/-- A record that is there may be written again with its metadata. -/
structure Writable (box : Box) (drawn : List String) (log : List Entry) (upload : PendingUpload) :
    Prop where
  drawn : upload.id ∈ drawn
  notDeleted : .deleted upload.id ∉ log
  kept : (expected log upload.id).over upload.metadata = upload.metadata

theorem find_updateUpload (box : Box) (upload : PendingUpload) (id : String) :
    find (updateUpload box upload) id = if upload.id = id then some upload else find box id :=
  find_put box upload.id id upload

theorem find_updateUploadProgress (box : Box) (id other : String) (progress : Rat)
    (keyed : ∀ stored, find box id = some stored → stored.id = id) :
    ∃ given : PendingUpload → Option Rat, find (updateUploadProgress box id progress) other =
      (find box other).map fun stored => { stored with uploadProgress := given stored } := by
  have same : ∀ held : Option PendingUpload,
      held = held.map fun stored => { stored with uploadProgress := stored.uploadProgress } :=
    fun held => Option.map_id'.symm
  unfold updateUploadProgress
  cases found : find box id with
  | none => exact ⟨_, same _⟩
  | some upload =>
    have own := keyed upload found
    by_cases uploading : upload.status = .uploading
    · simp only [if_pos uploading, find_updateUpload]
      by_cases isOther : upload.id = other
      · refine ⟨fun _ => some progress, ?_⟩
        have isFound : find box other = some upload := by rw [← isOther, own, found]
        rw [if_pos isOther, isFound]
        rfl
      · rw [if_neg isOther]
        exact ⟨_, same _⟩
    · simp only [if_neg uploading]
      exact ⟨_, same _⟩

theorem Current.progress (current : Current box upload) (progress : Rat)
    (keyed : ∀ stored, find box id = some stored → stored.id = id) :
    Current (updateUploadProgress box id progress) upload := by
  obtain ⟨stored, found, same⟩ := current
  obtain ⟨given, isFound⟩ := find_updateUploadProgress box id upload.id progress keyed
  rw [found, Option.map_some] at isFound
  exact ⟨_, isFound, same⟩

theorem Active.progress {other : String} (active : Active box other) (progress : Rat)
    (keyed : ∀ stored, find box id = some stored → stored.id = id) :
    Active (updateUploadProgress box id progress) other := by
  obtain ⟨stored, found, notPaused, notFailed⟩ := active
  obtain ⟨given, isFound⟩ := find_updateUploadProgress box id other progress keyed
  rw [found, Option.map_some] at isFound
  exact ⟨_, isFound, notPaused, notFailed⟩

/-- Where an attempt of the upload was stopped, a record keeps its status by staying failed. -/
def Harmless (box : Box) (calls : List Call) (log : List Entry) (upload : PendingUpload) : Prop :=
  ∀ number, (upload.id, number) ∈ calls.filterMap Call.key → Stopped log upload.id number →
    upload.status = .failed ∧ (find box upload.id).map PendingUpload.status = some .failed

section

variable (invariant : Invariant (⟨box, calls, attempts, drawn⟩, log))

include invariant

theorem Invariant.writable (current : Current box upload) : Writable box drawn log upload := by
  obtain ⟨stored, found, same⟩ := current
  refine ⟨(invariant.keyed _ _ found).2, fun deleted => ?_, ?_⟩
  · cases (invariant.obeys.gone _ deleted).symm.trans found
  · rw [← same]
    exact invariant.obeys.kept _ _ found

theorem Invariant.put (writable : Writable box drawn log upload)
    (stopped : ∀ number, (upload.id, number) ∈ calls.filterMap Call.key →
      Stopped log upload.id number → upload.status = .paused ∨ upload.status = .failed) :
    Invariant (⟨updateUpload box upload, calls, attempts, drawn⟩, log) where
  obeys :=
    { alone := invariant.obeys.alone
      gone := fun id deleted => by
        have differs : upload.id ≠ id := by
          rintro rfl
          exact writable.notDeleted deleted
        rw [find_updateUpload, if_neg differs]
        exact invariant.obeys.gone id deleted
      still := invariant.obeys.still
      kept := fun id stored found => by
        rw [find_updateUpload] at found
        split at found
        · rename_i same
          cases found
          exact same ▸ writable.kept
        · exact invariant.obeys.kept id stored found }
  keys := nodup_keys_put invariant.keys
  keyed id stored found := by
    rw [find_updateUpload] at found
    split at found
    · rename_i same
      cases found
      exact ⟨same, same ▸ writable.drawn⟩
    · exact invariant.keyed id stored found
  resuming := invariant.resuming
  named := invariant.named
  running := invariant.running
  began := invariant.began
  stopped id number runs isStopped := by
    rintro ⟨stored, found, notPaused, notFailed⟩
    rw [find_updateUpload] at found
    split at found
    · rename_i same
      cases found
      subst same
      exact (stopped number runs isStopped).elim notPaused notFailed
    · exact invariant.stopped id number runs isStopped ⟨stored, found, notPaused, notFailed⟩

theorem Invariant.proceeds (sublist : (next.filterMap Call.key).Sublist (calls.filterMap Call.key))
    (resuming : ∀ rest current, .resuming rest current ∈ next →
      ((current.toList ++ rest).map PendingUpload.id).Nodup) :
    Invariant (⟨box, next, attempts, drawn⟩, log) where
  obeys :=
    { alone := invariant.obeys.alone.sublist (sublist.map Prod.fst)
      gone := invariant.obeys.gone
      still := invariant.obeys.still
      kept := invariant.obeys.kept }
  keys := invariant.keys
  keyed := invariant.keyed
  resuming := resuming
  named := invariant.named
  running id number runs := invariant.running id number (sublist.subset runs)
  began := invariant.began
  stopped id number runs := invariant.stopped id number (sublist.subset runs)

theorem Invariant.logged {records : Box} {entry : Entry} (keys : (records.map Prod.fst).Nodup)
    (kept : ∀ id upload, find records id = some upload → (upload.id = id ∧ id ∈ drawn) ∧
      (expected (entry :: log) id).over upload.metadata = upload.metadata)
    (gone : ∀ id, entry = .deleted id ∨ find box id = none → find records id = none)
    (deletes : ∀ id, entry = .deleted id → id ∈ drawn)
    (updates : ∀ id metadata, entry = .updated id metadata → id ∈ drawn)
    (begins : ∀ id number, entry ≠ .began id number) (still : Still log → Still (entry :: log))
    (stopped : ∀ id, entry = .stopped id ∨ ¬ Active box id → ¬ Active records id) :
    Invariant (⟨records, calls, attempts, drawn⟩, entry :: log) where
  obeys :=
    { alone := invariant.obeys.alone
      gone := fun id deleted =>
        gone id ((List.mem_cons.mp deleted).imp Eq.symm (invariant.obeys.gone id))
      still := still invariant.obeys.still
      kept := fun id upload found => (kept id upload found).2 }
  keys := keys
  keyed id upload found := (kept id upload found).1
  resuming := invariant.resuming
  named := by
    rintro id (deleted | ⟨metadata, updated⟩)
    · exact (List.mem_cons.mp deleted).elim (fun own => deletes id own.symm)
        fun before => invariant.named id (.inl before)
    · exact (List.mem_cons.mp updated).elim (fun own => updates id metadata own.symm)
        fun before => invariant.named id (.inr ⟨metadata, before⟩)
  running := invariant.running
  began id number isBegan := invariant.began id number
    ((List.mem_cons.mp isBegan).resolve_left fun own => begins id number own.symm)
  stopped id number runs isStopped := by
    refine stopped id ?_
    by_cases own : entry = .stopped id
    · exact .inl own
    · exact .inr (invariant.stopped id number runs ((stopped_cons own).mp isStopped))

/-- The records stay as they are where the entry is of an attempt. -/
theorem Invariant.noted {entry : Entry} (same : ∀ id, expected (entry :: log) id = expected log id)
    (deletes : ∀ id, entry ≠ .deleted id) (updates : ∀ id metadata, entry ≠ .updated id metadata)
    (begins : ∀ id number, entry ≠ .began id number) (still : Still log → Still (entry :: log))
    (stopped : ∀ id, entry = .stopped id → ¬ Active box id) :
    Invariant (⟨box, calls, attempts, drawn⟩, entry :: log) := by
  refine invariant.logged invariant.keys (fun id upload found => ⟨invariant.keyed id upload found,
    ?_⟩) (fun id none => none.resolve_left (deletes id)) (fun id own => absurd own (deletes id))
    (fun id metadata own => absurd own (updates id metadata)) begins still fun id inactive =>
      inactive.elim (stopped id) fun before => before
  rw [same]
  exact invariant.obeys.kept id upload found

theorem Invariant.begin (caller : Caller) (stage : Stage) (isDrawn : stage.upload.id ∈ drawn)
    (free : ∀ number, (stage.upload.id, number) ∉ calls.filterMap Call.key) :
    Invariant (⟨box, calls ++ [.attempt ⟨attempts, caller, stage⟩], attempts + 1, drawn⟩,
      .began stage.upload.id attempts :: log) := by
  have running : State.running ⟨box, calls ++ [.attempt ⟨attempts, caller, stage⟩], attempts + 1,
      drawn⟩ = calls.filterMap Call.key ++ [(stage.upload.id, attempts)] := List.filterMap_append
  have fresh : ∀ id, .began id attempts ∉ log := fun id began =>
    Nat.lt_irrefl _ (invariant.began id attempts began)
  refine ⟨⟨?_, ?_, invariant.obeys.still, invariant.obeys.kept⟩, invariant.keys, invariant.keyed,
    ?_, ?_, ?_, ?_, ?_⟩
  · show ((State.running _).map Prod.fst).Nodup
    rw [running, List.map_append]
    refine List.Nodup.append invariant.obeys.alone (List.nodup_singleton _) fun id inside own => ?_
    obtain rfl := List.mem_singleton.mp own
    obtain ⟨⟨id, number⟩, runs, same⟩ := List.mem_map.mp inside
    have same : id = stage.upload.id := same
    exact free number (same ▸ runs)
  · intro id deleted
    exact invariant.obeys.gone id ((List.mem_cons.mp deleted).resolve_left nofun)
  · intro rest current member
    exact invariant.resuming rest current
      ((List.mem_append.mp member).resolve_right fun own => by cases List.mem_singleton.mp own)
  · rintro id (deleted | ⟨metadata, updated⟩)
    · exact invariant.named id (.inl ((List.mem_cons.mp deleted).resolve_left nofun))
    · exact invariant.named id (.inr ⟨metadata, (List.mem_cons.mp updated).resolve_left nofun⟩)
  · intro id number runs
    rw [running] at runs
    rcases List.mem_append.mp runs with before | own
    · exact invariant.running id number before
    · cases List.mem_singleton.mp own
      exact isDrawn
  · intro id number began
    rcases List.mem_cons.mp began with own | before
    · obtain ⟨-, rfl⟩ := Entry.began.inj own
      exact Nat.lt_succ_self _
    · exact Nat.lt_succ_of_lt (invariant.began id number before)
  · intro id number runs isStopped
    rw [running] at runs
    have wasStopped := stopped_began.mp isStopped
    rcases List.mem_append.mp runs with before | own
    · exact invariant.stopped id number before wasStopped
    · cases List.mem_singleton.mp own
      exact absurd wasStopped (not_stopped fresh)

theorem Invariant.harmless_of_active (active : Active box upload.id) :
    Harmless box calls log upload :=
  fun _ runs isStopped => absurd active (invariant.stopped _ _ runs isStopped)

theorem Invariant.harmless_of_failed (current : Current box upload)
    (fails : upload.status = .failed)
    (notPaused : ∀ stored, find box upload.id = some stored → stored.status ≠ .paused) :
    Harmless box calls log upload := by
  intro number runs isStopped
  obtain ⟨stored, found, -⟩ := current
  refine ⟨fails, ?_⟩
  rw [found]
  by_contra notFailed
  exact invariant.stopped _ _ runs isStopped ⟨stored, found, notPaused stored found,
    fun isFailed => notFailed (congrArg some isFailed)⟩

theorem Invariant.wrote (upload : PendingUpload)
    (runs : (upload.id, number) ∈ calls.filterMap Call.key)
    (current : Current box upload) (failed : Harmless box calls log upload) :
    Invariant (⟨updateUpload box upload, calls, attempts, drawn⟩,
      Divine.UploadManager.wrote box number upload :: log) := by
  have stored := invariant.put (invariant.writable current) fun number runs isStopped =>
    .inr (failed number runs isStopped).1
  refine stored.noted (fun _ => rfl) nofun nofun nofun (fun still => ⟨fun isStopped => ?_, still⟩)
    nofun
  obtain ⟨fails, was⟩ := failed number runs isStopped
  rw [was, fails]

theorem Invariant.stop (current : Current box upload)
    (isStopped : upload.status = .paused ∨ upload.status = .failed) :
    Invariant (⟨updateUpload box upload, calls, attempts, drawn⟩, .stopped upload.id :: log) := by
  have stored := invariant.put (invariant.writable current) fun _ _ _ => isStopped
  refine stored.noted (fun _ => rfl) nofun nofun nofun id ?_
  rintro id ⟨⟩ ⟨found, isFound, notPaused, notFailed⟩
  rw [find_updateUpload, if_pos rfl] at isFound
  cases isFound
  exact isStopped.elim notPaused notFailed

theorem Invariant.delete (found : find box id = some stored) :
    Invariant (⟨remove box id, calls, attempts, drawn⟩, .deleted id :: log) := by
  have kept : ∀ other upload, find (remove box id) other = some upload →
      find box other = some upload := by
    intro other upload isFound
    rw [find_remove] at isFound
    split at isFound
    · cases isFound
    · exact isFound
  refine invariant.logged (nodup_keys_remove invariant.keys) (fun other upload isFound =>
    ⟨invariant.keyed other upload (kept other upload isFound),
      invariant.obeys.kept other upload (kept other upload isFound)⟩) ?_ ?_
    (by rintro _ _ ⟨⟩) (by rintro _ _ ⟨⟩) (fun still => still) ?_
  · intro other none
    rw [find_remove]
    split
    · rfl
    · rename_i differs
      exact none.resolve_left fun same => differs (Entry.deleted.inj same)
  · rintro other ⟨⟩
    exact (invariant.keyed _ _ found).2
  · rintro other inactive ⟨upload, isFound, active⟩
    exact inactive.resolve_left (by rintro ⟨⟩) ⟨upload, kept other upload isFound, active⟩

theorem Invariant.update (found : find box id = some stored) (metadata : Metadata) :
    Invariant (⟨updateUpload box (withMetadata stored metadata), calls, attempts, drawn⟩,
      .updated id metadata :: log) := by
  obtain ⟨own, isDrawn⟩ := invariant.keyed id stored found
  have keptBefore := invariant.obeys.kept id stored found
  subst own
  have isFound : ∀ other upload,
      find (updateUpload box (withMetadata stored metadata)) other = some upload →
        (stored.id = other ∧ upload = withMetadata stored metadata) ∨
          (stored.id ≠ other ∧ find box other = some upload) := by
    intro other upload isFound
    rw [find_updateUpload] at isFound
    split at isFound
    · rename_i same
      exact .inl ⟨same, (Option.some.inj isFound).symm⟩
    · rename_i differs
      exact .inr ⟨differs, isFound⟩
  refine invariant.logged (nodup_keys_put invariant.keys) ?_ ?_ (by rintro _ ⟨⟩) ?_
    (by rintro _ _ ⟨⟩) id ?_
  · intro other upload held
    rcases isFound other upload held with ⟨rfl, rfl⟩ | ⟨differs, before⟩
    · refine ⟨⟨rfl, isDrawn⟩, ?_⟩
      unfold expected
      rw [if_pos rfl]
      exact over_over keptBefore
    · refine ⟨invariant.keyed other upload before, ?_⟩
      unfold expected
      rw [if_neg differs]
      exact invariant.obeys.kept other upload before
  · rintro other none
    have gone := none.resolve_left (by rintro ⟨⟩)
    rw [find_updateUpload, if_neg]
    · exact gone
    · rintro rfl
      cases gone.symm.trans found
  · rintro other given ⟨⟩
    exact isDrawn
  · rintro other inactive ⟨upload, held, active⟩
    refine inactive.resolve_left (by rintro ⟨⟩) ?_
    rcases isFound other upload held with ⟨rfl, rfl⟩ | ⟨-, before⟩
    · exact ⟨stored, found, active⟩
    · exact ⟨upload, before, active⟩

theorem Invariant.progress (id : String) (progress : Rat) :
    Invariant (⟨updateUploadProgress box id progress, calls, attempts, drawn⟩, log) := by
  unfold updateUploadProgress
  cases found : find box id with
  | none => exact invariant
  | some stored =>
    obtain ⟨own, -⟩ := invariant.keyed id stored found
    by_cases uploading : stored.status = .uploading
    · simp only [if_pos uploading]
      have current : Current box { stored with uploadProgress := some progress } := by
        subst own
        exact ⟨stored, found, rfl⟩
      refine invariant.put (invariant.writable current) fun number runs isStopped => ?_
      have inactive := invariant.stopped _ _ runs isStopped
      subst own
      refine absurd ⟨stored, found, ?_, ?_⟩ inactive
      · rw [uploading]
        nofun
      · rw [uploading]
        nofun
    · simp only [if_neg uploading]
      exact invariant

end

end

/-! ### Steps -/

section

variable {config : Config} {box : Box} {calls : List Call} {attempts number index : Nat}
  {drawn : List String} {log : List Entry} {id : String} {upload : PendingUpload}
  {outcome : Box × Stage × List Entry} {answer : Answer}

/-- What an attempt makes of the box keeps the invariant, and the attempt keeps its record. -/
structure Advances (calls : List Call) (attempts : Nat) (drawn : List String) (log : List Entry)
    (upload : PendingUpload) (outcome : Box × Stage × List Entry) : Prop where
  invariant : Invariant (⟨outcome.1, calls, attempts, drawn⟩, outcome.2.2 ++ log)
  upload : outcome.2.1.upload = upload

theorem upload_performUpload (upload : PendingUpload) (present : Bool) :
    (performUpload config number box upload present).2.1.upload = upload := by
  unfold performUpload
  split
  · rfl
  · split <;> rfl

theorem find_performUpload (differs : upload.id ≠ id) {present : Bool} :
    find (performUpload config number box upload present).1 id = find box id := by
  unfold performUpload
  split
  · rfl
  · split
    · exact (find_updateUpload box (announcement upload) id).trans (if_neg differs)
    · rfl

theorem upload_caught (upload : PendingUpload) (tries : Nat) (error : ErrorText) :
    (caught config upload tries error).upload = upload := by
  unfold caught
  split <;> rfl

theorem nodup_resumeNext {uploads rest : List PendingUpload} {current : Option PendingUpload}
    {present : Bool} (nodup : (uploads.map PendingUpload.id).Nodup)
    (next : (resumeNext config box present uploads).2 = some (.resuming rest current)) :
    ((current.toList ++ rest).map PendingUpload.id).Nodup := by
  cases uploads with
  | nil => cases next
  | cons upload uploads =>
    simp only [resumeNext] at next
    split at next
    · obtain ⟨rfl, rfl⟩ := Call.resuming.inj (Option.some.inj next)
      exact nodup
    · obtain ⟨rfl, rfl⟩ := Call.resuming.inj (Option.some.inj next)
      exact nodup.of_cons

theorem key_resumeNext {uploads : List PendingUpload} {present : Bool} {call : Call}
    (next : call ∈ (resumeNext config box present uploads).2) : call.key = none := by
  cases uploads with
  | nil => cases next
  | cons upload uploads =>
    simp only [resumeNext] at next
    split at next
    · cases next
      rfl
    · cases next
      rfl

theorem mem_key_of_mem_proceed {next : Option Call} {key : String × Nat}
    (quiet : ∀ stage ∈ next, stage.key = none)
    (member : key ∈ (proceed calls index next).filterMap Call.key) :
    key ∈ calls.filterMap Call.key := by
  obtain ⟨call, inside, isKey⟩ := List.mem_filterMap.mp member
  rcases mem_proceed inside with own | other
  · cases (quiet call own).symm.trans isKey
  · exact List.mem_filterMap.mpr ⟨call, List.mem_of_mem_eraseIdx other, isKey⟩

section

variable (invariant : Invariant (⟨box, calls, attempts, drawn⟩, log))

include invariant

section

variable (runs : (upload.id, number) ∈ calls.filterMap Call.key)

include runs

theorem advances_announce (current : Current box upload)
    (harmless : Harmless box calls log (announcement upload)) (tries : Nat) :
    Advances calls attempts drawn log upload (announce number box upload tries) where
  invariant := invariant.wrote (announcement upload) runs current harmless
  upload := rfl

theorem advances_performUpload {present : Bool} (condition : present = true →
      Current box upload ∧ Harmless box calls log (announcement upload)) :
    Advances calls attempts drawn log upload (performUpload config number box upload present) := by
  unfold performUpload
  split
  · exact ⟨invariant, rfl⟩
  · split
    · rename_i isPresent
      obtain ⟨current, harmless⟩ := condition isPresent
      exact advances_announce invariant runs current harmless 0
    · exact ⟨invariant, rfl⟩

theorem advances_handleUploadSuccess (active : Active box upload.id)
    (tries : Nat) (result : UploadResult) (now : Nat) :
    Advances calls attempts drawn log upload
      (handleUploadSuccess config number box upload tries result now) := by
  unfold handleUploadSuccess
  split
  · obtain ⟨stored, found, notPaused, notFailed⟩ := active
    have own := (invariant.keyed _ _ found).1
    rw [found, Option.getD_some]
    refine ⟨invariant.wrote (createSuccessfulUpload stored result now) ?_ ?_
      (invariant.harmless_of_active ?_), rfl⟩
    · show (stored.id, number) ∈ _
      rwa [own]
    · exact ⟨stored, own ▸ found, rfl⟩
    · exact ⟨stored, own ▸ found, notPaused, notFailed⟩
  · exact ⟨invariant, upload_caught _ _ _⟩

end

theorem advances_advanceAttempt {stage : Stage}
    (runs : (stage.upload.id, number) ∈ calls.filterMap Call.key)
    (condition : StageCondition box stage answer)
    (advanced : advanceAttempt config number box stage answer = some outcome) :
    Advances calls attempts drawn log stage.upload outcome := by
  have keyed : ∀ stored, find box stage.upload.id = some stored → stored.id = stage.upload.id :=
    fun stored found => (invariant.keyed _ _ found).1
  unfold advanceAttempt at advanced
  split at advanced
  · rename_i upload present now
    cases advanced
    refine advances_performUpload invariant runs fun isPresent => ?_
    subst isPresent
    exact ⟨condition.1, invariant.harmless_of_active condition.2⟩
  · rename_i upload tries present now
    cases advanced
    refine ⟨invariant, ?_⟩
    split
    · rfl
    · exact upload_caught _ _ _
  · cases advanced
    exact ⟨invariant, upload_caught _ _ _⟩
  · split at advanced
    · cases advanced
      exact ⟨invariant, rfl⟩
    · cases advanced
      exact advances_handleUploadSuccess invariant runs condition _ _ _
  · rename_i upload tries result url now
    have finished := invariant.progress upload.id 1
    cases url with
    | none =>
      cases advanced
      exact advances_handleUploadSuccess finished runs (Active.progress condition 1 keyed) _ _ _
    | some url =>
      obtain ⟨current, active⟩ := condition
      cases advanced
      exact ⟨finished.wrote (withThumbnail upload url) runs (current.progress 1 keyed)
        (finished.harmless_of_active (active.progress 1 keyed)), rfl⟩
  · cases advanced
    exact advances_handleUploadSuccess invariant runs condition _ _ _
  · rename_i upload tries present now
    obtain ⟨current, active⟩ := condition
    cases advanced
    exact advances_announce invariant runs current (invariant.harmless_of_active active) tries
  · rename_i upload error checked categorized
    obtain ⟨current, notPaused⟩ := condition
    cases advanced
    exact ⟨invariant.wrote (failedUpload upload error checked categorized) runs current
      (invariant.harmless_of_failed current rfl notPaused), rfl⟩
  · cases advanced

theorem Invariant.goesOn {call : Call} (present : calls[index]? = some call) (next : Option Call)
    (key : ∀ stage ∈ next, stage.key = call.key)
    (resuming : ∀ rest current, next = some (.resuming rest current) →
      ((current.toList ++ rest).map PendingUpload.id).Nodup) (added : List Call)
    (quiet : ∀ other ∈ added, other.key = none ∧ ∀ rest current, other ≠ .resuming rest current) :
    Invariant (⟨box, proceed calls index next ++ added, attempts, drawn⟩, log) := by
  refine invariant.proceeds ?_ fun rest current member => ?_
  · have silent : added.filterMap Call.key = [] :=
      List.filterMap_eq_nil_iff.mpr fun other member => (quiet other member).1
    rw [List.filterMap_append, silent, List.append_nil]
    cases next with
    | none => exact (List.eraseIdx_sublist calls index).filterMap Call.key
    | some stage =>
      obtain ⟨bound, rfl⟩ := List.getElem?_eq_some_iff.mp present
      have same : (calls.set index stage).map Call.key = calls.map Call.key := by
        have inside : index < (calls.map Call.key).length := by rwa [List.length_map]
        have own : (calls.map Call.key)[index] = Call.key calls[index] := List.getElem_map _
        rw [List.map_set, key stage rfl, ← own]
        exact List.set_getElem_self inside
      have keys : ∀ list : List Call, list.filterMap Call.key =
          (list.map Call.key).filterMap id := fun list => by
        rw [List.filterMap_map]
        rfl
      show (List.filterMap _ (calls.set index stage)).Sublist _
      rw [keys, keys, same]
  · rcases List.mem_append.mp member with inside | new
    · rcases mem_proceed inside with own | other
      · exact resuming rest current own
      · exact invariant.resuming rest current (List.mem_of_mem_eraseIdx other)
    · exact absurd rfl ((quiet _ new).2 rest current)

theorem Invariant.resumeNext {rest : List PendingUpload} (present : Bool)
    (condition : State.NextCondition ⟨box, calls, attempts, drawn⟩ rest) :
    Invariant (⟨(resumeNext config box present rest).1, calls, attempts, drawn⟩, log) := by
  cases rest with
  | nil => exact invariant
  | cons next rest =>
    obtain ⟨current, free⟩ := condition next rfl
    simp only [UploadManager.resumeNext]
    split
    · have writable : Writable box drawn log (resetUpload next) := invariant.writable current
      exact invariant.put writable fun number runs _ => absurd runs (free number)
    · have writable : Writable box drawn log (deletedVideo next) := invariant.writable current
      exact invariant.put writable fun number runs _ => absurd runs (free number)

theorem Invariant.resumes {rest : List PendingUpload} {current : Option PendingUpload}
    {entries : List Entry}
    {after : State} (present : calls[index]? = some (.resuming rest current))
    (condition : CallCondition ⟨box, calls, attempts, drawn⟩ (.resuming rest current) answer)
    (resumed : State.resume config ⟨box, calls, attempts, drawn⟩ index answer
      (.resuming rest current) = some (after, entries)) :
    Invariant (after, entries ++ log) := by
  have nodup := invariant.resuming rest current (List.mem_of_getElem? present)
  have rests : (rest.map PendingUpload.id).Nodup := by
    rw [List.map_append] at nodup
    exact nodup.of_append_right
  cases answer with
  | files started found =>
    obtain ⟨own, next⟩ := condition
    cases current with
    | none =>
      obtain ⟨rfl, rfl⟩ := resumed
      have stored : Invariant (⟨(UploadManager.resumeNext config box found rest).1, calls, attempts,
          drawn⟩, log) := invariant.resumeNext found next
      have goes := stored.goesOn present
        (UploadManager.resumeNext config box found rest).2 (fun _ inside => key_resumeNext inside)
        (fun _ _ same => nodup_resumeNext rests same) []
        (fun _ member => absurd member List.not_mem_nil)
      rwa [List.append_nil] at goes
    | some upload =>
      obtain ⟨rfl, rfl⟩ := resumed
      obtain ⟨current, free⟩ := own upload rfl
      have isDrawn := (invariant.writable current).drawn
      have goes := invariant.goesOn present
        (UploadManager.resumeNext config
          (performUpload config attempts box upload started).1 found rest).2
        (fun _ inside => key_resumeNext inside) (fun _ _ same => nodup_resumeNext rests same) []
        (fun _ member => absurd member List.not_mem_nil)
      rw [List.append_nil] at goes
      have isUpload := @upload_performUpload config box attempts upload started
      have others : ∀ {id number}, (id, number) ∈ (proceed calls index (UploadManager.resumeNext
          config (performUpload config attempts box upload started).1 found rest).2).filterMap
            Call.key → (id, number) ∈ calls.filterMap Call.key := fun runs =>
        mem_key_of_mem_proceed (fun _ inside => key_resumeNext inside) runs
      have begun := goes.begin .other (performUpload config attempts box upload started).2.1
        (by rw [isUpload]; exact isDrawn) fun number runs => free number (by
          rw [isUpload] at runs
          exact others runs)
      rw [isUpload] at begun
      have runs : ∀ {id number}, (id, number) ∈ (proceed calls index (UploadManager.resumeNext
          config (performUpload config attempts box upload started).1 found rest).2 ++
            [Call.attempt ⟨attempts, .other, (performUpload config attempts box upload
              started).2.1⟩]).filterMap Call.key →
          (id, number) ∈ calls.filterMap Call.key ∨ (id = upload.id ∧ number = attempts) := by
        intro id number member
        rw [List.filterMap_append] at member
        rcases List.mem_append.mp member with before | last
        · exact .inl (others before)
        · have last := Prod.mk.inj (List.mem_singleton.mp last)
          exact .inr ⟨last.1.trans (congrArg _ isUpload), last.2⟩
      have own : (upload.id, attempts) ∈ (proceed calls index (UploadManager.resumeNext
          config (performUpload config attempts box upload started).1 found rest).2 ++
            [Call.attempt ⟨attempts, .other, (performUpload config attempts box upload
              started).2.1⟩]).filterMap Call.key := by
        rw [List.filterMap_append]
        refine List.mem_append_right _ (List.mem_singleton.mpr ?_)
        exact congrArg (fun upload : PendingUpload => (upload.id, attempts)) isUpload.symm
      have advances := @advances_performUpload config box _ _ attempts drawn _ upload begun own
        started fun _ => ⟨current, fun number member isStopped => by
          rcases runs member with before | ⟨-, rfl⟩
          · exact absurd before (free number)
          · refine absurd (stopped_began.mp isStopped) (not_stopped fun id began => ?_)
            exact Nat.lt_irrefl _ (invariant.began id _ began)⟩
      rw [List.append_assoc]
      refine advances.invariant.resumeNext found fun upcoming isNext => ?_
      obtain ⟨isCurrent, isFree⟩ := next upcoming isNext
      have differs : upload.id ≠ upcoming.id := by
        intro same
        refine (List.nodup_cons.mp nodup).1 (List.mem_map.mpr ⟨upcoming, ?_, same.symm⟩)
        exact List.mem_of_mem_head? isNext
      refine ⟨?_, fun number member => ?_⟩
      · obtain ⟨stored, isStored, same⟩ := isCurrent
        refine ⟨stored, ?_, same⟩
        rw [find_performUpload differs]
        exact isStored
      · rcases runs member with before | ⟨same, -⟩
        · exact isFree number before
        · exact differs same.symm
  | _ => cases current <;> cases resumed

theorem Invariant.returned (attempt : Option Nat) (record : Option PendingUpload) :
    Invariant (⟨box, calls, attempts, drawn⟩, .returned attempt record :: log) :=
  invariant.noted (fun _ => rfl) nofun nofun nofun id nofun

theorem Invariant.returns (held : Box) (attempt : Attempt) :
    Invariant (⟨box, calls, attempts, drawn⟩, UploadManager.returns held attempt ++ log) := by
  unfold UploadManager.returns
  split
  · exact invariant.returned _ _
  · exact invariant

theorem Invariant.ends {call : Call} (present : calls[index]? = some call) (added : List Call)
    (quiet : ∀ other ∈ added, other.key = none ∧ ∀ rest current, other ≠ .resuming rest current) :
    Invariant (⟨box, proceed calls index none ++ added, attempts, drawn⟩, log) :=
  invariant.goesOn present none (fun _ inside => by cases inside) (fun _ _ same => by cases same)
    added quiet

theorem Invariant.advances {attempt : Attempt} (present : calls[index]? = some (.attempt attempt))
    (condition : StageCondition box attempt.stage answer)
    (advanced : advanceAttempt config attempt.number box attempt.stage answer = some outcome) :
    Invariant (⟨outcome.1, proceed calls index
      (some (.attempt { attempt with stage := outcome.2.1 })), attempts, drawn⟩,
        outcome.2.2 ++ log) := by
  have runs : (attempt.stage.upload.id, attempt.number) ∈ calls.filterMap Call.key :=
    List.mem_filterMap.mpr ⟨_, List.mem_of_getElem? present, rfl⟩
  have advances := advances_advanceAttempt invariant runs condition advanced
  have goes := advances.invariant.goesOn present
    (some (.attempt { attempt with stage := outcome.2.1 }))
    (fun stage inside => by
      cases inside
      exact congrArg (fun upload : PendingUpload => some (upload.id, attempt.number))
        advances.upload)
    (fun rest current same => by cases Option.some.inj same) []
    (fun _ member => absurd member List.not_mem_nil)
  rwa [List.append_nil] at goes

theorem Invariant.continues {attempt : Attempt} {entries : List Entry} {after : State}
    (present : calls[index]? = some (.attempt attempt))
    (condition : StageCondition box attempt.stage answer)
    (resumed : State.resume config ⟨box, calls, attempts, drawn⟩ index answer
      (.attempt attempt) = some (after, entries)) :
    Invariant (after, entries ++ log) := by
  simp only [State.resume] at resumed
  split at resumed
  · rename_i upload updated present now isStage
    cases resumed
    refine (invariant.ends ‹_› _ fun other member => ?_).returns box attempt
    split at member
    · obtain rfl := List.mem_singleton.mp member
      exact ⟨rfl, fun rest current => Call.noConfusion⟩
    · cases member
  · cases resumed
    have ended := invariant.ends present [] fun _ member => absurd member List.not_mem_nil
    rw [List.append_nil] at ended
    exact ended.returns box attempt
  · obtain ⟨outcome, advanced, isAfter⟩ := Option.map_eq_some_iff.mp resumed
    cases isAfter
    exact invariant.advances present condition advanced

theorem Invariant.polls {entries : List Entry} {after : State}
    (present : calls[index]? = some (.polling id))
    (resumed : State.resume config ⟨box, calls, attempts, drawn⟩ index answer (.polling id) =
      some (after, entries)) :
    Invariant (after, entries ++ log) := by
  have ended := invariant.ends present [] fun _ member => absurd member List.not_mem_nil
  rw [List.append_nil] at ended
  simp only [State.resume] at resumed
  split at resumed
  · cases resumed
    exact ended
  · split at resumed
    · cases resumed
      exact ended
    · rename_i upload found
      split at resumed
      · cases resumed
        refine invariant.proceeds ?_ fun rest current member => ?_
        · rw [List.filterMap_append]
          exact (List.append_nil _).symm ▸ List.Sublist.refl _
        · exact invariant.resuming rest current ((List.mem_append.mp member).resolve_right
            fun own => by cases List.mem_singleton.mp own)
      · cases resumed
        exact ended
  · cases resumed

theorem Invariant.checks {entries : List Entry} {after : State}
    (present : calls[index]? = some (.checking upload))
    (condition : CallCondition ⟨box, calls, attempts, drawn⟩ (.checking upload) answer)
    (resumed : State.resume config ⟨box, calls, attempts, drawn⟩ index answer
      (.checking upload) = some (after, entries)) :
    Invariant (after, entries ++ log) := by
  simp only [State.resume] at resumed
  split at resumed
  · rename_i isReady now
    cases resumed
    suffices stored : Invariant (⟨if isReady && upload.videoId.isSome then
        updateUpload box (readyUpload upload now) else box, calls, attempts, drawn⟩, log) by
      have ended := stored.ends present [] fun _ member => absurd member List.not_mem_nil
      rwa [List.append_nil] at ended
    split
    · rename_i isDone
      obtain rfl : isReady = true := (Bool.and_eq_true_iff.mp isDone).1
      obtain ⟨current, active⟩ := condition
      have writable : Writable box drawn log (readyUpload upload now) := invariant.writable current
      exact invariant.put writable fun number runs isStopped =>
        absurd active (invariant.stopped _ _ runs isStopped)
    · exact invariant
  · cases resumed

theorem Invariant.resume {call : Call}
    {entries : List Entry} {after : State} (present : calls[index]? = some call)
    (condition : CallCondition ⟨box, calls, attempts, drawn⟩ call answer)
    (resumed : State.resume config ⟨box, calls, attempts, drawn⟩ index answer call =
      some (after, entries)) :
    Invariant (after, entries ++ log) := by
  cases call with
  | attempt attempt => exact invariant.continues present condition resumed
  | resuming rest current => exact invariant.resumes present condition resumed
  | polling id => exact invariant.polls present resumed
  | checking upload => exact invariant.checks present condition resumed

theorem Invariant.starts (writable : Writable box drawn log upload) (caller : Caller)
    (free : State.Free ⟨box, calls, attempts, drawn⟩ upload.id) :
    Invariant ((State.begin ⟨box, calls, attempts, drawn⟩ upload caller).1,
      (State.begin ⟨box, calls, attempts, drawn⟩ upload caller).2 ++ log) :=
  (invariant.put writable fun number runs _ => absurd runs (free number)).begin caller
    (.starting upload) writable.drawn free

theorem Invariant.startUpload (fresh : upload.id ∉ drawn) :
    Invariant ((State.begin ⟨box, calls, attempts, upload.id :: drawn⟩ upload .startUpload).1,
      (State.begin ⟨box, calls, attempts, upload.id :: drawn⟩ upload .startUpload).2 ++ log) := by
  have draws : Invariant (⟨box, calls, attempts, upload.id :: drawn⟩, log) :=
    { obeys :=
        { alone := invariant.obeys.alone
          gone := invariant.obeys.gone
          still := invariant.obeys.still
          kept := invariant.obeys.kept }
      keys := invariant.keys
      keyed := fun id stored found =>
        ⟨(invariant.keyed id stored found).1,
          List.mem_cons_of_mem _ (invariant.keyed id stored found).2⟩
      resuming := invariant.resuming
      named := fun id isNamed => List.mem_cons_of_mem _ (invariant.named id isNamed)
      running := fun id number runs => List.mem_cons_of_mem _ (invariant.running id number runs)
      began := invariant.began
      stopped := invariant.stopped }
  refine draws.starts ⟨List.mem_cons_self, fun deleted => ?_, ?_⟩ .startUpload fun number runs => ?_
  · exact fresh (invariant.named _ (.inl deleted))
  · rw [expected_of_not_named fun metadata updated =>
      fresh (invariant.named _ (.inr ⟨metadata, updated⟩)), none_over]
  · exact fresh (invariant.running _ number runs)

theorem Invariant.nodup_records :
    ((box.map Prod.snd).map PendingUpload.id).Nodup := by
  have same : (box.map Prod.snd).map PendingUpload.id = box.map Prod.fst := by
    rw [List.map_map]
    exact List.map_congr_left fun entry member =>
      (invariant.keyed entry.1 entry.2 (find_of_mem invariant.keys member)).1
  rw [same]
  exact invariant.keys

end

theorem Invariant.step {seen next : State × List Entry} {action : Action}
    (invariant : Invariant seen) (condition : Condition seen action)
    (sees : watched (step config) observe seen action = some next) : Invariant next := by
  obtain ⟨⟨box, calls, attempts, drawn⟩, log⟩ := seen
  obtain ⟨entries, stepped, recorded⟩ := watched_eq_some.mp sees
  obtain ⟨after, history⟩ := next
  obtain rfl : history = entries ++ log := recorded
  have current : ∀ {id stored}, find box id = some stored → stored.id = id ∧ Current box stored :=
    fun {id stored} found => by
      obtain ⟨rfl, -⟩ := invariant.keyed id stored found
      exact ⟨rfl, stored, found, rfl⟩
  cases action with
  | startUpload upload =>
    simp only [UploadManager.step] at stepped
    split at stepped
    · cases stepped
      exact invariant.returned none none
    · split at stepped
      · rename_i isNew
        cases stepped
        exact invariant.startUpload isNew.1
      · cases stepped
  | resumeUpload id =>
    simp only [UploadManager.step] at stepped
    split at stepped
    · cases stepped
      exact invariant
    · rename_i stored found
      obtain ⟨rfl, isCurrent⟩ := current found
      split at stepped
      · cases stepped
        have writable : Writable box drawn log (resumedUpload stored) :=
          invariant.writable isCurrent
        exact invariant.starts writable .other condition
      · cases stepped
        exact invariant
  | retryUpload id =>
    simp only [UploadManager.step] at stepped
    split at stepped
    · cases stepped
      exact invariant
    · rename_i stored found
      obtain ⟨rfl, isCurrent⟩ := current found
      split at stepped
      · cases stepped
        have writable : Writable box drawn log (resetUpload stored) :=
          invariant.writable isCurrent
        exact invariant.starts writable .other condition
      · cases stepped
        exact invariant
  | pauseUpload id =>
    simp only [UploadManager.step] at stepped
    split at stepped
    · cases stepped
      exact invariant
    · rename_i stored found
      obtain ⟨rfl, isCurrent⟩ := current found
      split at stepped
      · cases stepped
        exact invariant.stop isCurrent (.inl rfl)
      · cases stepped
        exact invariant
  | cancelUpload id =>
    simp only [UploadManager.step] at stepped
    split at stepped
    · cases stepped
      exact invariant
    · rename_i stored found
      obtain ⟨rfl, isCurrent⟩ := current found
      cases stepped
      exact invariant.stop isCurrent (.inr rfl)
  | deleteUpload id =>
    simp only [UploadManager.step] at stepped
    split at stepped
    · cases stepped
      exact invariant
    · rename_i stored found
      cases stepped
      exact invariant.delete found
  | updateUploadMetadata id metadata =>
    simp only [UploadManager.step] at stepped
    split at stepped
    · cases stepped
      exact invariant
    · rename_i stored found
      cases stepped
      exact invariant.update found metadata
  | resumeInterruptedUploads uploads present =>
    simp only [UploadManager.step] at stepped
    split at stepped
    · rename_i isInterrupted
      cases stepped
      have stored : Invariant (⟨(UploadManager.resumeNext config box present uploads).1, calls,
          attempts, drawn⟩, log) := invariant.resumeNext present condition
      have nodup : (uploads.map PendingUpload.id).Nodup := by
        refine (isInterrupted.1.map PendingUpload.id).nodup_iff.mpr ?_
        exact invariant.nodup_records.sublist (List.filter_sublist.map _)
      refine stored.proceeds ?_ fun rest current member => ?_
      · have silent : (UploadManager.resumeNext config box present uploads).2.toList.filterMap
            Call.key = [] :=
          List.filterMap_eq_nil_iff.mpr fun call inside =>
            key_resumeNext (Option.mem_toList.mp inside)
        rw [List.filterMap_append, silent, List.append_nil]
      · rcases List.mem_append.mp member with before | new
        · exact invariant.resuming rest current before
        · exact nodup_resumeNext nodup (Option.mem_toList.mp new)
    · cases stepped
  | progress id progress =>
    cases stepped
    exact invariant.progress id progress
  | answer index answer =>
    obtain ⟨call, present, resumed⟩ := Option.bind_eq_some_iff.mp stepped
    exact invariant.resume present (condition call present) resumed

end

/-! ### Runs -/

structure Stored (box : Box) (drawn : List String) : Prop where
  keys : (box.map Prod.fst).Nodup
  keyed : ∀ id upload, find box id = some upload → upload.id = id ∧ id ∈ drawn

/-- The records obey the user in a run whose steps meet the condition. -/
theorem obeys_of_run {config : Config} {box : Box} {drawn : List String} {actions : List Action}
    {final : State × List Entry} (stored : Stored box drawn)
    (meets : Meets (watched (step config) observe) Condition (⟨box, [], 0, drawn⟩, []) actions)
    (ran : run (watched (step config) observe) (⟨box, [], 0, drawn⟩, []) actions = some final) :
    Obeys final := by
  have initial : Invariant (⟨box, [], 0, drawn⟩, []) :=
    { obeys :=
        { alone := List.nodup_nil
          gone := nofun
          still := trivial
          kept := fun id upload _ => none_over upload.metadata }
      keys := stored.keys
      keyed := stored.keyed
      resuming := fun rest current member => absurd member List.not_mem_nil
      named := fun id isNamed => by
        rcases isNamed with deleted | ⟨metadata, updated⟩
        · exact absurd deleted List.not_mem_nil
        · exact absurd updated List.not_mem_nil
      running := nofun
      began := nofun
      stopped := nofun }
  exact Invariant.obeys (invariant_of_meets (watched (step config) observe)
    (fun _ _ _ invariant condition stepped => Invariant.step invariant condition stepped) initial
    meets ran)

section

def sampleConfig : Config := ⟨false, 5⟩

def sampleMetadata (title : String) : Metadata := ⟨some title, none, none⟩

def sampleUpload : PendingUpload :=
  .create "video" "clip.mp4" "author" 0 none (sampleMetadata "first")

def sampleResult : UploadResult where
  success := true
  videoId := some "hash"
  url := some "https://media.divine.video/hash"
  fallbackUrl := none
  streamingMp4Url := none
  streamingHlsUrl := none
  thumbnailUrl := none
  errorMessage := none

def uploads : List Action :=
  [.startUpload sampleUpload, .answer 0 (.done true 0), .answer 0 (.done true 0)]

/-- What the manager makes of actions that follow those. -/
def afterUploads (actions : List Action) : Option (State × List Entry) :=
  run (watched (step sampleConfig) observe) (⟨[], [], 0, []⟩, []) (uploads ++ actions)

theorem stored_nil (drawn : List String) : Stored [] drawn where
  keys := List.nodup_nil
  keyed id upload found := by cases found

def updates : List Action :=
  [.updateUploadMetadata "video" (sampleMetadata "second"), .answer 0 (.result sampleResult 0),
    .answer 0 (.thumbnail none 0), .answer 0 (.done true 0)]

theorem obeys_updated : ∃ final, afterUploads updates = some final ∧ Obeys final := by
  refine exists_of_isSome (by decide +kernel) fun final ran => ?_
  exact obeys_of_run (stored_nil []) (by decide +kernel) ran

/-- An attempt goes on whatever the user does: a cancelled upload gets a second one or becomes
ready, a deleted record is stored again, and new metadata goes away. -/
theorem disobeys :
    (∃ final, afterUploads [.cancelUpload "video", .retryUpload "video"] = some final ∧
      ¬ (final.1.running.map Prod.fst).Nodup) ∧
    (∃ final, afterUploads [.deleteUpload "video", .answer 0 (.result sampleResult 0),
        .answer 0 (.thumbnail none 0)] = some final ∧
      .deleted "video" ∈ final.2 ∧ find final.1.box "video" ≠ none) ∧
    (∃ final, afterUploads [.cancelUpload "video", .answer 0 (.result sampleResult 0),
        .answer 0 (.thumbnail none 0)] = some final ∧ ¬ Still final.2) ∧
    ∃ final, afterUploads [.updateUploadMetadata "video" (sampleMetadata "second"),
        .answer 0 (.raised "exception: 404"), .answer 0 (.connectivity .wifi .wifi)] = some final ∧
      .updated "video" (sampleMetadata "second") ∈ final.2 ∧
        (find final.1.box "video").map PendingUpload.metadata = some (sampleMetadata "first") := by
  refine ⟨exists_of_any _ (by decide +kernel), exists_of_any _ (by decide +kernel), ?_,
    exists_of_any _ (by decide +kernel)⟩
  obtain ⟨final, ran, log⟩ := exists_of_any (fun seen => seen.2 =
      [.wrote "video" 0 (some .failed) .readyToPublish, .stopped "video",
        .wrote "video" 0 (some .pending) .uploading, .began "video" 0])
    (show (afterUploads [.cancelUpload "video", .answer 0 (.result sampleResult 0),
        .answer 0 (.thumbnail none 0)]).any _ = true by decide +kernel)
  refine ⟨final, ran, fun still => ?_⟩
  rw [log] at still
  have kept := still.1 ⟨[], _, rfl, List.mem_cons_of_mem _ List.mem_cons_self⟩
  cases kept

end

end Divine.UploadManager
