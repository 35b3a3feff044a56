/-
This file embeds the bloc that shows what is published in the background, and settles in
which runs it shows every publication.
-/

import Divine.Library.Transition
import Mathlib

namespace Divine.BackgroundPublish

open Transition

variable {Draft Id Progress : Type} [DecidableEq Id] [LinearOrder Progress]
  [Zero Progress] [One Progress] (idOf : Draft → Id)

/-! ### The bloc -/

/-- How a publish process ends. -/
inductive Outcome where
  | success
  | error (userMessage : String)
  | threw

/-- The error that an entry is given, unless the process succeeded. -/
def Outcome.result : Outcome → Option String
  | success => none
  | error userMessage => some userMessage
  | threw => some "Failed to publish video. Please try again."

structure BackgroundUpload (Draft Progress : Type) where
  draft : Draft
  result : Option String
  progress : Progress

structure Request (Draft : Type) where
  draft : Draft
  publishmentProcess : Nat

/-- The state, the request that is handled and those that wait, the processes that run or ended
early, and the retries. -/
structure Bloc (Draft Progress : Type) where
  uploads : List (BackgroundUpload Draft Progress) := []
  current : Option (Request Draft) := none
  queue : List (Request Draft) := []
  running : List (Request Draft) := []
  ended : List (Nat × Outcome) := []
  retrying : List Draft := []
  nextProcess : Nat := 0
  -- whether an event threw
  thrown : Bool := false

inductive Action (Draft Id Progress : Type) where
  | requested (draft : Draft)
  | processEnded (process : Nat) (outcome : Outcome)
  | resumed
  | progressChanged (draftId : Id) (progress : Progress)
  | vanished (draftId : Id)
  | retryRequested (draftId : Id)
  | serviceCreated (index : Nat)
  | serviceFailed (index : Nat)

def without (uploads : List (BackgroundUpload Draft Progress)) (draftId : Id) :
    List (BackgroundUpload Draft Progress) :=
  uploads.filter fun upload => idOf upload.draft ≠ draftId

def change (uploads : List (BackgroundUpload Draft Progress)) (draftId : Id)
    (copy : BackgroundUpload Draft Progress → BackgroundUpload Draft Progress) :
    List (BackgroundUpload Draft Progress) :=
  uploads.map fun upload => if idOf upload.draft = draftId then copy upload else upload

def uploadOf (uploads : List (BackgroundUpload Draft Progress)) (draftId : Id) :
    Option (BackgroundUpload Draft Progress) :=
  uploads.find? fun upload => idOf upload.draft = draftId

/-- `_onBackgroundPublishRequested`, until it awaits the process. -/
def handle (bloc : Bloc Draft Progress) (event : Request Draft) : Bloc Draft Progress :=
  { bloc with
    current := some event
    uploads := if (uploadOf idOf bloc.uploads (idOf event.draft)).isSome then bloc.uploads
      else bloc.uploads ++ [⟨event.draft, none, 0⟩] }

/-- The entries after a process ended: a success removes that of the draft, and an error is kept. -/
def withOutcome (uploads : List (BackgroundUpload Draft Progress)) (draftId : Id)
    (outcome : Outcome) : List (BackgroundUpload Draft Progress) :=
  match outcome.result with
  | none => without idOf uploads draftId
  | some message => change idOf uploads draftId fun upload =>
      { upload with result := some message, progress := 1 }

/-- The rest of the handler, and the next request in turn. -/
def finish (bloc : Bloc Draft Progress) (event : Request Draft) (outcome : Outcome) :
    Bloc Draft Progress :=
  let bloc := { bloc with
    uploads := withOutcome idOf bloc.uploads (idOf event.draft) outcome
    current := none }
  match bloc.queue with
  | [] => bloc
  | event :: rest => handle idOf { bloc with queue := rest } event

/-- A process is started, and its request added, which is handled when it is its turn. -/
def publish (bloc : Bloc Draft Progress) (draft : Draft) : Bloc Draft Progress :=
  let event : Request Draft := ⟨draft, bloc.nextProcess⟩
  let bloc := { bloc with running := event :: bloc.running, nextProcess := bloc.nextProcess + 1 }
  if bloc.current.isSome then { bloc with queue := bloc.queue ++ [event] }
  else handle idOf bloc event

def onProgressChanged (bloc : Bloc Draft Progress) (draftId : Id) (progress : Progress) :
    Bloc Draft Progress :=
  match uploadOf idOf bloc.uploads draftId with
  | none => bloc
  | some upload =>
      if upload.result.isSome ∨ progress ≤ upload.progress then bloc
      else
        { bloc with
          uploads := change idOf bloc.uploads draftId fun upload =>
            { upload with progress := progress } }

/-- `_onBackgroundPublishRetryRequested` up to its await. Its `firstWhere` throws without an entry.
-/
def onRetryRequested (bloc : Bloc Draft Progress) (draftId : Id) : Bloc Draft Progress :=
  match uploadOf idOf bloc.uploads draftId with
  | none => { bloc with thrown := true }
  | some uploadToRetry =>
      { bloc with
        uploads := without idOf bloc.uploads draftId
        retrying := bloc.retrying ++ [uploadToRetry.draft] }

def endProcess (bloc : Bloc Draft Progress) (event : Request Draft) (outcome : Outcome) :
    Bloc Draft Progress :=
  let process := event.publishmentProcess
  let bloc := { bloc with
    running := bloc.running.filter fun other => other.publishmentProcess ≠ process }
  if bloc.current.map Request.publishmentProcess = some process then finish idOf bloc event outcome
  else { bloc with ended := (process, outcome) :: bloc.ended }

def runningProcess (bloc : Bloc Draft Progress) (process : Nat) : Option (Request Draft) :=
  bloc.running.find? fun event => event.publishmentProcess = process

def step (bloc : Bloc Draft Progress) :
    Action Draft Id Progress → Option (Bloc Draft Progress)
  | .requested draft => some (publish idOf bloc draft)
  | .processEnded process outcome =>
      (runningProcess bloc process).map fun event => endProcess idOf bloc event outcome
  | .resumed =>
      bloc.current.bind fun event =>
        (bloc.ended.find? fun entry => entry.1 = event.publishmentProcess).map fun entry =>
          finish idOf bloc event entry.2
  | .progressChanged draftId progress => some (onProgressChanged idOf bloc draftId progress)
  | .vanished draftId => some { bloc with uploads := without idOf bloc.uploads draftId }
  | .retryRequested draftId => some (onRetryRequested idOf bloc draftId)
  | .serviceCreated index =>
      bloc.retrying[index]?.map fun draft =>
        publish idOf { bloc with retrying := bloc.retrying.eraseIdx index } draft
  | .serviceFailed index =>
      bloc.retrying[index]?.map fun _ =>
        { bloc with retrying := bloc.retrying.eraseIdx index, thrown := true }

/-! ### What has become of a draft -/

/-- The last publication of a draft: none that counts, or one that was started, was dismissed,
failed or succeeded. -/
inductive Standing where
  | idle
  | publishing (process : Nat)
  | dismissed (process : Nat)
  | failed (message : String)
  | succeeded
  deriving DecidableEq

def Standing.dismiss : Standing → Standing
  | publishing process => dismissed process
  | failed _ => idle
  | standing => standing

def Standing.settle (process : Nat) (outcome : Outcome) : Standing → Standing
  | publishing last =>
      if last = process then outcome.result.elim succeeded failed else publishing last
  | dismissed last =>
      if last = process ∧ outcome.result = none then succeeded else dismissed last
  | standing => standing

/-- What an action makes of the drafts, seen from outside of the bloc. -/
def observe (bloc : Bloc Draft Progress) (standing : Id → Standing) :
    Action Draft Id Progress → Id → Standing
  | .requested draft =>
      Function.update standing (idOf draft) (.publishing bloc.nextProcess)
  | .serviceCreated index => bloc.retrying[index]?.elim standing fun draft =>
      Function.update standing (idOf draft) (.publishing bloc.nextProcess)
  | .processEnded process outcome => (runningProcess bloc process).elim standing fun event =>
      Function.update standing (idOf event.draft)
        ((standing (idOf event.draft)).settle process outcome)
  | .vanished draftId => Function.update standing draftId (standing draftId).dismiss
  | .retryRequested draftId =>
      if (uploadOf idOf bloc.uploads draftId).isSome then Function.update standing draftId .idle
      else standing
  | _ => standing

structure World (Draft Id Progress : Type) where
  bloc : Bloc Draft Progress
  standing : Id → Standing

def World.initial : World Draft Id Progress := ⟨{}, fun _ => .idle⟩

def worldStep (world : World Draft Id Progress) (action : Action Draft Id Progress) :
    Option (World Draft Id Progress) :=
  (step idOf world.bloc action).map fun bloc =>
    ⟨bloc, observe idOf world.bloc world.standing action⟩

/-! ### What the bloc shows -/

def count (uploads : List (BackgroundUpload Draft Progress)) (draftId : Id) : Nat :=
  (uploads.map fun upload => idOf upload.draft).count draftId

structure ShowsPublications (world : World Draft Id Progress) : Prop where
  /-- A draft with a process that runs and was not dismissed has one entry. -/
  shown : ∀ event ∈ world.bloc.running,
    (∀ process, world.standing (idOf event.draft) ≠ .dismissed process) →
      count idOf world.bloc.uploads (idOf event.draft) = 1
  kept : ∀ draftId message, world.standing draftId = .failed message →
    ∃ upload ∈ world.bloc.uploads, idOf upload.draft = draftId ∧ upload.result = some message
  gone : ∀ draftId, world.standing draftId = .succeeded → count idOf world.bloc.uploads draftId = 0
  single : (world.bloc.running.map fun event => idOf event.draft).Nodup
  quiet : world.bloc.thrown = false

/-- No entry's progress decreases while the process of its draft runs. -/
def KeepsProgress (bloc next : Bloc Draft Progress) : Prop :=
  ∀ old ∈ bloc.uploads, ∀ new ∈ next.uploads, idOf old.draft = idOf new.draft →
    (∃ event ∈ next.running, idOf event.draft = idOf old.draft) → old.progress ≤ new.progress

/-- No process is started while a request is handled, and a retry is of a draft with an entry and no
process. -/
def Spares (world : World Draft Id Progress) : Action Draft Id Progress → Prop
  | .requested _ | .serviceCreated _ => world.bloc.current = none
  | .retryRequested draftId => (uploadOf idOf world.bloc.uploads draftId).isSome = true ∧
      ∀ event ∈ world.bloc.running, idOf event.draft ≠ draftId
  | .serviceFailed _ => False
  | _ => True

def Agrees : Standing → Option (BackgroundUpload Draft Progress) → Prop
  | .publishing _, entry => entry.isSome = true
  | .failed message, entry => entry.bind BackgroundUpload.result = some message
  | .succeeded, entry => entry = none
  | _, _ => True

/-- No request waits, and the request that is handled is the last one of its draft. -/
structure Invariant (world : World Draft Id Progress) : Prop where
  alone : world.bloc.queue = [] ∧ world.bloc.ended = []
  running : world.bloc.running = world.bloc.current.toList
  distinct : (world.bloc.uploads.map fun upload => idOf upload.draft).Nodup
  watched : ∀ event ∈ world.bloc.current,
    world.standing (idOf event.draft) = .dismissed event.publishmentProcess ∨
      world.standing (idOf event.draft) = .publishing event.publishmentProcess
  agrees : ∀ draftId, Agrees (world.standing draftId) (uploadOf idOf world.bloc.uploads draftId)
  quiet : world.bloc.thrown = false

variable {idOf} {world next : World Draft Id Progress} {bloc : Bloc Draft Progress}
  {uploads : List (BackgroundUpload Draft Progress)} {draftId : Id}
  {upload : BackgroundUpload Draft Progress}

/-! ### Entries -/

section

omit [LinearOrder Progress] [Zero Progress] [One Progress]

section

theorem idOf_uploadOf (found : uploadOf idOf uploads draftId = some upload) :
    idOf upload.draft = draftId := by
  have named := List.find?_some found
  rwa [decide_eq_true_eq] at named

theorem uploadOf_eq_some (distinct : (uploads.map fun upload => idOf upload.draft).Nodup) :
    uploadOf idOf uploads draftId = some upload ↔
      upload ∈ uploads ∧ idOf upload.draft = draftId := by
  constructor
  · intro found
    exact ⟨List.mem_of_find?_eq_some found, idOf_uploadOf found⟩
  · rintro ⟨member, own⟩
    have present : (uploadOf idOf uploads draftId).isSome = true :=
      List.find?_isSome.mpr ⟨upload, member, decide_eq_true own⟩
    obtain ⟨found, same⟩ := Option.isSome_iff_exists.mp present
    rw [same, List.inj_on_of_nodup_map distinct (List.mem_of_find?_eq_some same) member
      ((idOf_uploadOf same).trans own.symm)]

theorem uploadOf_without (draftId other : Id) : uploadOf idOf (without idOf uploads draftId) other =
    if other = draftId then none else uploadOf idOf uploads other := by
  rw [uploadOf, without, List.find?_filter]
  split
  · rename_i same
    refine List.find?_eq_none.mpr fun upload _ => ?_
    simp [same]
  · rename_i differs
    refine congrFun (congrArg List.find? (funext fun upload => ?_)) uploads
    by_cases own : idOf upload.draft = other
    · simp [own, differs]
    · simp [own]

variable {copy : BackgroundUpload Draft Progress → BackgroundUpload Draft Progress}
  (same : ∀ upload, (copy upload).draft = upload.draft)

include same

theorem draft_changed (upload : BackgroundUpload Draft Progress) :
    (if idOf upload.draft = draftId then copy upload else upload).draft = upload.draft := by
  split
  · exact same upload
  · rfl

theorem ids_change : (change idOf uploads draftId copy).map (fun upload => idOf upload.draft) =
    uploads.map fun upload => idOf upload.draft := by
  rw [change, List.map_map]
  exact List.map_congr_left fun upload _ => congrArg idOf (draft_changed same upload)

theorem uploadOf_change (other : Id) : uploadOf idOf (change idOf uploads draftId copy) other =
    if other = draftId then (uploadOf idOf uploads other).map copy
    else uploadOf idOf uploads other := by
  have named : (fun upload : BackgroundUpload Draft Progress =>
      decide (idOf upload.draft = other)) ∘ (fun upload =>
        if idOf upload.draft = draftId then copy upload else upload) =
      fun upload => decide (idOf upload.draft = other) :=
    funext fun upload => congrArg (fun draft => decide (idOf draft = other))
      (draft_changed same upload)
  rw [uploadOf, change, List.find?_map, named]
  show (uploadOf idOf uploads other).map _ = _
  cases found : uploadOf idOf uploads other with
  | none => exact (ite_self _).symm
  | some upload =>
    rw [Option.map_some, idOf_uploadOf found]
    split <;> rfl

end

section

variable [Zero Progress]

theorem uploadOf_handle (event : Request Draft) (other : Id) :
    uploadOf idOf (handle idOf bloc event).uploads other = (uploadOf idOf bloc.uploads other).or
      (if other = idOf event.draft then some ⟨event.draft, none, 0⟩ else none) := by
  unfold handle
  by_cases present : (uploadOf idOf bloc.uploads (idOf event.draft)).isSome = true
  · simp only [if_pos present]
    by_cases own : other = idOf event.draft
    · rw [own, Option.or_of_isSome present]
    · rw [if_neg own, Option.or_none]
  · simp only [if_neg present]
    rw [uploadOf, List.find?_append]
    refine congrArg _ ?_
    rw [List.find?_singleton]
    by_cases own : other = idOf event.draft
    · simp [own]
    · simp [own, Ne.symm own]

theorem nodup_handle (distinct : (bloc.uploads.map fun upload => idOf upload.draft).Nodup)
    (event : Request Draft) :
    ((handle idOf bloc event).uploads.map fun upload => idOf upload.draft).Nodup := by
  unfold handle
  by_cases present : (uploadOf idOf bloc.uploads (idOf event.draft)).isSome = true
  · simp only [if_pos present]
    exact distinct
  · simp only [if_neg present]
    rw [List.map_append]
    refine List.nodup_append.mpr ⟨distinct, List.nodup_singleton _,
      fun id member other single => ?_⟩
    obtain ⟨upload, inside, rfl⟩ := List.mem_map.mp member
    rw [List.mem_singleton.mp single]
    intro own
    rw [(uploadOf_eq_some distinct).mpr ⟨inside, own⟩] at present
    exact present rfl

/-! ### Steps -/

theorem publish_of_idle (idle : bloc.current = none) (draft : Draft) :
    publish idOf bloc draft = handle idOf { bloc with
      running := ⟨draft, bloc.nextProcess⟩ :: bloc.running
      nextProcess := bloc.nextProcess + 1 } ⟨draft, bloc.nextProcess⟩ := by
  unfold publish
  exact if_neg (by rw [idle]; exact Bool.false_ne_true)

theorem Invariant.published (held : Invariant idOf world) (idle : world.bloc.current = none)
    (draft : Draft) :
    Invariant idOf ⟨publish idOf world.bloc draft,
      Function.update world.standing (idOf draft) (.publishing world.bloc.nextProcess)⟩ := by
  have runs : world.bloc.running = [] := by rw [held.running, idle, Option.toList_none]
  rw [publish_of_idle idle]
  refine ⟨held.alone, ?_, nodup_handle held.distinct _, ?_, fun other => ?_, held.quiet⟩
  · show _ :: world.bloc.running = _
    rw [runs]
    rfl
  · rintro event ⟨⟩
    exact .inr (Function.update_self ..)
  · show Agrees (Function.update world.standing (idOf draft) _ other) _
    rw [uploadOf_handle]
    by_cases own : other = idOf draft
    · rw [own, Function.update_self, if_pos rfl]
      show (Option.or _ (some _)).isSome = true
      rw [Option.isSome_or, Option.isSome_some, Bool.or_true]
    · rw [Function.update_of_ne own, if_neg own, Option.or_none]
      exact held.agrees other

theorem entryKept_publish (idle : bloc.current = none) {draft : Draft}
    {old new : BackgroundUpload Draft Progress}
    (before : uploadOf idOf bloc.uploads draftId = some old)
    (after : uploadOf idOf (publish idOf bloc draft).uploads draftId = some new) : new = old := by
  rw [publish_of_idle idle, uploadOf_handle] at after
  change (uploadOf idOf bloc.uploads draftId).or _ = _ at after
  rw [before] at after
  exact (Option.some.inj after).symm

end

/-- The entry of a draft is removed, which then has not failed any more. -/
theorem Invariant.removed (held : Invariant idOf world) {standing : Standing}
    (agrees : Agrees standing (none : Option (BackgroundUpload Draft Progress)))
    (watched : ∀ event ∈ world.bloc.current, idOf event.draft = draftId →
      standing = .dismissed event.publishmentProcess) (retrying : List Draft) :
    Invariant idOf ⟨{ world.bloc with
        uploads := without idOf world.bloc.uploads draftId
        retrying := retrying }, Function.update world.standing draftId standing⟩ := by
  refine ⟨held.alone, held.running, held.distinct.sublist (List.filter_sublist.map _),
    fun event isCurrent => ?_, fun other => ?_, held.quiet⟩
  · by_cases own : idOf event.draft = draftId
    · rw [← watched event isCurrent own, ← own]
      exact .inl (Function.update_self ..)
    · have same : Function.update world.standing draftId standing (idOf event.draft) =
          world.standing (idOf event.draft) := Function.update_of_ne own ..
      show Function.update _ _ _ _ = _ ∨ Function.update _ _ _ _ = _
      rw [same]
      exact held.watched event isCurrent
  · show Agrees (Function.update world.standing draftId standing other) _
    rw [uploadOf_without]
    by_cases own : other = draftId
    · rw [own, Function.update_self, if_pos rfl]
      exact agrees
    · rw [Function.update_of_ne own, if_neg own]
      exact held.agrees other

theorem Invariant.vanished (held : Invariant idOf world) (draftId : Id) :
    Invariant idOf ⟨{ world.bloc with uploads := without idOf world.bloc.uploads draftId },
      Function.update world.standing draftId (world.standing draftId).dismiss⟩ := by
  refine held.removed ?_ (fun event isCurrent own => ?_) world.bloc.retrying
  · cases world.standing draftId <;> trivial
  · rcases held.watched event isCurrent with standing | standing <;>
    · rw [own] at standing
      rw [standing]
      rfl

theorem Invariant.current_of_running (held : Invariant idOf world) {process : Nat}
    {event : Request Draft} (found : runningProcess world.bloc process = some event) :
    world.bloc.current = some event := by
  have member := List.mem_of_find?_eq_some found
  rw [held.running] at member
  exact Option.mem_toList.mp member

section

variable [Zero Progress] [One Progress]

theorem Invariant.endProcess_eq (held : Invariant idOf world) {event : Request Draft}
    (isCurrent : world.bloc.current = some event) (outcome : Outcome) :
    endProcess idOf world.bloc event outcome = { world.bloc with
      running := []
      current := none
      uploads := withOutcome idOf world.bloc.uploads (idOf event.draft) outcome } := by
  obtain ⟨⟨uploads, current, queue, running, ended, retrying, nextProcess, thrown⟩, standing⟩ :=
    world
  have waits : queue = [] := held.alone.1
  have runs : running = current.toList := held.running
  cases isCurrent
  subst waits runs
  simp [endProcess, finish]

omit [Zero Progress] in
theorem nodup_withOutcome (distinct : (uploads.map fun upload => idOf upload.draft).Nodup)
    (outcome : Outcome) :
    ((withOutcome idOf uploads draftId outcome).map fun upload => idOf upload.draft).Nodup := by
  unfold withOutcome
  split
  · exact distinct.sublist (List.filter_sublist.map _)
  · rw [ids_change fun _ => by rfl]
    exact distinct

omit [Zero Progress] in
theorem uploadOf_withOutcome (outcome : Outcome) (other : Id) :
    uploadOf idOf (withOutcome idOf uploads draftId outcome) other =
      if other = draftId then outcome.result.bind fun message =>
        (uploadOf idOf uploads other).map fun upload =>
          { upload with result := some message, progress := 1 }
      else uploadOf idOf uploads other := by
  unfold withOutcome
  split
  · rename_i success
    rw [uploadOf_without, success]
    rfl
  · rename_i message failure
    rw [uploadOf_change (fun _ => by rfl), failure]
    rfl

theorem Invariant.finished (held : Invariant idOf world) {event : Request Draft}
    (isCurrent : world.bloc.current = some event) (outcome : Outcome) :
    Invariant idOf ⟨endProcess idOf world.bloc event outcome,
      Function.update world.standing (idOf event.draft)
        ((world.standing (idOf event.draft)).settle event.publishmentProcess outcome)⟩ := by
  rw [held.endProcess_eq isCurrent]
  refine ⟨held.alone, rfl, nodup_withOutcome held.distinct outcome, nofun, fun other => ?_,
    held.quiet⟩
  show Agrees (Function.update world.standing (idOf event.draft) _ other) _
  rw [uploadOf_withOutcome]
  by_cases own : other = idOf event.draft
  · rw [own, Function.update_self, if_pos rfl]
    have agrees := held.agrees (idOf event.draft)
    cases ends : outcome.result with
    | none =>
      rcases held.watched event isCurrent with standing | standing <;>
        simp [standing, Standing.settle, ends, Agrees]
    | some message =>
      rcases held.watched event isCurrent with standing | standing
      · simp [standing, Standing.settle, ends, Agrees]
      · rw [standing] at agrees
        obtain ⟨upload, found⟩ := Option.isSome_iff_exists.mp agrees
        simp [standing, Standing.settle, ends, Agrees, found]
  · rw [Function.update_of_ne own, if_neg own]
    exact held.agrees other

end

section

variable [LinearOrder Progress]

theorem onProgressChanged_cases (draftId : Id) (progress : Progress) :
    onProgressChanged idOf bloc draftId progress = bloc ∨
      ∃ upload, uploadOf idOf bloc.uploads draftId = some upload ∧ upload.result = none ∧
        upload.progress < progress ∧ onProgressChanged idOf bloc draftId progress =
          { bloc with uploads := change idOf bloc.uploads draftId fun upload =>
              { upload with progress := progress } } := by
  unfold onProgressChanged
  split
  · exact .inl rfl
  · rename_i upload found
    split
    · exact .inl rfl
    · rename_i accepted
      rw [not_or, Option.not_isSome_iff_eq_none, not_le] at accepted
      exact .inr ⟨upload, found, accepted.1, accepted.2, rfl⟩

theorem Invariant.progressed (held : Invariant idOf world) (draftId : Id) (progress : Progress) :
    Invariant idOf ⟨onProgressChanged idOf world.bloc draftId progress, world.standing⟩ := by
  rcases onProgressChanged_cases draftId progress with same | ⟨upload, found, unset, -, same⟩ <;>
    rw [same]
  · exact held
  · refine { held with distinct := ?_, agrees := fun other => ?_ }
    · show ((change idOf world.bloc.uploads draftId _).map _).Nodup
      rw [ids_change fun _ => by rfl]
      exact held.distinct
    · show Agrees (world.standing other) (uploadOf idOf (change idOf _ draftId _) other)
      have agrees := held.agrees other
      rw [uploadOf_change fun _ => by rfl]
      split
      · rename_i own
        rw [own, found] at agrees ⊢
        cases standing : world.standing draftId <;> rw [standing] at agrees
        · trivial
        · exact rfl
        · trivial
        · cases agrees.symm.trans unset
        · cases agrees
      · exact agrees

end

theorem Invariant.shows (held : Invariant idOf world) : ShowsPublications idOf world where
  shown event runs undismissed := by
    rw [held.running] at runs
    have agrees := held.agrees (idOf event.draft)
    rcases held.watched event (Option.mem_toList.mp runs) with standing | standing
    · exact absurd standing (undismissed _)
    · rw [standing] at agrees
      obtain ⟨upload, found⟩ := Option.isSome_iff_exists.mp agrees
      obtain ⟨member, own⟩ := (uploadOf_eq_some held.distinct).mp found
      exact List.count_eq_one_of_mem held.distinct (List.mem_map.mpr ⟨upload, member, own⟩)
  kept draftId message failed := by
    have agrees := held.agrees draftId
    rw [failed] at agrees
    obtain ⟨upload, found, result⟩ := Option.bind_eq_some_iff.mp agrees
    obtain ⟨member, own⟩ := (uploadOf_eq_some held.distinct).mp found
    exact ⟨upload, member, own, result⟩
  gone draftId succeeded := List.count_eq_zero.mpr fun member => by
    have agrees := held.agrees draftId
    obtain ⟨upload, present, own⟩ := List.mem_map.mp member
    rw [succeeded, (uploadOf_eq_some held.distinct).mpr ⟨present, own⟩] at agrees
    cases agrees
  single := by
    rw [held.running]
    cases world.bloc.current with
    | none => exact List.nodup_nil
    | some event => exact List.nodup_singleton _
  quiet := held.quiet

end

theorem Invariant.stepped {action : Action Draft Id Progress} (held : Invariant idOf world)
    (spared : Spares idOf world action) (stepped : worldStep idOf world action = some next) :
    Invariant idOf next := by
  obtain ⟨bloc, acted, rfl⟩ := Option.map_eq_some_iff.mp stepped
  cases action with
  | requested draft =>
    cases acted
    exact held.published spared draft
  | processEnded process outcome =>
    obtain ⟨event, found, rfl⟩ := Option.map_eq_some_iff.mp acted
    have own := List.find?_some found
    rw [decide_eq_true_eq] at own
    subst own
    rw [observe, found, Option.elim_some]
    exact held.finished (held.current_of_running found) outcome
  | resumed =>
    obtain ⟨event, -, acted⟩ := Option.bind_eq_some_iff.mp acted
    obtain ⟨entry, found, -⟩ := Option.map_eq_some_iff.mp acted
    rw [held.alone.2] at found
    cases found
  | progressChanged draftId progress =>
    cases acted
    exact held.progressed draftId progress
  | vanished draftId =>
    cases acted
    exact held.vanished draftId
  | retryRequested draftId =>
    cases acted
    obtain ⟨present, apart⟩ := spared
    obtain ⟨upload, found⟩ := Option.isSome_iff_exists.mp present
    have retries : onRetryRequested idOf world.bloc draftId = { world.bloc with
        uploads := without idOf world.bloc.uploads draftId
        retrying := world.bloc.retrying ++ [upload.draft] } := by
      rw [onRetryRequested, found]
    rw [observe, if_pos present, retries]
    have idle : Agrees .idle (none : Option (BackgroundUpload Draft Progress)) := trivial
    refine held.removed idle (fun event isCurrent own => absurd own (apart event ?_)) _
    rw [held.running]
    exact Option.mem_toList.mpr isCurrent
  | serviceCreated index =>
    obtain ⟨draft, found, rfl⟩ := Option.map_eq_some_iff.mp acted
    rw [observe, found, Option.elim_some]
    have kept : Invariant idOf ⟨{ world.bloc with
        retrying := world.bloc.retrying.eraseIdx index }, world.standing⟩ := { held with }
    exact kept.published spared draft
  | serviceFailed index => exact spared.elim

/-! ### Progress -/

theorem Invariant.keepsProgress {action : Action Draft Id Progress} (held : Invariant idOf world)
    (spared : Spares idOf world action) (stepped : worldStep idOf world action = some next) :
    KeepsProgress idOf world.bloc next.bloc := by
  have after := held.stepped spared stepped
  obtain ⟨bloc, acted, rfl⟩ := Option.map_eq_some_iff.mp stepped
  intro old isOld new isNew same runs
  have oldEntry := (uploadOf_eq_some held.distinct).mpr ⟨isOld, rfl⟩
  have newEntry := (uploadOf_eq_some after.distinct).mpr ⟨isNew, same.symm⟩
  cases action with
  | requested draft =>
    cases acted
    rw [entryKept_publish spared oldEntry newEntry]
  | processEnded process outcome =>
    obtain ⟨event, found, rfl⟩ := Option.map_eq_some_iff.mp acted
    obtain ⟨_, none, _⟩ := runs
    change _ ∈ (endProcess idOf world.bloc event outcome).running at none
    rw [held.endProcess_eq (held.current_of_running found)] at none
    cases none
  | resumed =>
    obtain ⟨event, -, acted⟩ := Option.bind_eq_some_iff.mp acted
    obtain ⟨entry, found, -⟩ := Option.map_eq_some_iff.mp acted
    rw [held.alone.2] at found
    cases found
  | progressChanged draftId progress =>
    cases acted
    change uploadOf idOf (onProgressChanged idOf world.bloc draftId progress).uploads _ = _
      at newEntry
    rcases onProgressChanged_cases draftId progress with kept | ⟨upload, found, -, more, kept⟩ <;>
      rw [kept] at newEntry
    · rw [oldEntry] at newEntry
      cases newEntry
      exact le_rfl
    · change uploadOf idOf (change idOf _ draftId _) _ = _ at newEntry
      rw [uploadOf_change fun _ => by rfl, oldEntry] at newEntry
      split at newEntry
      · rename_i own
        rw [own, found] at oldEntry
        cases oldEntry
        cases newEntry
        exact le_of_lt more
      · cases newEntry
        exact le_rfl
  | vanished draftId =>
    cases acted
    rw [uploadOf_without] at newEntry
    split at newEntry
    · cases newEntry
    · cases oldEntry.symm.trans newEntry
      exact le_rfl
  | retryRequested draftId =>
    cases acted
    obtain ⟨upload, found⟩ := Option.isSome_iff_exists.mp spared.1
    change uploadOf idOf (onRetryRequested idOf world.bloc draftId).uploads _ = _ at newEntry
    rw [onRetryRequested, found] at newEntry
    change uploadOf idOf (without idOf _ draftId) _ = _ at newEntry
    rw [uploadOf_without] at newEntry
    split at newEntry
    · cases newEntry
    · cases oldEntry.symm.trans newEntry
      exact le_rfl
  | serviceCreated index =>
    obtain ⟨draft, -, rfl⟩ := Option.map_eq_some_iff.mp acted
    have idle : { world.bloc with
        retrying := world.bloc.retrying.eraseIdx index }.current = none := spared
    rw [entryKept_publish idle oldEntry newEntry]
  | serviceFailed index => exact spared.elim

/-! ### Runs -/

/-- Publications are shown in every run whose requests come one at a time and whose retries are of
failed drafts. -/
theorem showsPublications_of_meets {actions : List (Action Draft Id Progress)}
    {reached : World Draft Id Progress}
    (meets : Meets (worldStep idOf) (Spares idOf) World.initial actions)
    (ran : run (worldStep idOf) World.initial actions = some reached) :
    ShowsPublications idOf reached ∧ ∀ action next, Spares idOf reached action →
      worldStep idOf reached action = some next → KeepsProgress idOf reached.bloc next.bloc := by
  have initial : Invariant idOf (World.initial : World Draft Id Progress) :=
    ⟨⟨rfl, rfl⟩, rfl, List.nodup_nil, nofun, fun _ => trivial, rfl⟩
  have held := invariant_of_meets _ (fun _ _ _ held spared stepped => held.stepped spared stepped)
    initial meets ran
  exact ⟨held.shows, fun _ _ => held.keepsProgress⟩

/-- A publication fails and is retried. -/
def retriedActions : List (Action Nat Nat Nat) :=
  [.requested 7, .progressChanged 7 1, .processEnded 0 (.error "offline"), .retryRequested 7,
    .serviceCreated 0]

theorem showsPublications_sample : ∃ reached,
    run (worldStep fun draft : Nat => draft) World.initial retriedActions = some reached ∧
      ShowsPublications (fun draft : Nat => draft) reached := by
  refine ⟨_, rfl, (showsPublications_of_meets ?_
    (show run _ _ retriedActions = _ from rfl)).1⟩
  refine .cons _ rfl rfl (.cons _ trivial rfl (.cons _ trivial rfl
    (.cons _ ⟨rfl, nofun⟩ rfl (.cons _ rfl rfl trivial))))

/-- The second request waits while its process runs, and the second retry finds no entry. -/
theorem publications_not_shown :
    (∃ reached, run (worldStep fun draft : Nat => draft) World.initial
        [Action.requested 7, .requested 8] =
        some (reached : World Nat Nat Nat) ∧ count (fun draft => draft) reached.bloc.uploads 8 = 0 ∧
        ¬ShowsPublications (fun draft => draft) reached) ∧
      ∃ reached, run (worldStep fun draft : Nat => draft) World.initial
        [Action.requested 7, .processEnded 0 .threw, .retryRequested 7, .retryRequested 7] =
        some (reached : World Nat Nat Nat) ∧ reached.bloc.thrown = true := by
  refine ⟨⟨_, rfl, rfl, fun shows => ?_⟩, ⟨_, rfl, rfl⟩⟩
  exact absurd (shows.shown ⟨8, 1⟩ List.mem_cons_self nofun) (by decide)

end Divine.BackgroundPublish
