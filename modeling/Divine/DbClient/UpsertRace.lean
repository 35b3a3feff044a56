/-
This file runs upserts one statement at a time, so that the statements of several upserts
interleave.
-/

import Divine.DbClient.Upserts
import Divine.Library.Interleaving

namespace Divine.DbClient

open Interleaving Table

/-! ### Calls -/

/-- An upsert at the statement it issues next, or a batch, which is one transaction. -/
inductive UpsertCall where
  | select (event : Event)
  | delete (event : Event) (id : String)
  | insert (event : Event)
  | batch (events : List Event)
  deriving DecidableEq

def UpsertCall.events : UpsertCall → List Event
  | select event | delete event _ | insert event => [event]
  | batch events => events

def isAnyReplaceable (kind : Int) : Bool := isReplaceable kind || isParameterizedReplaceable kind

/-- An upsert starts with a SELECT when the event replaces others, and else with the insertion. -/
def UpsertCall.isFirst : UpsertCall → Bool
  | select event => isAnyReplaceable event.kind
  | insert event => !isAnyReplaceable event.kind
  | batch _ => true
  | delete _ _ => false

/-- The table, and the events whose upserts have ended, with those that it had at the start. -/
structure UpsertState where
  rows : List Event
  upserted : List Event
  deriving DecidableEq

/-- One statement of a call, and the statement it issues next. -/
def advanceUpsert (state : UpsertState) : UpsertCall → UpsertState × Option UpsertCall
  | .select event =>
      match selectOne state.rows event.replaces with
      | none => (state, some (.insert event))
      | some existing =>
          if event.createdAt ≤ existing.createdAt then
            ({ state with upserted := state.upserted ++ [event] }, none)
          else (state, some (.delete event existing.id))
  | .delete event id => ({ state with rows := deleteEvent state.rows id }, some (.insert event))
  | .insert event => (⟨insertEvent state.rows event, state.upserted ++ [event]⟩, none)
  | .batch events => (⟨upsertEvents state.rows events, state.upserted ++ events⟩, none)

/-- The order in which a SELECT finds rows is not determined. -/
def reorder (state : UpsertState) (rows : List Event) : Option UpsertState :=
  if rows.Perm state.rows then some { state with rows := rows } else none

def upsertSystem : System UpsertState UpsertCall (List Event) where
  starts _ call := call.isFirst
  advance := advanceUpsert
  environment := reorder

abbrev UpsertPool := Pool UpsertState UpsertCall

namespace UpsertPool

variable (pool : UpsertPool)

def known : List Event := pool.shared.upserted ++ pool.calls.flatMap UpsertCall.events

def Inserting (event : Event) : Prop := UpsertCall.insert event ∈ pool.calls

/-- An id is that of one event, and an insertion finds no other version of its event. -/
def Undisturbed : Action UpsertCall (List Event) → Prop
  | .start call => ∀ event ∈ call.events, ∀ other ∈ pool.known ++ call.events,
      other.id = event.id → other = event
  | .step index => ∀ event, pool.calls[index]? = some (.insert event) →
      ∀ row ∈ pool.shared.rows, event.replaces row = true → row.id = event.id
  | .environment _ => True

/-- The table has at most one version of each event, in the end the newest that was upserted. -/
structure OneVersion : Prop where
  one : ∀ address, (versions address pool.shared.rows).length ≤ 1
  newest : pool.calls = [] → ∀ address, versions address pool.shared.upserted ≠ [] →
    ∃ row, versions address pool.shared.rows = [row] ∧ row ∈ pool.shared.upserted ∧
      ∀ event ∈ versions address pool.shared.upserted, event.createdAt ≤ row.createdAt

end UpsertPool

/-! ### What upserts keep -/

variable {rows upserted : List Event} {pending later : Event → Prop} {event : Event}

/-- Each upserted event is stored or has a newer version that is or is going to be. -/
structure Kept (rows upserted : List Event) (pending : Event → Prop) : Prop where
  stored : ∀ row ∈ rows, row ∈ upserted
  one : ∀ address, (versions address rows).length ≤ 1
  covered : ∀ event ∈ upserted, ∀ address, event.address = some address →
    ∃ newer, (newer ∈ rows ∨ pending newer) ∧ newer.address = some address ∧
      event.createdAt ≤ newer.createdAt

theorem Kept.mono (kept : Kept rows upserted pending)
    (more : ∀ event, pending event → later event) :
    Kept rows upserted later where
  stored := kept.stored
  one := kept.one
  covered event member address own := by
    obtain ⟨newer, held, version, older⟩ := kept.covered event member address own
    exact ⟨newer, held.imp_right (more newer), version, older⟩

theorem versions_sublist {address : Address} {part : List Event} (sublist : part.Sublist rows) :
    (versions address part).length ≤ (versions address rows).length :=
  (sublist.filter _).length_le

theorem Kept.refuse (kept : Kept rows upserted pending) {existing : Event}
    (stored : existing ∈ rows) (version : existing.address = event.address)
    (notNewer : event.createdAt ≤ existing.createdAt) :
    Kept rows (upserted ++ [event]) pending where
  stored row member := List.mem_append_left _ (kept.stored row member)
  one := kept.one
  covered other member address own := by
    rcases List.mem_append.mp member with before | added
    · exact kept.covered other before address own
    · rw [List.mem_singleton.mp added] at own ⊢
      exact ⟨existing, .inl stored, version.trans own, notNewer⟩

theorem Kept.delete (kept : Kept rows upserted pending) {id : String}
    (own : ∀ row ∈ rows, row.id = id → row.address = event.address ∧ row.createdAt <
      event.createdAt)
    (more : ∀ other, pending other → later other) (inserting : later event) :
    Kept (deleteEvent rows id) upserted later where
  stored row member := kept.stored row (mem_deleteEvent.mp member).1
  one address := (versions_sublist List.filter_sublist).trans (kept.one address)
  covered other member address version := by
    obtain ⟨newer, held, newerVersion, older⟩ := kept.covered other member address version
    rcases held with stored | waiting
    · by_cases deleted : newer.id = id
      · obtain ⟨same, newest⟩ := own newer stored deleted
        exact ⟨event, .inr inserting, same.symm.trans newerVersion, older.trans newest.le⟩
      · exact ⟨newer, .inl (mem_deleteEvent.mpr ⟨stored, deleted⟩), newerVersion, older⟩
    · exact ⟨newer, .inr (more newer waiting), newerVersion, older⟩

theorem Kept.insert (kept : Kept rows upserted pending)
    (identified : ∀ row ∈ rows, row.id = event.id → row = event)
    (alone : ∀ row ∈ rows, event.replaces row = true → row.id = event.id)
    (fewer : ∀ other, pending other → other = event ∨ later other) :
    Kept (insertEvent rows event) (upserted ++ [event]) later where
  stored row member := by
    rcases mem_insertEvent.mp member with ⟨before, -⟩ | rfl
    · exact List.mem_append_left _ (kept.stored row before)
    · exact List.mem_append_right _ List.mem_cons_self
  one address := by
    unfold insertEvent versions
    rw [List.filter_append, List.length_append]
    by_cases own : event.address = some address
    · have none : ((Table.delete rows fun row => row.id = event.id).filter
          fun row => row.address = some address) = [] := by
        rw [List.filter_eq_nil_iff]
        intro row member version
        obtain ⟨stored, differs⟩ := mem_delete.mp member
        rw [decide_eq_true_eq, ← own] at version
        exact of_decide_eq_false differs
          (alone row stored (address_eq_some_iff.mp ⟨version, own ▸ nofun⟩))
      rw [none]
      exact (Nat.zero_add _).trans_le (List.length_filter_le _ _)
    · rw [List.filter_singleton, decide_eq_false own]
      exact (versions_sublist List.filter_sublist).trans (kept.one address)
  covered other member address version := by
    have inserted : event ∈ insertEvent rows event := mem_insertEvent.mpr (.inr rfl)
    rcases List.mem_append.mp member with before | added
    · obtain ⟨newer, held, newerVersion, older⟩ := kept.covered other before address version
      rcases held with stored | waiting
      · refine ⟨newer, .inl ?_, newerVersion, older⟩
        by_cases same : newer.id = event.id
        · rw [identified newer stored same]
          exact inserted
        · exact mem_insertEvent.mpr (.inl ⟨stored, same⟩)
      · rcases fewer newer waiting with rfl | still
        · exact ⟨newer, .inl inserted, newerVersion, older⟩
        · exact ⟨newer, .inr still, newerVersion, older⟩
    · rw [List.mem_singleton.mp added] at version ⊢
      exact ⟨event, .inl inserted, version, le_rfl⟩

def Identified (events : List Event) : Prop :=
  ∀ first ∈ events, ∀ second ∈ events, first.id = second.id → first = second

theorem Identified.subset {events others : List Event} (identified : Identified events)
    (subset : others ⊆ events) : Identified others :=
  fun first member second other => identified first (subset member) second (subset other)

theorem Kept.found (kept : Kept rows upserted pending) (identified : Identified upserted)
    {existing : Event} (found : selectOne rows event.replaces = some existing) :
    existing ∈ rows ∧ existing.address = event.address ∧ event.address ≠ none ∧
      (∀ row ∈ rows, row.id = existing.id → row = existing) ∧
      ∀ row ∈ rows, event.replaces row = true → row = existing := by
  have member := selectOne_mem found
  obtain ⟨version, replaces⟩ := address_eq_some_iff.mpr (selectOne_condition found)
  obtain ⟨address, own⟩ := Option.ne_none_iff_exists'.mp replaces
  refine ⟨member, version, replaces, fun row stored same => ?_, fun row stored replaced => ?_⟩
  · exact identified row (kept.stored row stored) existing (kept.stored existing member) same
  · have one := kept.one address
    have versionOf : ∀ row ∈ rows, event.replaces row = true → row ∈ versions address rows :=
      fun row stored replaced =>
        mem_versions.mpr ⟨stored, (address_eq_some_iff.mpr replaced).1.trans own⟩
    have first := versionOf row stored replaced
    have second := versionOf existing member (selectOne_condition found)
    obtain ⟨only, single⟩ := List.length_eq_one_iff.mp
      (Nat.le_antisymm one (List.length_pos_of_mem first))
    rw [single, List.mem_singleton] at first second
    rw [first, second]

theorem Kept.upsertEvent (kept : Kept rows upserted pending)
    (identified : Identified (upserted ++ [event])) :
    Kept (upsertEvent rows event) (upserted ++ [event]) pending := by
  have own : ∀ row ∈ rows, row.id = event.id → row = event := fun row stored same =>
    identified row (List.mem_append_left _ (kept.stored row stored)) event
      (List.mem_append_right _ List.mem_cons_self) same
  unfold DbClient.upsertEvent
  cases found : selectOne rows event.replaces with
  | none =>
    refine kept.insert own (fun row stored replaces => ?_) fun other waiting => .inr waiting
    exact absurd replaces (List.find?_eq_none.mp found row stored)
  | some existing =>
    obtain ⟨stored, version, -, only, single⟩ :=
      kept.found (identified.subset (List.subset_append_left _ _)) found
    dsimp only
    split
    · next notNewer => exact kept.refuse stored version notNewer
    · next newer =>
      have deleted : Kept (deleteEvent rows existing.id) upserted
          (fun other => other = event ∨ pending other) := by
        refine kept.delete (fun row member same => ?_)
          (fun other waiting => .inr waiting) (.inl rfl)
        rw [only row member same]
        exact ⟨version, Int.lt_of_not_ge newer⟩
      refine deleted.insert (fun row member same => own row (mem_deleteEvent.mp member).1 same)
        (fun row member replaces => ?_) fun other => id
      obtain ⟨before, differs⟩ := mem_deleteEvent.mp member
      exact absurd (congrArg Event.id (single row before replaces)) differs

theorem Kept.upsertEvents (kept : Kept rows upserted pending) {events : List Event}
    (identified : Identified (upserted ++ events)) :
    Kept (upsertEvents rows events) (upserted ++ events) pending := by
  induction events generalizing rows upserted with
  | nil => rwa [List.append_nil]
  | cons event rest ih =>
    rw [List.append_cons] at identified ⊢
    exact ih
      (kept.upsertEvent (identified.subset (List.subset_append_left _ _))) identified

/-! ### Statements -/

section

variable {state : UpsertState} {call stage : UpsertCall}

theorem upserted_subset_advance : state.upserted ⊆ (advanceUpsert state call).1.upserted := by
  unfold advanceUpsert
  cases call with
  | select event =>
    dsimp only
    split
    · exact List.Subset.refl _
    · split
      · exact List.subset_append_left _ _
      · exact List.Subset.refl _
  | delete event id => exact List.Subset.refl _
  | insert | batch => exact List.subset_append_left _ _

theorem advance_subset_upserted :
    (advanceUpsert state call).1.upserted ⊆ state.upserted ++ call.events := by
  unfold advanceUpsert
  cases call with
  | select event =>
    dsimp only
    split
    · exact List.subset_append_left _ _
    · split
      · exact List.Subset.refl _
      · exact List.subset_append_left _ _
  | delete event id => exact List.subset_append_left _ _
  | insert | batch => exact List.Subset.refl _

theorem events_of_advance (advanced : (advanceUpsert state call).2 = some stage) :
    stage.events = call.events := by
  unfold advanceUpsert at advanced
  cases call with
  | select event =>
    dsimp only at advanced
    split at advanced
    · cases advanced
      rfl
    · split at advanced
      · cases advanced
      · cases advanced
        rfl
  | delete event id =>
    cases advanced
    rfl
  | insert | batch => cases advanced

end

/-! ### Runs -/

def UpsertCall.Saw (upserted : List Event) : UpsertCall → Prop
  | select _ | insert _ | batch _ => True
  | delete event id => ∃ row ∈ upserted, row.id = id ∧ row.address = event.address ∧
      row.createdAt < event.createdAt

theorem UpsertCall.Saw.mono {call : UpsertCall} {before after : List Event}
    (saw : call.Saw before) (subset : before ⊆ after) : call.Saw after := by
  cases call with
  | delete event id =>
    obtain ⟨row, member, seen⟩ := saw
    exact ⟨row, subset member, seen⟩
  | select | insert | batch => trivial

namespace UpsertPool

variable {pool next : UpsertPool} {action : Action UpsertCall (List Event)}

structure Consistent (pool : UpsertPool) : Prop where
  identified : Identified pool.known
  saw : ∀ call ∈ pool.calls, call.Saw pool.shared.upserted
  kept : Kept pool.shared.rows pool.shared.upserted pool.Inserting

theorem mem_known_of_mem {call : UpsertCall} (member : call ∈ pool.calls) (event : Event)
    (own : event ∈ call.events) : event ∈ pool.known :=
  List.mem_append_right _ (List.mem_flatMap.mpr ⟨call, member, own⟩)

theorem upserted_subset_known : pool.shared.upserted ⊆ pool.known := List.subset_append_left _ _

theorem known_subset_of_step {index : Nat} {call : UpsertCall}
    (present : pool.calls[index]? = some call) :
    (advanceUpsert pool.shared call).1.upserted ++
      (proceed pool.calls index (advanceUpsert pool.shared call).2).flatMap UpsertCall.events ⊆
        pool.known := by
  have own : call.events ⊆ pool.known := fun event member =>
    mem_known_of_mem (List.mem_of_getElem? present) event member
  refine List.append_subset.mpr ⟨fun event member => ?_, fun event member => ?_⟩
  · rcases List.mem_append.mp (advance_subset_upserted member) with before | ended
    · exact upserted_subset_known before
    · exact own ended
  · obtain ⟨other, otherMember, inside⟩ := List.mem_flatMap.mp member
    rcases mem_proceed otherMember with stage | kept
    · exact own (events_of_advance stage ▸ inside)
    · exact mem_known_of_mem (List.mem_of_mem_eraseIdx kept) event inside

theorem inserting_of_step {index : Nat} {call : UpsertCall} {event : Event}
    (present : pool.calls[index]? = some call) (waiting : pool.Inserting event)
    (stage : Option UpsertCall) :
    call = .insert event ∨ UpsertCall.insert event ∈ proceed pool.calls index stage := by
  rcases mem_proceed_of_mem waiting index stage with own | kept
  · exact .inl (Option.some.inj (present.symm.trans own))
  · exact .inr kept

theorem kept_of_step (consistent : pool.Consistent) {index : Nat} {call : UpsertCall}
    (undisturbed : pool.Undisturbed (.step index)) (present : pool.calls[index]? = some call) :
    Kept (advanceUpsert pool.shared call).1.rows (advanceUpsert pool.shared call).1.upserted
      fun event => UpsertCall.insert event ∈
        proceed pool.calls index (advanceUpsert pool.shared call).2 := by
  have kept := consistent.kept
  have member := List.mem_of_getElem? present
  have upserted := consistent.identified.subset upserted_subset_known
  have identified : Identified (pool.shared.upserted ++ call.events) :=
    consistent.identified.subset (List.append_subset.mpr
      ⟨upserted_subset_known, fun event inside => mem_known_of_mem member event inside⟩)
  have waits : ∀ stage event, pool.Inserting event → call ≠ .insert event →
      UpsertCall.insert event ∈ proceed pool.calls index stage := fun stage event waiting other =>
    (inserting_of_step present waiting stage).resolve_left other
  unfold advanceUpsert
  cases call with
  | select event =>
    dsimp only
    cases found : selectOne pool.shared.rows event.replaces with
    | none => exact kept.mono fun other waiting => waits _ other waiting nofun
    | some existing =>
      obtain ⟨stored, version, -⟩ := kept.found upserted found
      dsimp only
      split
      · next notNewer =>
        exact (kept.refuse stored version notNewer).mono fun other waiting =>
          waits _ other waiting nofun
      · exact kept.mono fun other waiting => waits _ other waiting nofun
  | delete event id =>
    obtain ⟨saw, sawMember, sawId, version, newer⟩ := consistent.saw _ member
    refine kept.delete (fun row stored same => ?_)
      (fun other waiting => waits _ other waiting nofun)
      (mem_proceed_next present _)
    rw [upserted row (kept.stored row stored) saw sawMember (same.trans sawId.symm)]
    exact ⟨version, newer⟩
  | insert event =>
    refine kept.insert (fun row stored same => ?_)
      (undisturbed event present) fun other waiting => ?_
    · exact identified row (List.mem_append_left _ (kept.stored row stored)) event
        (List.mem_append_right _ List.mem_cons_self) same
    · rcases inserting_of_step present waiting none with own | still
      · exact .inl (UpsertCall.insert.inj own).symm
      · exact .inr still
  | batch events =>
    exact (kept.upsertEvents identified).mono fun other waiting => waits _ other waiting nofun

theorem saw_of_advance (consistent : pool.Consistent) {call stage : UpsertCall}
    (advanced : (advanceUpsert pool.shared call).2 = some stage) :
    stage.Saw (advanceUpsert pool.shared call).1.upserted := by
  unfold advanceUpsert at advanced ⊢
  cases call with
  | select event =>
    dsimp only at advanced ⊢
    cases found : selectOne pool.shared.rows event.replaces with
    | none =>
      rw [found] at advanced
      cases advanced
      trivial
    | some existing =>
      obtain ⟨stored, version, -⟩ :=
        consistent.kept.found (consistent.identified.subset upserted_subset_known) found
      rw [found] at advanced
      dsimp only at advanced ⊢
      split at advanced
      · cases advanced
      · next newer =>
        cases advanced
        rw [if_neg newer]
        exact ⟨existing, consistent.kept.stored existing stored, rfl, version,
          Int.lt_of_not_ge newer⟩
  | delete event id =>
    cases advanced
    trivial
  | insert | batch => cases advanced

theorem consistent_of_step (consistent : pool.Consistent) (undisturbed : pool.Undisturbed action)
    (stepped : poolStep upsertSystem pool action = some next) : next.Consistent := by
  cases action with
  | start call =>
    obtain ⟨first, started⟩ := Option.ite_none_right_eq_some.mp stepped
    cases started
    have same : pool.known ++ call.events =
        pool.shared.upserted ++ (pool.calls ++ [call]).flatMap UpsertCall.events := by
      unfold known
      rw [List.flatMap_append, List.flatMap_singleton, List.append_assoc]
    refine ⟨?_, fun other member => ?_, ?_⟩
    · unfold known
      rw [← same]
      intro one oneMember two twoMember equal
      rcases List.mem_append.mp oneMember with oneKnown | oneNew
      · rcases List.mem_append.mp twoMember with twoKnown | twoNew
        · exact consistent.identified one oneKnown two twoKnown equal
        · exact undisturbed two twoNew one oneMember equal
      · exact (undisturbed one oneNew two twoMember equal.symm).symm
    · rcases List.mem_append.mp member with before | added
      · exact consistent.saw other before
      · rw [List.mem_singleton.mp added]
        cases call with
        | delete _ _ => cases first
        | select | insert | batch => trivial
    · exact consistent.kept.mono fun event waiting => List.mem_append_left _ waiting
  | step index =>
    obtain ⟨call, present, rfl⟩ := Option.map_eq_some_iff.mp stepped
    refine ⟨consistent.identified.subset (known_subset_of_step present), fun other member => ?_,
      kept_of_step consistent undisturbed present⟩
    rcases mem_proceed member with stage | stays
    · exact saw_of_advance consistent stage
    · exact (consistent.saw other (List.mem_of_mem_eraseIdx stays)).mono upserted_subset_advance
  | environment rows =>
    obtain ⟨shared, moved, rfl⟩ := Option.map_eq_some_iff.mp stepped
    obtain ⟨perm, reordered⟩ := Option.ite_none_right_eq_some.mp moved
    cases reordered
    refine ⟨consistent.identified, consistent.saw, ?_, fun address => ?_, ?_⟩
    · exact fun row member => consistent.kept.stored row (perm.mem_iff.mp member)
    · exact ((perm.filter _).length_eq).trans_le (consistent.kept.one address)
    · intro event member address own
      obtain ⟨newer, held, version⟩ := consistent.kept.covered event member address own
      exact ⟨newer, held.imp_left perm.mem_iff.mpr, version⟩

theorem consistent_idle {rows : List Event} (distinct : Keyed Event.id rows)
    (one : ∀ address, (versions address rows).length ≤ 1) :
    Consistent (Pool.idle ⟨rows, rows⟩) where
  identified first firstMember second secondMember same := by
    rw [known, Pool.idle, List.flatMap_nil, List.append_nil] at firstMember secondMember
    exact distinct.eq_of_key firstMember secondMember same
  saw _ member := absurd member List.not_mem_nil
  kept := ⟨fun _ => id, one, fun event member address own => ⟨event, .inl member, own, le_rfl⟩⟩

theorem Consistent.oneVersion (consistent : pool.Consistent) : pool.OneVersion where
  one := consistent.kept.one
  newest ended address upserted := by
    have covered : ∀ event ∈ versions address pool.shared.upserted,
        ∃ row ∈ versions address pool.shared.rows, event.createdAt ≤ row.createdAt := by
      intro event member
      obtain ⟨inside, own⟩ := mem_versions.mp member
      obtain ⟨row, held, version, older⟩ := consistent.kept.covered event inside address own
      have stored := held.resolve_right fun waiting => by
        rw [Inserting, ended] at waiting
        exact List.not_mem_nil waiting
      exact ⟨row, mem_versions.mpr ⟨stored, version⟩, older⟩
    obtain ⟨event, member⟩ := List.exists_mem_of_ne_nil _ upserted
    obtain ⟨row, version, -⟩ := covered event member
    obtain ⟨only, single⟩ := List.length_eq_one_iff.mp
      (Nat.le_antisymm (consistent.kept.one address) (List.length_pos_of_mem version))
    rw [single] at covered
    refine ⟨only, single, ?_, fun other otherMember => ?_⟩
    · have stored : only ∈ versions address pool.shared.rows :=
        single ▸ List.mem_singleton_self only
      exact consistent.kept.stored only (mem_versions.mp stored).1
    · obtain ⟨row, inside, older⟩ := covered other otherMember
      rwa [List.mem_singleton.mp inside] at older

/-- When ids are those of one event and no insertion races, the table has one version of each event,
in the end the newest. -/
theorem oneVersion_of_run {rows : List Event} (distinct : Keyed Event.id rows)
    (one : ∀ address, (versions address rows).length ≤ 1)
    {actions : List (Action UpsertCall (List Event))} {final : UpsertPool}
    (meets : Transition.Meets (poolStep upsertSystem) Undisturbed (Pool.idle ⟨rows, rows⟩) actions)
    (ran : Transition.run (poolStep upsertSystem) (Pool.idle ⟨rows, rows⟩) actions = some final) :
    final.OneVersion :=
  (Transition.invariant_of_meets (poolStep upsertSystem)
    (fun _ _ _ consistent undisturbed stepped =>
      consistent_of_step consistent undisturbed stepped)
    (consistent_idle distinct one) meets ran).oneVersion

end UpsertPool

/-! ### Two upserts -/

def upsertsInTurn : List (Action UpsertCall (List Event)) :=
  [.start (.select (profile "1" 1)), .step 0, .step 0,
    .start (.select (profile "2" 2)), .step 0, .step 0, .step 0]

theorem oneVersion_inTurn :
    ∃ final : UpsertPool,
      Transition.run (poolStep upsertSystem) (Pool.idle ⟨[], []⟩) upsertsInTurn =
        some final ∧ final.OneVersion ∧ final.shared.rows = [profile "2" 2] := by
  have distinct : Keyed Event.id ([] : List Event) := List.nodup_nil
  suffices meets : Transition.Meets (poolStep upsertSystem) UpsertPool.Undisturbed
      (Pool.idle ⟨[], []⟩) upsertsInTurn from
    ⟨_, rfl, UpsertPool.oneVersion_of_run distinct (fun _ => Nat.zero_le 1) meets rfl, rfl⟩
  refine .cons _ (by decide : ∀ event ∈ [profile "1" 1], ∀ other ∈ [profile "1" 1],
    other.id = event.id → other = event) rfl ?_
  refine .cons _ (fun event present => ?_) rfl (.cons _ (fun event present row member => ?_) rfl ?_)
  · cases present
  · exact absurd member List.not_mem_nil
  refine .cons _ (by decide : ∀ event ∈ [profile "2" 2],
    ∀ other ∈ [profile "1" 1, profile "2" 2], other.id = event.id → other = event) rfl ?_
  refine .cons _ (fun event present => ?_) rfl (.cons _ (fun event present => ?_) rfl
    (.cons _ (fun event present row member => ?_) rfl trivial))
  · cases present
  · cases present
  · exact absurd member List.not_mem_nil

/-- Two upserts that both look for a version before either inserts its event. -/
def upsertsAtOnce : List (Action UpsertCall (List Event)) :=
  [.start (.select (profile "1" 1)), .start (.select (profile "2" 2)), .step 0, .step 1,
    .step 0, .step 0]

/-- Two profiles of one user stay in the table. -/
theorem twoVersions_atOnce :
    ∃ final : UpsertPool,
      Transition.run (poolStep upsertSystem) (Pool.idle ⟨[], []⟩) upsertsAtOnce =
        some final ∧ final.calls = [] ∧ ¬final.OneVersion := by
  refine ⟨_, rfl, rfl, fun oneVersion => ?_⟩
  have two := oneVersion.one (.replaceable "me" 0)
  revert two
  decide

end Divine.DbClient
