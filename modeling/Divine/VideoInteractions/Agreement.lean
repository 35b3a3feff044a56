/-
This file proves when a button shows what the repository holds.
-/

import Divine.VideoInteractions.Bloc
import Divine.Library.Observer

namespace Divine.VideoInteractions

open List Option Function Interleaving Observer Transition

/-! ### What is shown and what is held -/

def observe : Observe Bloc Action Bool Bool := fun fetched _ _ _ succeeded => fetched || succeeded

/-- What is shown of both kinds is what is held, and the count is that of the others and the own
one. -/
def Agrees (bloc : Bloc) : Prop :=
  ∀ kind, (bloc.state.interaction kind).isOn = (bloc.repository kind).isHeld ∧
    (bloc.state.interaction kind).count =
      some ((bloc.repository kind).others + (bloc.repository kind).isHeld.toInt)

/-- Nothing is in progress. -/
structure Quiet (bloc : Bloc) : Prop where
  calls : bloc.calls = []
  streams : ∀ stream ∈ bloc.streams, stream.waiting = []

/-! ### The condition -/

def toggleOf (kind : Kind) : Call → Option Toggle
  | .toggling toggle => if toggle.kind = kind then some toggle else none
  | _ => none

def togglesOf (kind : Kind) (calls : List Call) : List Toggle := calls.filterMap (toggleOf kind)

def Waits (streams : List Stream) (kind : Kind) : Prop :=
  ∃ stream ∈ streams, stream.kind = kind ∧ stream.waiting ≠ []

def Toggle.isPublished (toggle : Toggle) : Bool :=
  match toggle.stage with
  | .stored _ | .returning _ => true
  | _ => false

/-- The count that a toggle in progress goes on from, which is the one before its event was
published. -/
def due (holding : Holding) (toggle : Option Toggle) : Int :=
  holding.others +
    (if toggle.any Toggle.isPublished then !holding.isHeld else holding.isHeld).toInt

/-- A toggle changes what is held, and started from the count of reposts. -/
structure Toggle.Ready (holding : Holding) (toggle : Toggle) : Prop where
  count : toggle.kind = .repost → toggle.currentCount = due holding (some toggle)
  publishing : ∀ turnsOn, toggle.stage = .publishing turnsOn → turnsOn = !holding.isHeld
  published : ∀ turnsOn, toggle.stage = .stored turnsOn ∨ toggle.stage = .returning turnsOn →
    turnsOn = holding.isHeld

/-- What is to be shown is what is held, but for a toggle in progress and waiting values. -/
structure Current (isOn : Bool) (count : Int) (holding : Holding) (waits : Prop)
    (toggle : Option Toggle) : Prop where
  isOn : isOn = holding.isHeld ∨ waits ∨ toggle.any Toggle.isPublished = true
  count : count = due holding toggle
  ready : ∀ started ∈ toggle, started.Ready holding

def CallCondition (bloc : Bloc) : Call → Reply → Prop
  | .counting isLiked isReposted (some likeCount) (some repostCount), .done =>
      Current isLiked likeCount (bloc.repository .like) (Waits bloc.streams .like)
          (togglesOf .like bloc.calls).head? ∧
        Current isReposted repostCount (bloc.repository .repost) (Waits bloc.streams .repost)
          (togglesOf .repost bloc.calls).head?
  | _, _ => True

/-- The condition of a step. Once the counts were fetched, no other screen changes what is held. -/
def Condition (seen : Bloc × Bool) : Action → Prop
  | .changed kind isHeld => seen.2 = false ∨ isHeld = (seen.1.repository kind).isHeld
  | .answer index reply => ∀ call, seen.1.calls[index]? = some call →
      CallCondition seen.1 call reply
  | _ => True

section

instance decidableAgrees (bloc : Bloc) : Decidable (Agrees bloc) :=
  decidable_of_iff
    (∀ kind ∈ [Kind.like, .repost],
      (bloc.state.interaction kind).isOn = (bloc.repository kind).isHeld ∧
        (bloc.state.interaction kind).count =
          some ((bloc.repository kind).others + (bloc.repository kind).isHeld.toInt))
    ⟨fun agrees kind => agrees kind (by cases kind <;> decide), fun agrees kind _ => agrees kind⟩

instance decidableQuiet (bloc : Bloc) : Decidable (Quiet bloc) :=
  decidable_of_iff (bloc.calls = [] ∧ ∀ stream ∈ bloc.streams, stream.waiting = [])
    ⟨fun ⟨calls, streams⟩ => ⟨calls, streams⟩, fun ⟨calls, streams⟩ => ⟨calls, streams⟩⟩

instance decidableWaits (streams : List Stream) (kind : Kind) : Decidable (Waits streams kind) :=
  inferInstanceAs (Decidable (∃ stream ∈ streams, stream.kind = kind ∧ stream.waiting ≠ []))

instance decidableReady (holding : Holding) (toggle : Toggle) : Decidable (toggle.Ready holding) :=
  decidable_of_iff
    ((toggle.kind = .repost → toggle.currentCount = due holding (some toggle)) ∧
      (toggle.stage ≠ .publishing holding.isHeld) ∧
      toggle.stage ≠ .stored (!holding.isHeld) ∧ toggle.stage ≠ .returning (!holding.isHeld))
    (by
      constructor
      · rintro ⟨count, publishing, stored, returning⟩
        refine ⟨count, fun turnsOn waits => ?_, fun turnsOn published => ?_⟩
        · exact Bool.eq_not_of_ne fun same => publishing (same ▸ waits)
        · by_contra differs
          have other := Bool.eq_not_of_ne differs
          rcases published with waits | waits
          · exact stored (other ▸ waits)
          · exact returning (other ▸ waits)
      · rintro ⟨count, publishing, published⟩
        refine ⟨count, fun waits => ?_, fun waits => ?_, fun waits => ?_⟩
        · exact absurd (publishing _ waits) (by simp)
        · exact absurd (published _ (.inl waits)) (by simp)
        · exact absurd (published _ (.inr waits)) (by simp))

instance decidableCurrent (isOn : Bool) (count : Int) (holding : Holding) (waits : Prop)
    [Decidable waits] (toggle : Option Toggle) :
      Decidable (Current isOn count holding waits toggle) :=
  decidable_of_iff
    ((isOn = holding.isHeld ∨ waits ∨ toggle.any Toggle.isPublished = true) ∧
      count = due holding toggle ∧ ∀ started ∈ toggle, started.Ready holding)
    ⟨fun ⟨isOn, count, ready⟩ => ⟨isOn, count, ready⟩, fun ⟨isOn, count, ready⟩ =>
      ⟨isOn, count, ready⟩⟩

instance decidableCallCondition (bloc : Bloc) (call : Call) (reply : Reply) :
    Decidable (CallCondition bloc call reply) := by
  unfold CallCondition
  split <;> infer_instance

instance decidableCondition (seen : Bloc × Bool) (action : Action) :
    Decidable (Condition seen action) := by
  unfold Condition
  split <;> infer_instance

end

/-! ### What is kept -/

structure Invariant (seen : Bloc × Bool) : Prop where
  single : ∀ kind, ∃ toggle : Option Toggle, togglesOf kind seen.1.calls = toggle.toList ∧
    (seen.1.state.interaction kind).isInProgress = toggle.isSome
  streams : ∀ stream ∈ seen.1.streams, ∀ last, stream.waiting.getLast? = some last →
    last = (seen.1.repository stream.kind).isHeld
  current : seen.2 = true → ∀ kind, ∃ count, (seen.1.state.interaction kind).count = some count ∧
    Current (seen.1.state.interaction kind).isOn count (seen.1.repository kind)
      (Waits seen.1.streams kind) (togglesOf kind seen.1.calls).head?

section

variable {before after : Bloc} {fetched : Bool} {kind : Kind} {isOn : Bool} {count : Int}
  {waits : Prop} {toggle : Toggle}

theorem Invariant.changes (invariant : Invariant (before, fetched)) (kind : Kind)
    (others : ∀ other, other ≠ kind →
      after.state.interaction other = before.state.interaction other ∧
        after.repository other = before.repository other ∧
        (Waits before.streams other → Waits after.streams other) ∧
        togglesOf other after.calls = togglesOf other before.calls)
    (single : ∃ toggle : Option Toggle, togglesOf kind after.calls = toggle.toList ∧
      (after.state.interaction kind).isInProgress = toggle.isSome ∧
      (fetched = true → ∃ count, (after.state.interaction kind).count = some count ∧
        Current (after.state.interaction kind).isOn count (after.repository kind)
          (Waits after.streams kind) toggle))
    (streams : ∀ stream ∈ after.streams, ∀ last, stream.waiting.getLast? = some last →
      last = (after.repository stream.kind).isHeld) :
    Invariant (after, fetched) := by
  obtain ⟨toggle, toggles, inProgress, current⟩ := single
  refine ⟨fun other => ?_, streams, fun succeeded other => ?_⟩
  · by_cases same : other = kind
    · rw [same]
      exact ⟨toggle, toggles, inProgress⟩
    · obtain ⟨interaction, -, -, kept⟩ := others other same
      rw [interaction, kept]
      exact invariant.single other
  · by_cases same : other = kind
    · subst same
      obtain ⟨count, counted, current⟩ := current succeeded
      refine ⟨count, counted, ?_⟩
      rw [toggles]
      cases toggle <;> exact current
    · obtain ⟨interaction, repository, waits, kept⟩ := others other same
      obtain ⟨count, counted, current⟩ := invariant.current succeeded other
      refine ⟨count, ?_, ?_⟩
      · show (after.state.interaction other).count = some count
        rw [interaction]
        exact counted
      · show Current (after.state.interaction other).isOn count (after.repository other)
          (Waits after.streams other) (togglesOf other after.calls).head?
        rw [interaction, repository, kept]
        exact ⟨current.isOn.imp_right (Or.imp_left waits), current.count, current.ready⟩

theorem Invariant.stays (invariant : Invariant (before, fetched))
    (interaction : after.state.interaction = before.state.interaction)
    (repository : after.repository = before.repository) (streams : after.streams = before.streams)
    (toggles : ∀ kind, togglesOf kind after.calls = togglesOf kind before.calls) :
    Invariant (after, fetched) := by
  refine ⟨fun kind => ?_, ?_, fun succeeded kind => ?_⟩
  · show ∃ toggle : Option Toggle, togglesOf kind after.calls = toggle.toList ∧
      (after.state.interaction kind).isInProgress = toggle.isSome
    rw [toggles, interaction]
    exact invariant.single kind
  · show ∀ stream ∈ after.streams, ∀ last, stream.waiting.getLast? = some last →
      last = (after.repository stream.kind).isHeld
    rw [streams, repository]
    exact invariant.streams
  · show ∃ count, (after.state.interaction kind).count = some count ∧
      Current (after.state.interaction kind).isOn count (after.repository kind)
        (Waits after.streams kind) (togglesOf kind after.calls).head?
    rw [interaction, repository, streams, toggles]
    exact invariant.current succeeded kind

end

/-! ### Toggles -/

section

variable {bloc : Bloc} {fetched : Bool} {index : Nat} {toggle : Toggle} {kind : Kind}

theorem toggleOf_self : toggleOf toggle.kind (.toggling toggle) = some toggle := if_pos rfl

theorem toggleOf_of_ne (differs : kind ≠ toggle.kind) : toggleOf kind (.toggling toggle) = none :=
  if_neg (Ne.symm differs)

theorem togglesOf_proceed {calls : List Call} {call : Call} (present : calls[index]? = some call)
    (idle : toggleOf kind call = none) {next : Option Call}
    (rests : next.bind (toggleOf kind) = none) :
    togglesOf kind (proceed calls index next) = togglesOf kind calls := by
  obtain ⟨before, after, whole, others⟩ := exists_filterMap_proceed (toggleOf kind) present
  unfold togglesOf
  rw [whole, others, idle, rests]

theorem toList_eq_append {Item : Type*} {found : Option Item}
    {before after : List Item} {item : Item}
    (whole : before ++ item :: after = found.toList) :
    before = [] ∧ after = [] ∧ found = some item := by
  cases found with
  | none => exact absurd whole (by simp)
  | some other =>
    cases before with
    | nil =>
      obtain ⟨rfl, rfl⟩ := List.cons.inj whole
      exact ⟨rfl, rfl, rfl⟩
    | cons head rest => exact absurd (List.cons.inj whole).2 (by simp)

theorem Invariant.alone (invariant : Invariant (bloc, fetched))
    (present : bloc.calls[index]? = some (.toggling toggle)) :
    togglesOf toggle.kind bloc.calls = [toggle] ∧
      (bloc.state.interaction toggle.kind).isInProgress = true ∧
      ∀ stage : Option Stage,
        togglesOf toggle.kind (proceed bloc.calls index
          (stage.map fun stage => .toggling { toggle with stage := stage })) =
            (stage.map fun stage => { toggle with stage := stage }).toList := by
  obtain ⟨found, single, inProgress⟩ := invariant.single toggle.kind
  obtain ⟨before, after, whole, others⟩ := exists_filterMap_proceed (toggleOf toggle.kind) present
  rw [toggleOf_self] at whole
  obtain ⟨rfl, rfl, rfl⟩ := toList_eq_append (whole.symm.trans single)
  refine ⟨single, inProgress, fun stage => (others _).trans ?_⟩
  rw [nil_append, append_nil]
  cases stage with
  | none => rfl
  | some stage => exact congrArg toList toggleOf_self

theorem togglesOf_other (present : bloc.calls[index]? = some (.toggling toggle))
    (differs : kind ≠ toggle.kind) (stage : Option Stage) :
    togglesOf kind (proceed bloc.calls index
      (stage.map fun stage => .toggling { toggle with stage := stage })) =
        togglesOf kind bloc.calls := by
  refine togglesOf_proceed present (toggleOf_of_ne differs) ?_
  cases stage with
  | none => rfl
  | some stage => exact if_neg (Ne.symm differs)
variable {interaction : Interaction} {error : Option Error}


theorem copyWith_self {state : VideoInteractionsState} :
    (state.copyWith kind interaction error).interaction kind = interaction :=
  update_self ..

theorem copyWith_of_ne {state : VideoInteractionsState} {other : Kind} (differs : other ≠ kind) :
    (state.copyWith kind interaction error).interaction other = state.interaction other :=
  update_of_ne differs ..

theorem Invariant.goesOn (invariant : Invariant (bloc, fetched))
    (present : bloc.calls[index]? = some (.toggling toggle)) {after : Bloc} (stage : Option Stage)
    (calls : after.calls = proceed bloc.calls index
      (stage.map fun stage => .toggling { toggle with stage := stage }))
    (others : ∀ other, other ≠ toggle.kind →
      after.state.interaction other = bloc.state.interaction other ∧
        after.repository other = bloc.repository other ∧
        (Waits bloc.streams other → Waits after.streams other))
    (streams : ∀ stream ∈ after.streams, ∀ last, stream.waiting.getLast? = some last →
      last = (after.repository stream.kind).isHeld)
    (inProgress : (after.state.interaction toggle.kind).isInProgress = stage.isSome)
    (current : fetched = true → ∃ count,
      (after.state.interaction toggle.kind).count = some count ∧
      Current (after.state.interaction toggle.kind).isOn count (after.repository toggle.kind)
        (Waits after.streams toggle.kind)
        (stage.map fun stage => { toggle with stage := stage })) :
    Invariant (after, fetched) := by
  obtain ⟨-, -, stages⟩ := invariant.alone present
  refine invariant.changes toggle.kind (fun other differs => ?_) ⟨_, ?_, ?_, current⟩ streams
  · obtain ⟨interaction, repository, waits⟩ := others other differs
    refine ⟨interaction, repository, waits, ?_⟩
    rw [calls]
    exact togglesOf_other present differs stage
  · rw [calls]
    exact stages stage
  · rw [inProgress]
    cases stage <;> rfl

theorem Invariant.running (invariant : Invariant (bloc, fetched))
    (present : bloc.calls[index]? = some (.toggling toggle)) (succeeded : fetched = true) :
    ∃ count, (bloc.state.interaction toggle.kind).count = some count ∧
      Current (bloc.state.interaction toggle.kind).isOn count (bloc.repository toggle.kind)
        (Waits bloc.streams toggle.kind) (some toggle) := by
  obtain ⟨single, -, -⟩ := invariant.alone present
  obtain ⟨count, counted, current⟩ := invariant.current succeeded toggle.kind
  rw [single] at current
  exact ⟨count, counted, current⟩

theorem Invariant.hold (invariant : Invariant (bloc, fetched)) (isHeld : Bool) :
    (∀ stream ∈ (bloc.hold kind isHeld).streams, ∀ last, stream.waiting.getLast? = some last →
      last = ((bloc.hold kind isHeld).repository stream.kind).isHeld) ∧
    ∀ other, Waits bloc.streams other → Waits (bloc.hold kind isHeld).streams other := by
  constructor
  · intro stream member last ends
    obtain ⟨before, present, rfl⟩ := mem_map.mp member
    show last = (update bloc.repository kind _ _).isHeld
    by_cases same : before.kind = kind
    · rw [if_pos same] at ends ⊢
      rw [getLast?_append_of_ne_nil _ (cons_ne_nil _ _)] at ends
      rw [same, update_self]
      exact (Option.some.inj ends).symm
    · rw [if_neg same] at ends ⊢
      rw [update_of_ne same]
      exact invariant.streams before present last ends
  · rintro other ⟨stream, present, own, waits⟩
    refine ⟨_, mem_map_of_mem present, ?_, ?_⟩
    · split <;> exact own
    · split
      · exact fun none => waits (append_eq_nil_iff.mp none).1
      · exact waits

theorem newCount_due (others : Nat) (turnsOn : Bool) :
    newCount turnsOn (others + (!turnsOn).toInt) = others + turnsOn.toInt := by
  unfold newCount
  cases turnsOn with
  | true =>
    simp only [Bool.not_true, Bool.toInt_false, if_true, Bool.toInt_true]
    omega
  | false => simp

theorem ends_self :
    (bloc.ends kind interaction error).interaction kind =
      { interaction with isInProgress := false } :=
  copyWith_self

theorem Invariant.resumesToggle (invariant : Invariant (bloc, fetched))
    (present : bloc.calls[index]? = some (.toggling toggle)) :
    Invariant ({ (bloc.resumeToggle toggle).1 with
      calls := proceed bloc.calls index ((bloc.resumeToggle toggle).2.map fun stage =>
        .toggling { toggle with stage := stage }) }, fetched) := by
  have running := invariant.running present
  have inProgress := (invariant.alone present).2.1
  obtain ⟨kind, currentCount, stage⟩ := toggle
  cases stage with
  | deciding =>
    refine invariant.goesOn present (some (.chosen _)) rfl (fun _ _ => ⟨rfl, rfl, id⟩)
      invariant.streams inProgress fun succeeded => ?_
    obtain ⟨count, counted, current⟩ := running succeeded
    have ready := current.ready _ rfl
    exact ⟨count, counted, current.isOn, current.count, fun _ same =>
      Option.some.inj same ▸ ⟨ready.count, nofun,
        (fun _ waits => by rcases waits with waits | waits <;> cases waits)⟩⟩
  | chosen turnsOn =>
    by_cases refused : (bloc.repository kind).isHeld = turnsOn
    · simp only [Bloc.resumeToggle, if_pos refused]
      refine invariant.goesOn present none rfl (fun _ differs => ⟨copyWith_of_ne differs, rfl, id⟩)
        invariant.streams (congrArg Interaction.isInProgress ends_self) fun succeeded => ?_
      obtain ⟨count, counted, current⟩ := running succeeded
      refine ⟨count, (congrArg Interaction.count ends_self).trans counted, ?_, current.count, nofun⟩
      exact .inl ((congrArg Interaction.isOn ends_self).trans refused.symm)
    · simp only [Bloc.resumeToggle, if_neg refused]
      refine invariant.goesOn present (some (.publishing turnsOn)) rfl
        (fun _ _ => ⟨rfl, rfl, id⟩) invariant.streams inProgress fun succeeded => ?_
      obtain ⟨count, counted, current⟩ := running succeeded
      have ready := current.ready _ rfl
      refine ⟨count, counted, current.isOn, current.count, fun _ same =>
        Option.some.inj same ▸ ⟨ready.count, fun other waits => ?_,
          (fun _ waits => by rcases waits with waits | waits <;> cases waits)⟩⟩
      rw [← Stage.publishing.inj waits]
      exact Bool.eq_not_of_ne (Ne.symm refused)
  | publishing turnsOn =>
    obtain ⟨streams, waits⟩ := @Invariant.hold bloc fetched kind invariant turnsOn
    refine invariant.goesOn present (some (.stored turnsOn)) rfl
      (fun other differs => ⟨rfl, update_of_ne differs .., waits other⟩) streams
      inProgress fun succeeded => ?_
    obtain ⟨count, counted, current⟩ := running succeeded
    have ready := current.ready _ rfl
    have turns : turnsOn = !(bloc.repository kind).isHeld := ready.publishing turnsOn rfl
    have held : (bloc.hold kind turnsOn).repository kind =
        { bloc.repository kind with isHeld := turnsOn } := update_self ..
    have same : due { bloc.repository kind with isHeld := turnsOn }
        (some ⟨kind, currentCount, .stored turnsOn⟩) = due (bloc.repository kind)
          (some ⟨kind, currentCount, .publishing turnsOn⟩) := by
      rw [turns]
      show _ + (!(!_)).toInt = _ + _
      rw [Bool.not_not]
      rfl
    refine ⟨count, counted, .inr (.inr rfl), ?_, fun _ found =>
      Option.some.inj found ▸ ⟨?_, ?_, ?_⟩⟩
    · show count = due ((bloc.hold kind turnsOn).repository kind) _
      rw [held]
      exact current.count.trans same.symm
    · show _ → currentCount = due ((bloc.hold kind turnsOn).repository kind) _
      rw [held]
      exact fun repost => (ready.count repost).trans same.symm
    · exact nofun
    · show ∀ other, _ → other = ((bloc.hold kind turnsOn).repository kind).isHeld
      rw [held]
      rintro other (stored | returning)
      · exact (Stage.stored.inj stored).symm
      · cases returning
  | stored turnsOn =>
    have held : ∀ cached : Option Int, (update bloc.repository kind
        { bloc.repository kind with cached := cached }) kind =
          { bloc.repository kind with cached := cached } := fun _ => update_self ..
    have kept : ∀ (cached : Option Int) (other : Kind), (update bloc.repository kind
        { bloc.repository kind with cached := cached } other).isHeld =
          (bloc.repository other).isHeld := by
      intro cached other
      by_cases same : other = kind
      · rw [same, held]
      · rw [update_of_ne same]
    refine invariant.goesOn present (some (.returning turnsOn)) rfl
      (fun other differs => ⟨rfl, update_of_ne differs .., id⟩)
      (fun stream member last ends =>
        (invariant.streams stream member last ends).trans (kept _ _).symm)
      inProgress fun succeeded => ?_
    obtain ⟨count, counted, current⟩ := running succeeded
    have ready := current.ready _ rfl
    refine ⟨count, counted, .inr (.inr rfl), ?_, fun _ found =>
      Option.some.inj found ▸ ⟨?_, ?_, ?_⟩⟩
    · show count = due (update bloc.repository kind _ kind) _
      rw [held]
      exact current.count
    · show _ → currentCount = due (update bloc.repository kind _ kind) _
      rw [held]
      exact ready.count
    · exact nofun
    · intro other waits
      show other = (update bloc.repository kind _ kind).isHeld
      rw [kept]
      refine ready.published other (.inl ?_)
      rcases waits with stored | returning
      · cases stored
      · rw [Stage.returning.inj returning]
  | returning turnsOn =>
    refine invariant.goesOn present none rfl (fun _ differs => ⟨copyWith_of_ne differs, rfl, id⟩)
      invariant.streams (congrArg Interaction.isInProgress ends_self) fun succeeded => ?_
    obtain ⟨count, counted, current⟩ := running succeeded
    have ready := current.ready _ rfl
    have turns : turnsOn = (bloc.repository kind).isHeld := ready.published turnsOn (.inr rfl)
    have before : bloc.currentCount ⟨kind, currentCount, .returning turnsOn⟩ = count := by
      cases kind with
      | like => exact congrArg (fun found => Option.getD found 0) counted
      | repost => exact (ready.count rfl).trans current.count.symm
    refine ⟨_, congrArg Interaction.count ends_self, .inl ?_, ?_, nofun⟩
    · exact (congrArg Interaction.isOn ends_self).trans turns
    · rw [before, current.count]
      show newCount turnsOn
        ((bloc.repository kind).others + (!(bloc.repository kind).isHeld).toInt) =
        (bloc.repository kind).others + (bloc.repository kind).isHeld.toInt
      rw [← turns]
      exact newCount_due _ _

theorem Invariant.fails (invariant : Invariant (bloc, fetched))
    (present : bloc.calls[index]? = some (.toggling toggle))
    (unpublished : toggle.isPublished = false) (error : Option Error) :
    Invariant ({ bloc with
      state := bloc.ends toggle.kind (bloc.state.interaction toggle.kind) error
      calls := proceed bloc.calls index none }, fetched) := by
  refine invariant.goesOn present none rfl (fun _ differs => ⟨copyWith_of_ne differs, rfl, id⟩)
    invariant.streams (congrArg Interaction.isInProgress ends_self) fun succeeded => ?_
  obtain ⟨count, counted, current⟩ := invariant.running present succeeded
  refine ⟨count, (congrArg Interaction.count ends_self).trans counted, ?_, ?_, nofun⟩
  · rcases current.isOn with same | waits | published
    · exact .inl ((congrArg Interaction.isOn ends_self).trans same)
    · exact .inr (.inl waits)
    · exact absurd published (by simp [unpublished])
  · rw [current.count]
    unfold due
    simp [unpublished]

end

/-! ### Steps -/

section

variable {bloc : Bloc} {fetched : Bool} {index : Nat}

section

variable (invariant : Invariant (bloc, fetched))

include invariant

theorem Invariant.toggles (kind : Kind) :
    Invariant (bloc.toggled kind, fetched) := by
  unfold Bloc.toggled
  by_cases inProgress : (bloc.state.interaction kind).isInProgress = true
  · simp only [inProgress, if_true]
    exact invariant
  simp only [inProgress, if_false, Bool.false_eq_true]
  split
  · exact invariant.stays rfl rfl rfl fun _ => rfl
  obtain ⟨found, single, marked⟩ := invariant.single kind
  obtain rfl : found = none := by
    cases found with
    | none => rfl
    | some toggle => exact absurd marked inProgress
  have added (other : Kind) (toggle : Toggle) : togglesOf other (bloc.calls ++ [.toggling toggle]) =
      togglesOf other bloc.calls ++ (toggleOf other (.toggling toggle)).toList := by
    unfold togglesOf
    rw [filterMap_append, filterMap_cons]
    cases toggleOf other (.toggling toggle) <;> rfl
  refine invariant.changes kind (fun other differs => ⟨copyWith_of_ne differs, rfl, id, ?_⟩)
    ⟨some ⟨kind, (bloc.state.interaction kind).count.getD 0, .deciding⟩, ?_,
      congrArg Interaction.isInProgress copyWith_self, fun succeeded => ?_⟩
    invariant.streams
  · show togglesOf other (_ ++ [_]) = _
    rw [added, toggleOf_of_ne differs]
    exact append_nil _
  · show togglesOf kind (_ ++ [_]) = _
    rw [added, single]
    exact congrArg toList toggleOf_self
  · obtain ⟨count, counted, current⟩ := invariant.current succeeded kind
    rw [single] at current
    refine ⟨count, (congrArg Interaction.count copyWith_self).trans counted, ?_, current.count,
      fun _ started => Option.some.inj started ▸ ⟨fun _ => ?_, nofun,
        (fun _ waits => by rcases waits with waits | waits <;> cases waits)⟩⟩
    · rcases current.isOn with same | waits | published
      · exact .inl ((congrArg Interaction.isOn copyWith_self).trans same)
      · exact .inr (.inl waits)
      · cases published
    · exact (congrArg (fun found => Option.getD found 0) counted).trans current.count

theorem Invariant.emits {next : Bloc}
    (emitted : bloc.emitted index = some next) : Invariant (next, fetched) := by
  obtain ⟨stream, present, moved⟩ := bind_eq_some_iff.mp emitted
  obtain ⟨isOn, first, rfl⟩ := map_eq_some_iff.mp moved
  have whole : stream.waiting = isOn :: stream.waiting.tail := (cons_head?_tail first).symm
  have shown : ∀ interaction error, ((bloc.state.copyWith stream.kind interaction
      error).interaction stream.kind) = interaction := fun _ _ => copyWith_self
  have later : stream.waiting.tail ≠ [] →
      Waits (bloc.streams.set index { stream with waiting := stream.waiting.tail }) stream.kind :=
    fun waits => ⟨_, mem_proceed_next present _, rfl, waits⟩
  refine invariant.changes stream.kind
    (fun other differs => ⟨copyWith_of_ne differs, rfl, fun waits => ?_, rfl⟩) ?_
    fun other member last ends => ?_
  · obtain ⟨found, member, own, remains⟩ := waits
    rcases mem_proceed_of_mem member index (some _) with same | kept
    · rw [present] at same
      exact absurd ((congrArg Stream.kind (Option.some.inj same)).trans own) (Ne.symm differs)
    · exact ⟨found, kept, own, remains⟩
  · obtain ⟨found, single, inProgress⟩ := invariant.single stream.kind
    refine ⟨found, single, (congrArg Interaction.isInProgress (shown _ _)).trans inProgress,
      fun succeeded => ?_⟩
    obtain ⟨count, counted, current⟩ := invariant.current succeeded stream.kind
    have head : (togglesOf stream.kind bloc.calls).head? = found := by
      rw [show togglesOf stream.kind bloc.calls = _ from single]
      cases found <;> rfl
    rw [head] at current
    refine ⟨count, (congrArg Interaction.count (shown _ _)).trans counted, ?_, current.count,
      current.ready⟩
    by_cases rest : stream.waiting.tail = []
    · refine .inl ((congrArg Interaction.isOn (shown _ _)).trans ?_)
      refine invariant.streams stream (mem_of_getElem? present) isOn ?_
      rw [whole, rest]
      rfl
    · exact .inr (.inl (later rest))
  · rcases @mem_proceed _ _ index (some _) _ member with same | kept
    · rw [← Option.some.inj same] at ends ⊢
      refine invariant.streams stream (mem_of_getElem? present) last ?_
      rw [whole, getLast?_cons, show stream.waiting.tail.getLast? = some last from ends]
      rfl
    · exact invariant.streams other (mem_of_mem_eraseIdx kept) last ends

theorem Invariant.subscribes :
    Invariant (bloc.subscriptionRequested, fetched) := by
  have waits (kind : Kind) (waits : Waits bloc.streams kind) :
      Waits bloc.subscriptionRequested.streams kind := by
    obtain ⟨stream, member, own, remains⟩ := waits
    exact ⟨stream, mem_append_left _ member, own, remains⟩
  refine ⟨invariant.single, fun stream member last ends => ?_, fun succeeded kind => ?_⟩
  · rcases mem_append.mp member with before | added
    · exact invariant.streams stream before last ends
    · rcases mem_cons.mp added with rfl | reposts
      · exact (Option.some.inj ends).symm
      · split at reposts
        · obtain rfl := mem_singleton.mp reposts
          exact (Option.some.inj ends).symm
        · cases reposts
  · obtain ⟨count, counted, current⟩ := invariant.current succeeded kind
    exact ⟨count, counted, current.isOn.imp_right (Or.imp_left (waits kind)), current.count,
      current.ready⟩

theorem Invariant.changed {kind : Kind} {isHeld : Bool}
    (allowed : fetched = false ∨ isHeld = (bloc.repository kind).isHeld) :
    Invariant (bloc.hold kind isHeld, fetched) := by
  obtain ⟨streams, waits⟩ := @Invariant.hold bloc fetched kind invariant isHeld
  obtain ⟨found, single, inProgress⟩ := invariant.single kind
  refine invariant.changes kind (fun other differs =>
    ⟨rfl, update_of_ne differs .., waits other, rfl⟩) ⟨found, single, inProgress,
      fun succeeded => ?_⟩ streams
  rcases allowed with early | same
  · rw [early] at succeeded
    cases succeeded
  · obtain ⟨count, counted, current⟩ := invariant.current succeeded kind
    have head : (togglesOf kind bloc.calls).head? = found := by
      rw [show togglesOf kind bloc.calls = _ from single]
      cases found <;> rfl
    have held : (bloc.hold kind isHeld).repository kind = bloc.repository kind := by
      rw [same]
      exact update_self ..
    rw [held]
    rw [head] at current
    exact ⟨count, counted, current.isOn.imp_right (Or.imp_left (waits kind)), current.count,
      current.ready⟩

theorem Invariant.fetches :
    Invariant (bloc.fetchRequested, fetched) := by
  unfold Bloc.fetchRequested
  split
  · exact invariant
  · refine invariant.stays rfl rfl rfl fun kind => ?_
    show (bloc.calls ++ [Call.checkingLiked]).filterMap (toggleOf kind) = _
    rw [filterMap_append]
    exact append_nil _

theorem Invariant.resumes {call : Call} {reply : Reply}
    (present : bloc.calls[index]? = some call) (condition : CallCondition bloc call reply)
    {next : Bloc} {stage : Option Call} {succeeded : Bool}
    (resumed : bloc.resume call reply = some (next, stage, succeeded)) :
    Invariant ({ next with calls := proceed bloc.calls index stage }, fetched || succeeded) := by
  have idle {kind : Kind} (rests : toggleOf kind call = none)
      (later : stage.bind (toggleOf kind) = none) :
      togglesOf kind (proceed bloc.calls index stage) = togglesOf kind bloc.calls :=
    togglesOf_proceed present rests later
  unfold Bloc.resume at resumed
  split at resumed
  · obtain ⟨rfl, rfl, rfl⟩ := resumed
    rw [Bool.or_false]
    exact invariant.resumesToggle present
  · rename_i toggle
    cases place : toggle.stage with
    | stored | returning => simp [place] at resumed
    | _ =>
      simp only [place] at resumed
      obtain ⟨rfl, rfl, rfl⟩ := resumed
      rw [Bool.or_false]
      exact invariant.fails present (by simp [Toggle.isPublished, place]) _
  · obtain ⟨rfl, rfl, rfl⟩ := resumed
    rw [Bool.or_false]
    refine invariant.stays rfl rfl rfl fun kind => idle rfl ?_
    split <;> rfl
  · obtain ⟨rfl, rfl, rfl⟩ := resumed
    rw [Bool.or_false]
    exact invariant.stays rfl rfl rfl fun kind => idle rfl rfl
  · obtain ⟨rfl, rfl, rfl⟩ := resumed
    rw [Bool.or_false]
    exact invariant.stays rfl rfl rfl fun kind => idle rfl rfl
  · obtain ⟨rfl, rfl, rfl⟩ := resumed
    rw [Bool.or_false]
    exact invariant.stays rfl rfl rfl fun kind => idle rfl rfl
  · obtain ⟨rfl, rfl, rfl⟩ := resumed
    obtain ⟨likes, reposts⟩ := condition
    have kept (kind : Kind) := @idle kind rfl rfl
    refine ⟨fun kind => ?_, invariant.streams, fun _ kind => ?_⟩
    · show ∃ toggle : Option Toggle, togglesOf kind (proceed bloc.calls index none) = _ ∧ _
      rw [kept]
      exact invariant.single kind
    · show ∃ count, _ ∧ Current _ _ _ _ (togglesOf kind (proceed bloc.calls index none)).head?
      rw [kept]
      cases kind with
      | like => exact ⟨_, rfl, likes⟩
      | repost => exact ⟨_, rfl, reposts⟩
  · rename_i notToggle
    obtain ⟨rfl, rfl, rfl⟩ := resumed
    rw [Bool.or_false]
    refine invariant.stays rfl rfl rfl fun kind => idle ?_ rfl
    cases call with
    | toggling toggle => exact absurd rfl (notToggle toggle)
    | _ => rfl
  · cases resumed

end

end

theorem Invariant.step {seen next : Bloc × Bool} {action : Action} (invariant : Invariant seen)
    (condition : Condition seen action) (stepped : watched step observe seen action = some next) :
    Invariant next := by
  obtain ⟨bloc, fetched⟩ := seen
  obtain ⟨after, history⟩ := next
  obtain ⟨succeeded, went, recorded⟩ := watched_eq_some.mp stepped
  obtain rfl : history = (fetched || succeeded) := recorded
  cases action with
  | subscriptionRequested =>
    cases went
    rw [Bool.or_false]
    exact invariant.subscribes
  | fetchRequested =>
    cases went
    rw [Bool.or_false]
    exact invariant.fetches
  | toggled kind =>
    cases went
    rw [Bool.or_false]
    exact invariant.toggles kind
  | emitted index =>
    obtain ⟨moved, emitted, same⟩ := map_eq_some_iff.mp went
    cases same
    rw [Bool.or_false]
    exact invariant.emits emitted
  | changed kind isHeld =>
    change (if kind = .repost ∧ bloc.isAddressable = false then none
      else some (bloc.hold kind isHeld, false)) = some (after, succeeded) at went
    split at went
    · cases went
    · cases went
      rw [Bool.or_false]
      exact invariant.changed condition
  | answer index reply =>
    obtain ⟨call, present, answered⟩ := bind_eq_some_iff.mp went
    obtain ⟨⟨moved, stage, ended⟩, resumed, same⟩ := map_eq_some_iff.mp answered
    cases same
    exact invariant.resumes present (condition call present) resumed

/-- The buttons agree with the repositories whenever nothing is in progress after a fetch. -/
theorem agrees_of_fetched_run {isAddressable : Bool} {likes reposts : Holding}
    {actions : List Action}
    {final : Bloc × Bool}
    (meets : Meets (watched step observe) Condition
      (initialBloc isAddressable likes reposts, false) actions)
    (ran : run (watched step observe) (initialBloc isAddressable likes reposts, false) actions =
      some final)
    (quiet : Quiet final.1) (succeeded : final.2 = true) : Agrees final.1 := by
  have initial : Invariant (initialBloc isAddressable likes reposts, false) :=
    ⟨fun _ => ⟨none, rfl, rfl⟩, nofun, nofun⟩
  have kept := invariant_of_meets _ (fun _ _ _ invariant condition stepped =>
    invariant.step condition stepped) initial meets ran
  intro kind
  obtain ⟨count, counted, current⟩ := kept.current succeeded kind
  have idle : togglesOf kind final.1.calls = [] := by
    rw [quiet.calls]
    rfl
  rw [idle] at current
  refine ⟨?_, counted.trans (congrArg some current.count)⟩
  rcases current.isOn with same | ⟨stream, member, -, waits⟩ | published
  · exact same
  · exact absurd (quiet.streams stream member) waits
  · cases published

section

/-- A video that others liked three times and reposted once. -/
def buttonsAfter (actions : List Action) : Option (Bloc × Bool) :=
  run (watched step observe) (initialBloc true ⟨false, 3, none⟩ ⟨false, 1, none⟩, false) actions

def fetches (asked : List Kind) : List Action :=
  [.fetchRequested, .answer 0 .done, .answer 0 .done] ++
    asked.map (fun kind => .answer 0 (.counted kind)) ++ [.answer 0 .done]

def toggles (kind : Kind) : List Action :=
  .toggled kind :: List.replicate 5 (.answer 0 .done)

def interacts : List Action :=
  [.subscriptionRequested] ++ fetches [.like, .repost] ++ toggles .like ++ toggles .repost ++
    [.emitted 0, .emitted 0, .emitted 1, .emitted 1]

theorem agrees_interacts : ∃ final, buttonsAfter interacts = some final ∧ Agrees final.1 := by
  obtain ⟨final, ran, quiet, succeeded⟩ := @exists_of_any _ (buttonsAfter interacts)
    (fun final => Quiet final.1 ∧ final.2 = true) _ (by decide +kernel)
  exact ⟨final, ran, agrees_of_fetched_run (by decide +kernel) ran quiet succeeded⟩

def likesDuringFetch : List Action :=
  [.fetchRequested, .answer 0 .done, .answer 0 .done, .toggled .like, .answer 1 .done,
    .answer 1 .done,
    .answer 1 .done, .answer 1 .done, .answer 1 .done, .answer 0 (.counted .like),
    .answer 0 (.counted .repost), .answer 0 .done]

/-- The video is liked on another screen after a fetch. -/
def likesElsewhere : List Action :=
  [.subscriptionRequested] ++ fetches [.like, .repost] ++
    [.changed .like true, .emitted 0, .emitted 0, .emitted 1]

/-- A liked video is shown as not liked, interactions of others are lost, and the like of another
screen is not counted. -/
theorem buttons_disagree :
    (∃ final, buttonsAfter likesDuringFetch = some final ∧ Quiet final.1 ∧ final.2 = true ∧
      ¬Agrees final.1) ∧
    (∃ final, buttonsAfter (toggles .like ++ fetches [.repost]) = some final ∧ Quiet final.1 ∧
      final.2 = true ∧ ¬Agrees final.1) ∧
    (∃ final, buttonsAfter (toggles .repost ++ fetches [.like]) = some final ∧ Quiet final.1 ∧
      final.2 = true ∧ ¬Agrees final.1) ∧
    ∃ final, buttonsAfter likesElsewhere = some final ∧ Quiet final.1 ∧ final.2 = true ∧
      ¬Agrees final.1 := by
  exact ⟨exists_of_any _ (by decide +kernel), exists_of_any _ (by decide +kernel),
    exists_of_any _ (by decide +kernel), exists_of_any _ (by decide +kernel)⟩

end

end Divine.VideoInteractions
