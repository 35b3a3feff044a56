/-
This file proves when a mute takes effect and lasts.
-/

import Divine.MuteService.Preservation
import Mathlib

namespace Divine.MuteService

open Observer Transition

/-! ### Checks -/

section

variable (toLowerCase : String → String)

/-- A hashtag without the sign it begins with, in lower case. -/
def normalizedHashtag (hashtag : String) : String :=
  toLowerCase (match hashtag.toList with
    | '#' :: rest => String.ofList rest
    | _ => hashtag)

/-- The spelling that the calls for a type store and look for. -/
def normalized : MuteType → String → String
  | .user, pubkey => pubkey
  | .hashtag, hashtag => normalizedHashtag toLowerCase hashtag
  | .keyword, keyword => toLowerCase keyword
  | .thread, eventId => eventId

variable (state : State)

def State.unexpired : List MuteItem := state.mutedItems.filter fun item => !item.isExpired state.now

def isItemMuted (type : MuteType) (value : String) : Bool :=
  state.unexpired.any fun item => item.type = type && item.value = value

def isMuted (type : MuteType) (value : String) : Bool :=
  isItemMuted state type (normalized toLowerCase type value)

/-- What is asked about some content. -/
structure Post where
  authorPubkey : Option String := none
  content : Option String := none
  hashtags : Option (List String) := none
  eventId : Option String := none
  rootEventId : Option String := none

def shouldFilterContent (post : Post) : Bool :=
  post.authorPubkey.any (isMuted toLowerCase state .user) ||
    post.eventId.any (isMuted toLowerCase state .thread) ||
    post.rootEventId.any (isMuted toLowerCase state .thread) ||
    post.hashtags.any (fun hashtags => hashtags.any (isMuted toLowerCase state .hashtag)) ||
    post.content.any fun content =>
      (state.unexpired.filter fun item => item.type = .keyword).any fun item =>
        item.value.toList <:+: (toLowerCase content).toList

def Post.Matches (post : Post) (value : String) : MuteType → Prop
  | .user => post.authorPubkey = some value
  | .thread => post.eventId = some value ∨ post.rootEventId = some value
  | .hashtag => ∃ hashtags ∈ post.hashtags, ∃ hashtag ∈ hashtags,
      normalized toLowerCase .hashtag hashtag = value
  | .keyword => ∃ content ∈ post.content, value.toList <:+: (toLowerCase content).toList

end

/-! ### Commands -/

/-- What is asked of the service: the calls for a type, those that take a value, and the others; and
time goes on. -/
inductive Command where
  | mute (type : MuteType) (value : String) (reason : Option String) (duration : Option Int)
      (accepted : Bool)
  | unmute (type : MuteType) (value : String) (accepted : Bool)
  | muteItem (type : MuteType) (value : String) (reason : Option String) (duration : Option Int)
      (accepted : Bool)
  | unmuteItem (type : MuteType) (value : String) (accepted : Bool)
  | importMuteList (items : List MuteItem) (accepted : Bool)
  | clearAllMutes (accepted : Bool)
  | cleanupExpiredMutes
  | elapsed (time : Nat)

section

variable (toLowerCase : String → String)

def Command.action : Command → Action
  | .mute type value reason duration accepted =>
      .muteItem type (normalized toLowerCase type value) reason duration accepted
  | .unmute type value accepted => .unmuteItem type (normalized toLowerCase type value) accepted
  | .muteItem type value reason duration accepted => .muteItem type value reason duration accepted
  | .unmuteItem type value accepted => .unmuteItem type value accepted
  | .importMuteList items accepted => .importMuteList items accepted
  | .clearAllMutes accepted => .clearAllMutes accepted
  | .cleanupExpiredMutes => .cleanupExpiredMutes
  | .elapsed time => .elapsed time

def commandStep (state : State) (command : Command) : Option (State × Option MuteList) :=
  step state (command.action toLowerCase)

def MuteItem.normalized (item : MuteItem) : MuteItem :=
  { item with value := MuteService.normalized toLowerCase item.type item.value }

/-- What was muted since it was last unmuted or cleared, and unmuted since it was last muted. -/
structure Wishes where
  muted : List MuteItem
  unmuted : List MuteItem

namespace Wishes

def mute (wishes : Wishes) (item : MuteItem) : Wishes where
  muted := item :: wishes.muted
  unmuted := wishes.unmuted.filter fun other => !other.equals item

def unmute (wishes : Wishes) (item : MuteItem) : Wishes where
  muted := wishes.muted.filter fun other => !other.equals item
  unmuted := item :: wishes.unmuted

end Wishes

/-- What the user wants after a command. To unmute returns whether the item was in the list. -/
def observeWishes : Observe State Command (Option MuteList) Wishes :=
  fun wishes before command _ _ =>
    let wished := fun type value => before.item type (normalized toLowerCase type value)
    match command with
    | .mute type value reason duration _ | .muteItem type value reason duration _ =>
        wishes.mute (wished type value reason duration)
    | .importMuteList items _ =>
        items.foldl (fun wishes item => wishes.mute (item.normalized toLowerCase)) wishes
    | .unmute type value _ =>
        if contains before.mutedItems (wished type value none none) then
          wishes.unmute (wished type value none none)
        else wishes
    | .unmuteItem type value _ =>
        if contains before.mutedItems (before.item type value none none) then
          wishes.unmute (wished type value none none)
        else wishes
    | .clearAllMutes _ => { wishes with muted := [] }
    | .cleanupExpiredMutes | .elapsed _ => wishes

def served : State × Wishes → Command → Option (State × Wishes) :=
  watched (commandStep toLowerCase) (observeWishes toLowerCase)

/-- What the user has muted is muted in every spelling until its end, and what was unmuted is not.
-/
structure Lasts (seen : State × Wishes) : Prop where
  reported : ∀ item ∈ seen.2.muted, item.isExpired seen.1.now = false →
    ∀ value, normalized toLowerCase item.type value = item.value →
      isMuted toLowerCase seen.1 item.type value = true
  filtered : ∀ item ∈ seen.2.muted, item.isExpired seen.1.now = false →
    ∀ post : Post, post.Matches toLowerCase item.value item.type →
      shouldFilterContent toLowerCase seen.1 post = true
  unmuted : ∀ item ∈ seen.2.unmuted,
    ∀ value, normalized toLowerCase item.type value = item.value →
      isMuted toLowerCase seen.1 item.type value = false

/-! ### The condition -/

def MuteItem.Outlasts (item other : MuteItem) : Prop :=
  ∀ ends, item.expireAt = some ends → ∃ earlier, other.expireAt = some earlier ∧ earlier ≤ ends

/-- No equal item in the list ends earlier than one that is muted, unless that one is over. -/
def Longest (now : Int) (mutedItems : List MuteItem) (item : MuteItem) : Prop :=
  item.isExpired now = true ∨ ∀ other ∈ mutedItems, other.equals item = true → other.Outlasts item

/-- Every item that is imported has the spelling of the checks, and is the longest in its turn. -/
def ImportFits (now : Int) : List MuteItem → List MuteItem → Prop
  | _, [] => True
  | mutedItems, item :: rest =>
      normalized toLowerCase item.type item.value = item.value ∧ Longest now mutedItems item ∧
        ImportFits now (add mutedItems item) rest

def Fitting (seen : State × Wishes) : Command → Prop
  | .mute type value reason duration _ =>
      Longest seen.1.now seen.1.mutedItems
        (seen.1.item type (normalized toLowerCase type value) reason duration)
  | .muteItem type value reason duration _ =>
      normalized toLowerCase type value = value ∧
        Longest seen.1.now seen.1.mutedItems (seen.1.item type value reason duration)
  | .unmuteItem type value _ => normalized toLowerCase type value = value
  | .importMuteList items _ => ImportFits toLowerCase seen.1.now seen.1.mutedItems items
  | _ => True

end

/-! ### Items -/

section

variable {item other : MuteItem} {now : Int}

theorem key_eq_iff : other.key = item.key ↔ other.type = item.type ∧ other.value = item.value := by
  rw [← equals_iff]
  unfold MuteItem.equals
  rw [decide_eq_true_iff]
  exact and_congr eq_comm eq_comm

theorem equals_eq_false_iff : (!other.equals item) = true ↔ other.key ≠ item.key := by
  rw [Bool.not_eq_true', ← Bool.not_eq_true, equals_iff]

theorem MuteItem.Outlasts.refl (item : MuteItem) : item.Outlasts item := fun ends same =>
  ⟨ends, same, Int.le_refl ends⟩

theorem MuteItem.Outlasts.isExpired (outlasts : other.Outlasts item)
    (notOver : item.isExpired now = false) : other.isExpired now = false := by
  unfold MuteItem.isExpired at notOver ⊢
  cases held : other.expireAt with
  | none => rfl
  | some ends =>
    obtain ⟨earlier, same, le⟩ := outlasts ends held
    rw [same] at notOver
    have notBefore := of_decide_eq_false notOver
    exact decide_eq_false (by omega)

theorem isExpired_later {later : Int} (ended : item.isExpired now = true) (le : now ≤ later) :
    item.isExpired later = true := by
  unfold MuteItem.isExpired at ended ⊢
  obtain ⟨ends, held, before⟩ := (Option.any_eq_true _ _).mp ended
  rw [held]
  have before := of_decide_eq_true before
  exact decide_eq_true (by omega)

end

/-! ### The invariant -/

structure Kept (now : Int) (mutedItems : List MuteItem) (wishes : Wishes) : Prop where
  nodup : (mutedItems.map MuteItem.key).Nodup
  muted : ∀ item ∈ wishes.muted, item.isExpired now = true ∨
    ∃ other ∈ mutedItems, other.key = item.key ∧ other.Outlasts item
  unmuted : ∀ item ∈ wishes.unmuted, ∀ other ∈ mutedItems, other.key ≠ item.key

section

variable {toLowerCase : String → String} {now : Int} {mutedItems : List MuteItem} {wishes : Wishes}
  {item : MuteItem}

theorem mem_add_of_mem {other : MuteItem} (member : other ∈ mutedItems) (item : MuteItem) :
    other ∈ add mutedItems item := by
  unfold add
  split
  · exact member
  · exact List.mem_append_left _ member

theorem Kept.add (kept : Kept now mutedItems wishes) (longest : Longest now mutedItems item) :
    Kept now (add mutedItems item) (wishes.mute item) where
  nodup := nodup_add kept.nodup
  muted muted member := by
    rcases List.mem_cons.mp member with rfl | before
    · by_cases present : contains mutedItems muted = true
      · obtain ⟨other, old, same⟩ := contains_iff.mp present
        exact longest.imp_right fun outlast =>
          ⟨other, mem_add_of_mem old muted, same, outlast other old (equals_iff.mpr same)⟩
      · refine .inr ⟨muted, ?_, rfl, .refl muted⟩
        unfold MuteService.add
        rw [if_neg present]
        exact List.mem_append_right _ List.mem_cons_self
    · refine (kept.muted muted before).imp_right fun held => ?_
      obtain ⟨other, old, same, outlasts⟩ := held
      exact ⟨other, mem_add_of_mem old item, same, outlasts⟩
  unmuted unmuted member other present := by
    obtain ⟨before, differs⟩ := List.mem_filter.mp member
    unfold MuteService.add at present
    split at present
    · exact kept.unmuted unmuted before other present
    · rcases List.mem_append.mp present with old | own
      · exact kept.unmuted unmuted before other old
      · obtain rfl := List.mem_singleton.mp own
        exact (equals_eq_false_iff.mp differs).symm

theorem Kept.remove (kept : Kept now mutedItems wishes) (item : MuteItem) :
    Kept now (remove mutedItems item) (wishes.unmute item) where
  nodup := nodup_remove kept.nodup
  muted muted member := by
    obtain ⟨before, differs⟩ := List.mem_filter.mp member
    refine (kept.muted muted before).imp_right fun held => ?_
    obtain ⟨other, old, same, outlasts⟩ := held
    refine ⟨other, (mem_remove kept.nodup other).mpr ⟨old, ?_⟩, same, outlasts⟩
    exact same ▸ equals_eq_false_iff.mp differs
  unmuted unmuted member other present := by
    obtain ⟨old, differs⟩ := (mem_remove kept.nodup other).mp present
    rcases List.mem_cons.mp member with rfl | before
    · exact differs
    · exact kept.unmuted unmuted before other old

theorem Kept.cleanup (kept : Kept now mutedItems wishes) :
    Kept now (mutedItems.filter fun item => !item.isExpired now) wishes where
  nodup := kept.nodup.sublist (List.filter_sublist.map _)
  muted item member := by
    by_cases ended : item.isExpired now = true
    · exact .inl ended
    · obtain ⟨other, old, same, outlasts⟩ := (kept.muted item member).resolve_left ended
      refine .inr ⟨other, List.mem_filter.mpr ⟨old, ?_⟩, same, outlasts⟩
      rw [outlasts.isExpired (Bool.eq_false_iff.mpr ended)]
      rfl
  unmuted item member other present :=
    kept.unmuted item member other (List.mem_of_mem_filter present)

theorem kept_cleared (now : Int) (wishes : Wishes) : Kept now [] { wishes with muted := [] } where
  nodup := List.nodup_nil
  muted _ member := absurd member List.not_mem_nil
  unmuted _ _ _ present := absurd present List.not_mem_nil

theorem Kept.later (kept : Kept now mutedItems wishes) (time : Nat) :
    Kept (now + time) mutedItems wishes where
  nodup := kept.nodup
  muted item member := (kept.muted item member).imp_left fun ended =>
    isExpired_later ended (by omega)
  unmuted := kept.unmuted

theorem normalized_eq_self (spelled : normalized toLowerCase item.type item.value = item.value) :
    item.normalized toLowerCase = item := by
  unfold MuteItem.normalized
  rw [spelled]

theorem Kept.importMuteList {items : List MuteItem} (kept : Kept now mutedItems wishes)
    (fits : ImportFits toLowerCase now mutedItems items) :
    Kept now (items.foldl MuteService.add mutedItems)
      (items.foldl (fun wishes item => wishes.mute (item.normalized toLowerCase)) wishes) := by
  induction items generalizing mutedItems wishes with
  | nil => exact kept
  | cons item rest ih =>
    obtain ⟨spelled, longest, fitsRest⟩ := fits
    rw [List.foldl_cons, List.foldl_cons, normalized_eq_self spelled]
    exact ih (kept.add longest) fitsRest

theorem Kept.step {seen next : State × Wishes} {command : Command}
    (kept : Kept seen.1.now seen.1.mutedItems seen.2) (fitting : Fitting toLowerCase seen command)
    (stepped : served toLowerCase seen command = some next) :
    Kept next.1.now next.1.mutedItems next.2 := by
  obtain ⟨state, wishes⟩ := seen
  obtain ⟨after, wished⟩ := next
  obtain ⟨list, acted, recorded⟩ := watched_eq_some.mp stepped
  rw [recorded]
  -- What the two calls that mute, and the two that unmute, do alike.
  have mutes : ∀ {item accepted}, Longest state.now state.mutedItems item →
      (if contains state.mutedItems item then some (state, none)
        else some (state.publish (state.mutedItems ++ [item]) accepted)) = some (after, list) →
      Kept after.now after.mutedItems (wishes.mute item) := by
    intro item accepted longest acted
    have added := kept.add longest
    unfold MuteService.add at added
    split at acted
    · rename_i present
      cases acted
      rwa [if_pos present] at added
    · rename_i absent
      cases acted
      rwa [if_neg absent] at added
  have unmutes : ∀ {item accepted}, (if contains state.mutedItems item then
        some (state.publish (MuteService.remove state.mutedItems item) accepted)
      else some (state, none)) = some (after, list) →
      Kept after.now after.mutedItems
        (if contains state.mutedItems item then wishes.unmute item else wishes) := by
    intro item accepted acted
    split at acted
    · rename_i present
      cases acted
      rw [if_pos present]
      exact kept.remove item
    · rename_i absent
      cases acted
      rw [if_neg absent]
      exact kept
  cases command with
  | mute type value reason duration accepted => exact mutes fitting acted
  | unmute type value accepted => exact unmutes acted
  | muteItem type value reason duration accepted =>
    obtain ⟨spelled, longest⟩ := fitting
    show Kept _ _
      (wishes.mute (state.item type (normalized toLowerCase type value) reason duration))
    rw [spelled]
    exact mutes longest acted
  | unmuteItem type value accepted =>
    have spelled : normalized toLowerCase type value = value := fitting
    show Kept _ _ (if _ then wishes.unmute (state.item type (normalized toLowerCase type value) none
      none) else wishes)
    rw [spelled]
    exact unmutes acted
  | importMuteList items accepted =>
    have imported := kept.importMuteList fitting
    have acted : (if items.foldl MuteService.add state.mutedItems = state.mutedItems then
        some (state, none)
      else some (state.publish (items.foldl MuteService.add state.mutedItems) accepted)) =
        some (after, list) := acted
    split at acted
    · rename_i same
      cases acted
      rwa [same] at imported
    · cases acted
      exact imported
  | clearAllMutes accepted =>
    cases acted
    exact kept_cleared _ _
  | cleanupExpiredMutes =>
    cases acted
    exact kept.cleanup
  | elapsed time =>
    cases acted
    exact kept.later time

/-! ### What the checks report -/

theorem isItemMuted_iff {state : State} {type : MuteType} {value : String} :
    isItemMuted state type value = true ↔
      ∃ item ∈ state.mutedItems, item.isExpired state.now = false ∧ item.type = type ∧
        item.value = value := by
  unfold isItemMuted State.unexpired
  simp only [List.any_eq_true, List.mem_filter, Bool.not_eq_true', Bool.and_eq_true,
    decide_eq_true_eq, and_assoc]

theorem Kept.isItemMuted {state : State} (kept : Kept state.now state.mutedItems wishes)
    (member : item ∈ wishes.muted) (notOver : item.isExpired state.now = false) :
    isItemMuted state item.type item.value = true := by
  obtain ⟨other, present, same, outlasts⟩ := (kept.muted item member).resolve_left
    (Bool.eq_false_iff.mp notOver)
  obtain ⟨sameType, sameValue⟩ := key_eq_iff.mp same
  exact isItemMuted_iff.mpr ⟨other, present, outlasts.isExpired notOver, sameType, sameValue⟩

theorem shouldFilterContent_of_matches {state : State} {type : MuteType}
    {value : String} {post : Post}
    (muted : MuteService.isItemMuted state type value = true)
    (isAbout : post.Matches toLowerCase value type) :
    shouldFilterContent toLowerCase state post = true := by
  unfold shouldFilterContent
  simp only [Bool.or_eq_true, or_assoc]
  cases type with
  | user =>
    refine .inl ?_
    rw [show post.authorPubkey = some value from isAbout]
    exact muted
  | thread =>
    rcases isAbout with isEvent | isRoot
    · refine .inr (.inl ?_)
      rw [isEvent]
      exact muted
    · refine .inr (.inr (.inl ?_))
      rw [isRoot]
      exact muted
  | hashtag =>
    obtain ⟨hashtags, given, hashtag, member, same⟩ := isAbout
    refine .inr (.inr (.inr (.inl ?_)))
    rw [Option.mem_def.mp given]
    refine List.any_eq_true.mpr ⟨hashtag, member, ?_⟩
    unfold isMuted
    rwa [same]
  | keyword =>
    obtain ⟨content, given, inside⟩ := isAbout
    obtain ⟨item, present, notOver, isKeyword, same⟩ := isItemMuted_iff.mp muted
    refine .inr (.inr (.inr (.inr ?_)))
    rw [Option.mem_def.mp given]
    refine List.any_eq_true.mpr ⟨item, List.mem_filter.mpr ⟨List.mem_filter.mpr ⟨present, ?_⟩,
      decide_eq_true isKeyword⟩, decide_eq_true (same ▸ inside)⟩
    rw [notOver]
    rfl

theorem Kept.lasts {seen : State × Wishes} (kept : Kept seen.1.now seen.1.mutedItems seen.2) :
    Lasts toLowerCase seen where
  reported item member notOver value same := by
    unfold isMuted
    rw [same]
    exact kept.isItemMuted member notOver
  filtered item member notOver post isAbout :=
    shouldFilterContent_of_matches (kept.isItemMuted member notOver) isAbout
  unmuted item member value same := by
    unfold isMuted
    rw [same]
    refine Bool.eq_false_iff.mpr fun muted => ?_
    obtain ⟨other, present, -, sameType, sameValue⟩ := isItemMuted_iff.mp muted
    exact kept.unmuted item member other present (key_eq_iff.mpr ⟨sameType, sameValue⟩)

end

/-! ### Runs -/

/-- From a list without equal items on, mutes last when the commands meet the condition. -/
theorem lasts_of_run {toLowerCase : String → String} {state : State} {commands : List Command}
    {final : State × Wishes} (nodup : (state.mutedItems.map MuteItem.key).Nodup)
    (meets : Meets (served toLowerCase) (Fitting toLowerCase) (state, ⟨state.mutedItems, []⟩)
      commands)
    (ran : run (served toLowerCase) (state, ⟨state.mutedItems, []⟩) commands = some final) :
    Lasts toLowerCase final := by
  have initial : Kept state.now state.mutedItems ⟨state.mutedItems, []⟩ :=
    { nodup := nodup
      muted := fun item member => .inr ⟨item, member, rfl, .refl item⟩
      unmuted := nofun }
  exact Kept.lasts (@invariant_of_meets _ _ (served toLowerCase) (Fitting toLowerCase)
    (fun seen => Kept seen.1.now seen.1.mutedItems seen.2)
    (fun _ _ _ kept fitting stepped => Kept.step kept fitting stepped) _ _ _ initial meets ran)

section

/-- What the user has made of a new service, with lower case as in ASCII. -/
def afterCommands (commands : List Command) : Option (State × Wishes) :=
  run (served String.toLower) (initialState, ⟨initialState.mutedItems, []⟩) commands

theorem lasts_of_run_sample : ∃ final,
    afterCommands [.mute .hashtag "#Foo" none (some 10) true, .elapsed 10] = some final ∧
      Lasts String.toLower final := by
  have meets : Meets (served String.toLower) (Fitting String.toLower)
      (initialState, ⟨initialState.mutedItems, []⟩)
      [.mute .hashtag "#Foo" none (some 10) true, .elapsed 10] :=
    ⟨.inr nofun, fun _ _ => ⟨trivial, fun _ _ => trivial⟩⟩
  exact exists_of_isSome rfl fun _ ran => lasts_of_run (by decide) meets ran

/-- A keyword is muted again before and after its mute expired; a hashtag comes with its sign. -/
def lostMutes : List (List Command) :=
  [[.mute .keyword "Spam" none (some 10) true, .elapsed 11, .mute .keyword "Spam" none none true],
    [.mute .keyword "Spam" none (some 10) true, .mute .keyword "Spam" none none true, .elapsed 11],
    [.importMuteList [⟨.hashtag, "#Spam", none, 0, none⟩] true]]

def isLost (value : String) (seen : State × Wishes) : Bool :=
  seen.2.muted.any fun item =>
    !item.isExpired seen.1.now && normalized String.toLower item.type value = item.value &&
      !isMuted String.toLower seen.1 item.type value

theorem not_lasts_of_isLost {value : String} {seen : State × Wishes}
    (lost : isLost value seen = true) :
    ¬ Lasts String.toLower seen := by
  intro lasts
  obtain ⟨item, member, both⟩ := List.any_eq_true.mp lost
  obtain ⟨before, unreported⟩ := Bool.and_eq_true_iff.mp both
  obtain ⟨notOver, same⟩ := Bool.and_eq_true_iff.mp before
  rw [Bool.not_eq_true'] at notOver unreported
  have reported := lasts.reported item member notOver value (of_decide_eq_true same)
  cases unreported.symm.trans reported

theorem lostMutes_not_lasts : lostMutes.Forall fun commands =>
    ∃ final, afterCommands commands = some final ∧ ¬ Lasts String.toLower final := by
  refine List.forall_iff_forall_mem.mpr fun commands member => ?_
  have lost : ∃ final, afterCommands commands = some final ∧ isLost "Spam" final = true := by
    refine exists_of_any _ ?_
    revert commands
    decide +kernel
  obtain ⟨final, ran, isLost⟩ := lost
  exact ⟨final, ran, not_lasts_of_isLost isLost⟩

end

end Divine.MuteService
