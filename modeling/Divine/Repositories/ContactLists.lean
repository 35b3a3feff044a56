/-
This file shows when a follow or an unfollow keeps the rest of a contact list.
-/

import Divine.Repositories.Follow
import Mathlib.Data.List.Perm.Basic

namespace Divine.Repositories

open Edits Fallible
open NostrSdk (keyIsValid)

variable {isHexadecimal : String → Bool}

/-! ### The list that is sent -/

/-- A key that a contact can be made of. -/
@[ext]
structure ValidKey (isHexadecimal : String → Bool) where
  key : String
  valid : keyIsValid isHexadecimal key = true
  deriving DecidableEq

def ValidKey.contact (key : ValidKey isHexadecimal) : Contact isHexadecimal :=
  ⟨key.key, "", "", key.valid⟩

namespace ContactList

def ofKeys (keys : List (ValidKey isHexadecimal)) : ContactList isHexadecimal :=
  { (empty : ContactList isHexadecimal) with
    contacts := keys.map fun key => (key.key, key.contact) }

theorem toJson_ofKeys (keys : List (ValidKey isHexadecimal)) :
    (ofKeys keys).toJson = keys.map fun key => contactTag key.key := by
  change (keys.map fun key => (key.key, key.contact)).map _ ++ [] ++ [] = _
  rw [List.append_nil, List.append_nil, List.map_map]
  rfl

theorem add_ofKeys (keys : List (ValidKey isHexadecimal)) (key : ValidKey isHexadecimal) :
    (ofKeys keys).add key.contact = ofKeys (apply keys ⟨key, true⟩) := by
  have present : ((keys.map fun key => (key.key, key.contact)).any fun entry => entry.1 = key.key) =
      decide (key ∈ keys) := by
    rw [Bool.eq_iff_iff, List.any_map, List.any_eq_true, decide_eq_true_iff]
    constructor
    · rintro ⟨other, member, same⟩
      rwa [← ValidKey.ext (of_decide_eq_true same)]
    · exact fun member => ⟨key, member, decide_eq_true rfl⟩
  unfold add ofKeys apply
  congr 1
  change Dictionary.put (keys.map fun key => (key.key, key.contact)) key.key key.contact = _
  unfold Dictionary.put
  rw [present, if_pos rfl]
  by_cases member : key ∈ keys
  · rw [if_pos (decide_eq_true member), if_pos member, List.map_map]
    refine List.map_congr_left fun other _ => ?_
    by_cases same : other = key
    · rw [same]
      exact if_pos rfl
    · exact if_neg fun equal => same (ValidKey.ext equal)
  · rw [if_neg (by rw [decide_eq_true_iff]; exact member), if_neg member, List.map_append]
    rfl

end ContactList

theorem newContact_eq_ok {pubkey : String} {contact : Contact isHexadecimal} :
    newContact isHexadecimal pubkey = .ok contact ↔
      ∃ key : ValidKey isHexadecimal, key.key = pubkey ∧ key.contact = contact := by
  unfold newContact
  by_cases valid : keyIsValid isHexadecimal pubkey = true
  · rw [dif_pos valid]
    constructor
    · intro made
      exact ⟨⟨pubkey, valid⟩, rfl, Except.ok.inj made⟩
    · rintro ⟨key, rfl, rfl⟩
      rfl
  · rw [dif_neg valid]
    constructor
    · intro made
      cases made
    · rintro ⟨key, rfl, -⟩
      exact absurd key.valid valid
variable {pubkeys : List String}


theorem addContacts_eq_ok (held : List (ValidKey isHexadecimal)) {list : ContactList isHexadecimal}
    :
    (pubkeys.foldlM (fun list pubkey => do
        let contact ← newContact isHexadecimal pubkey
        return list.add contact) (ContactList.ofKeys held)) = .ok list ↔
      ∃ keys : List (ValidKey isHexadecimal), keys.map ValidKey.key = pubkeys ∧
        ContactList.ofKeys (applied held (keys.map fun key => ⟨key, true⟩)) = list := by
  induction pubkeys generalizing held with
  | nil =>
    rw [List.foldlM_nil, pure_eq_ok]
    constructor
    · intro same
      exact ⟨[], rfl, same⟩
    · rintro ⟨keys, none, same⟩
      rw [List.map_eq_nil_iff.mp none] at same
      exact same
  | cons pubkey rest ih =>
    rw [List.foldlM_cons, bind_eq_ok]
    constructor
    · rintro ⟨middle, added, remaining⟩
      obtain ⟨contact, made, added⟩ := bind_eq_ok.mp added
      obtain ⟨key, rfl, rfl⟩ := newContact_eq_ok.mp made
      rw [← pure_eq_ok.mp added, ContactList.add_ofKeys] at remaining
      obtain ⟨keys, rfl, same⟩ := (ih _).mp remaining
      exact ⟨key :: keys, rfl, same⟩
    · rintro ⟨keys, split, same⟩
      obtain ⟨key, keys, rfl, rfl, rfl⟩ := List.map_eq_cons_iff.mp split
      refine ⟨ContactList.ofKeys (apply held ⟨key, true⟩), bind_eq_ok.mpr
        ⟨key.contact, newContact_eq_ok.mpr ⟨key, rfl, rfl⟩, ?_⟩,
        (ih _).mpr ⟨keys, rfl, same⟩⟩
      rw [ContactList.add_ofKeys]
      rfl

theorem contactListOf_eq_ok {list : ContactList isHexadecimal}
    (made : contactListOf isHexadecimal pubkeys = .ok list) :
    (∀ key ∈ pubkeys, keyIsValid isHexadecimal key = true) ∧ ∃ sent : List String,
      list.toJson = sent.map contactTag ∧ sent.Nodup ∧ ∀ key, key ∈ sent ↔ key ∈ pubkeys := by
  obtain ⟨keys, rfl, rfl⟩ := (addContacts_eq_ok []).mp made
  refine ⟨?_, (applied [] (keys.map fun key => ⟨key, true⟩)).map ValidKey.key, ?_, ?_, ?_⟩
  · intro key member
    obtain ⟨key, -, rfl⟩ := List.mem_map.mp member
    exact key.valid
  · rw [ContactList.toJson_ofKeys, List.map_map]
    rfl
  · exact (nodup_applied List.nodup_nil).map fun first second same => ValidKey.ext same
  · intro key
    simp only [List.mem_map, mem_applied_present, List.not_mem_nil, false_or]

theorem contactListOf_of_valid (valid : ∀ key ∈ pubkeys, keyIsValid isHexadecimal key = true) :
    ∃ list, contactListOf isHexadecimal pubkeys = .ok list :=
  ⟨_, (addContacts_eq_ok []).mpr
    ⟨pubkeys.attach.map fun key => ⟨key.1, valid key.1 key.2⟩, by
      rw [List.map_map]
      exact List.attach_map_subtype_val pubkeys, rfl⟩⟩

namespace FollowRepository

variable {repository : FollowRepository}

def knownContent (repository : FollowRepository) : String :=
  (repository.currentUserContactListEvent.map (·.content)).getD ""

theorem contactListToSend_eq_ok {tags : List (List String)} {content : String} :
    repository.contactListToSend isHexadecimal = .ok (tags, content) ↔
      (∃ list, contactListOf isHexadecimal repository.followingPubkeys = .ok list ∧
        list.toJson = tags) ∧ repository.knownContent = content := by
  unfold contactListToSend
  rw [bind_eq_ok]
  constructor
  · rintro ⟨list, made, same⟩
    have parts := Prod.mk.inj (pure_eq_ok.mp same)
    exact ⟨⟨list, made, parts.1⟩, parts.2⟩
  · rintro ⟨⟨list, made, rfl⟩, rfl⟩
    exact ⟨list, made, rfl⟩

theorem mem_makeChange {change : Edit String} {key : String} :
    key ∈ (repository.makeChange change).followingPubkeys ↔
      key = change.key ∧ change.present = true ∨
        key ≠ change.key ∧ key ∈ repository.followingPubkeys := by
  change key ∈ (if change.present then _ else _) ↔ _
  by_cases present : change.present = true
  · rw [if_pos present, List.mem_append, List.mem_singleton]
    tauto
  · rw [if_neg present, List.mem_filter, decide_eq_true_iff]
    tauto

end FollowRepository

/-! ### What a change keeps -/

namespace ContactListEvent

variable (previous : ContactListEvent) (change : Edit String)

/-- The tags that a change is to keep: all of them, or all but the `p` tags of a key. -/
def keptTags : List (List String) :=
  if change.present then previous.tags
  else previous.tags.filter fun tag => tagValue "p" tag ≠ some change.key

def keptKeys : List String := (previous.keptTags change).filterMap (tagValue "p")

/-- The tags are those to keep and, after a follow, one `p` tag of the key, in any order. -/
def TagsChanged (tags : List (List String)) : Prop :=
  ∃ added : List (List String),
    added.map (tagValue "p") = (if change.present then [some change.key] else []) ∧
      tags.Perm (added ++ previous.keptTags change)

/-- A call succeeded, and the event it sent, if it sent one, is the previous one with the change. -/
def Kept (outcome : Except FollowException (Option ContactListEvent)) : Prop :=
  ∃ sent, outcome = .ok sent ∧ ∀ event ∈ sent,
    event.content = previous.content ∧ previous.TagsChanged change event.tags

/-- The tags to keep are bare tags of different valid keys. -/
structure Bare (isHexadecimal : String → Bool) : Prop where
  tags : ∀ tag ∈ previous.keptTags change,
    ∃ key, tag = contactTag key ∧ keyIsValid isHexadecimal key = true
  distinct : (previous.keptKeys change).Nodup

variable {previous change}

theorem keptTags_eq (bare : ∀ tag ∈ previous.keptTags change, ∃ key, tag = contactTag key) :
    previous.keptTags change = (previous.keptKeys change).map contactTag := by
  unfold keptKeys
  generalize previous.keptTags change = tags at bare
  induction tags with
  | nil => rfl
  | cons tag rest ih =>
    obtain ⟨key, rfl⟩ := bare tag List.mem_cons_self
    rw [List.filterMap_cons_some (tagValue_contactTag key), List.map_cons,
      ← ih fun other member => bare other (List.mem_cons_of_mem _ member)]

theorem filterMap_contactTag (keys : List String) :
    (keys.map contactTag).filterMap (tagValue "p") = keys := by
  rw [List.filterMap_map]
  exact List.filterMap_some

/-- Bare tags are what is to be kept exactly when that is bare and has the keys with the change. -/
theorem tagsChanged_iff {sent : List String} :
    previous.TagsChanged change (sent.map contactTag) ↔
      (∀ tag ∈ previous.keptTags change, ∃ key, tag = contactTag key) ∧
        sent.Perm ((if change.present then [change.key] else []) ++ previous.keptKeys change) := by
  constructor
  · rintro ⟨added, keys, same⟩
    constructor
    · intro tag member
      obtain ⟨key, -, rfl⟩ :=
        List.mem_map.mp (same.mem_iff.mpr (List.mem_append.mpr (.inr member)))
      exact ⟨key, rfl⟩
    · have named := same.filterMap (tagValue "p")
      have addedKeys : added.filterMap (tagValue "p") =
          if change.present then [change.key] else [] := by
        have collected : (added.map (tagValue "p")).filterMap id = added.filterMap (tagValue "p") :=
          List.filterMap_map
        rw [← collected, keys]
        split <;> rfl
      rwa [filterMap_contactTag, List.filterMap_append, addedKeys] at named
  · rintro ⟨bare, same⟩
    refine ⟨(if change.present then [change.key] else []).map contactTag, ?_, ?_⟩
    · split <;> rfl
    · rw [keptTags_eq bare, ← List.map_append]
      exact same.map contactTag

end ContactListEvent

namespace FollowRepository

/-- What is known of the previous event is right, and its tags can be sent as they are. -/
structure Intact (isHexadecimal : String → Bool) (repository : FollowRepository)
    (previous : ContactListEvent) (change : Edit String) : Prop where
  bare : previous.Bare change isHexadecimal
  content : repository.knownContent = previous.content
  listed : ∀ key, key ≠ change.key →
    (key ∈ repository.followingPubkeys ↔ key ∈ previous.keptKeys change)
  fresh : change.key ∉ previous.keptKeys change

variable {repository changed : FollowRepository} {previous : ContactListEvent}
  {change : Edit String}

theorem mem_addedKeys {key : String} :
    key ∈ (if change.present then [change.key] else []) ↔
      key = change.key ∧ change.present = true := by
  split
  · next present =>
    rw [List.mem_singleton]
    exact ⟨fun same => ⟨same, present⟩, And.left⟩
  · next absent => exact iff_of_false List.not_mem_nil fun both => absurd both.2 absent

/-- The keys that are sent are the kept ones with the change exactly when those were in memory. -/
theorem perm_iff (repository : FollowRepository) (previous : ContactListEvent) {sent : List String}
    (nodup : sent.Nodup)
    (members : ∀ key, key ∈ sent ↔ key = change.key ∧ change.present = true ∨
      key ≠ change.key ∧ key ∈ repository.followingPubkeys) :
    sent.Perm ((if change.present then [change.key] else []) ++ previous.keptKeys change) ↔
      (previous.keptKeys change).Nodup ∧ change.key ∉ previous.keptKeys change ∧
        ∀ key, key ≠ change.key →
          (key ∈ repository.followingPubkeys ↔ key ∈ previous.keptKeys change) := by
  constructor
  · intro same
    obtain ⟨-, distinct, apart⟩ := List.nodup_append.mp (same.nodup_iff.mp nodup)
    refine ⟨distinct, ?_, ?_⟩
    · intro kept
      by_cases present : change.present = true
      · exact apart _ (mem_addedKeys.mpr ⟨rfl, present⟩) _ kept rfl
      · rcases (members _).mp (same.mem_iff.mpr (List.mem_append.mpr (.inr kept))) with
          ⟨-, present'⟩ | ⟨other, -⟩
        · exact present present'
        · exact other rfl
    · intro key other
      have both := members key
      rw [same.mem_iff, List.mem_append, mem_addedKeys] at both
      tauto
  · rintro ⟨distinct, fresh, listed⟩
    refine (List.perm_ext_iff_of_nodup nodup ?_).mpr fun key => ?_
    · refine List.nodup_append.mpr ⟨?_, distinct, ?_⟩
      · split
        · exact List.nodup_singleton _
        · exact List.nodup_nil
      · rintro key added other kept rfl
        rw [(mem_addedKeys.mp added).1] at kept
        exact fresh kept
    · rw [members, List.mem_append, mem_addedKeys]
      by_cases same : key = change.key
      · rw [same]
        tauto
      · have kept := listed key same
        tauto

/-- The rest of the previous event is kept exactly when it was intact. -/
theorem kept_iff (createdAt : Nat)
    {outcome : Except FollowException (Option ContactListEvent)}
    (valid : keyIsValid isHexadecimal change.key = true)
    (members : ∀ key, key ∈ changed.followingPubkeys ↔ key = change.key ∧ change.present = true ∨
      key ≠ change.key ∧ key ∈ repository.followingPubkeys)
    (unchanged : changed.currentUserContactListEvent = repository.currentUserContactListEvent)
    (failed : ∀ exception, changed.contactListToSend isHexadecimal = .error exception →
      outcome = .error exception)
    (sends : ∀ tags content, changed.contactListToSend isHexadecimal = .ok (tags, content) →
      outcome = .ok (some ⟨createdAt, tags, content⟩)) :
    previous.Kept change outcome ↔ repository.Intact isHexadecimal previous change := by
  have sameContent : changed.knownContent = repository.knownContent := by
    unfold knownContent
    rw [unchanged]
  cases toSend : changed.contactListToSend isHexadecimal with
  | error exception =>
    rw [failed exception toSend]
    constructor
    · rintro ⟨sent, ended, -⟩
      cases ended
    · intro intact
      have keysValid : ∀ key ∈ changed.followingPubkeys, keyIsValid isHexadecimal key = true := by
        intro key member
        rcases (members key).mp member with ⟨rfl, -⟩ | ⟨other, listed⟩
        · exact valid
        · obtain ⟨tag, kept, named⟩ := List.mem_filterMap.mp ((intact.listed key other).mp listed)
          obtain ⟨named', rfl, keyValid⟩ := intact.bare.tags tag kept
          exact Option.some.inj named ▸ keyValid
      obtain ⟨list, made⟩ := contactListOf_of_valid keysValid
      have ok := contactListToSend_eq_ok.mpr ⟨⟨list, made, rfl⟩, rfl⟩
      rw [toSend] at ok
      cases ok
  | ok toSent =>
    obtain ⟨tags, content⟩ := toSent
    obtain ⟨⟨list, made, rfl⟩, rfl⟩ := contactListToSend_eq_ok.mp toSend
    obtain ⟨keysValid, sent, written, nodup, sentMembers⟩ := contactListOf_eq_ok made
    rw [sends _ _ toSend, written, sameContent]
    have permIff := perm_iff repository previous nodup fun key =>
      (sentMembers key).trans (members key)
    constructor
    · rintro ⟨sent', ended, kept⟩
      obtain rfl := Except.ok.inj ended
      obtain ⟨content, tags⟩ := kept _ rfl
      obtain ⟨bare, same⟩ := ContactListEvent.tagsChanged_iff.mp tags
      obtain ⟨distinct, fresh, listed⟩ := permIff.mp same
      refine ⟨⟨?_, distinct⟩, content, listed, fresh⟩
      intro tag member
      obtain ⟨key, rfl⟩ := bare tag member
      have keptKey : key ∈ previous.keptKeys change :=
        List.mem_filterMap.mpr ⟨_, member, tagValue_contactTag key⟩
      have other : key ≠ change.key := fun equal => fresh (equal ▸ keptKey)
      exact ⟨key, rfl, keysValid key
        ((members key).mpr (.inr ⟨other, (listed key other).mpr keptKey⟩))⟩
    · intro intact
      refine ⟨_, rfl, fun event member => ?_⟩
      cases member
      refine ⟨intact.content, ContactListEvent.tagsChanged_iff.mpr ⟨fun tag kept => ?_,
        permIff.mpr ⟨intact.bare.distinct, intact.fresh, intact.listed⟩⟩⟩
      obtain ⟨key, bare, -⟩ := intact.bare.tags tag kept
      exact ⟨key, bare⟩

/-! ### What is known of the previous event -/

theorem mem_keptKeys {key : String} (other : key ≠ change.key) :
    key ∈ previous.keptKeys change ↔ key ∈ previous.followedPubkeys := by
  unfold ContactListEvent.keptKeys ContactListEvent.followedPubkeys ContactListEvent.keptTags
  split
  · rfl
  · rw [List.mem_filterMap, List.mem_filterMap]
    refine exists_congr fun tag => and_congr_left fun named => ?_
    rw [List.mem_filter, decide_eq_true_iff, named]
    exact and_iff_left fun same => other (Option.some.inj same)

theorem intact_received (newer : repository.isNewer previous = true)
    (effective : ¬Held previous.followedPubkeys change) :
    (repository.processContactListEvent previous).Intact isHexadecimal previous change ↔
      previous.Bare change isHexadecimal := by
  unfold processContactListEvent
  rw [if_pos newer]
  refine ⟨Intact.bare, fun bare => ⟨bare, rfl, fun key other => (mem_keptKeys other).symm, ?_⟩⟩
  unfold ContactListEvent.keptKeys ContactListEvent.keptTags
  by_cases present : change.present = true
  · rw [if_pos present]
    exact fun member => effective (iff_of_true member present)
  · rw [if_neg present, List.mem_filterMap]
    rintro ⟨tag, kept, named⟩
    exact of_decide_eq_true (List.mem_filter.mp kept).2 named

/-! ### Changes -/

/-- An accepted follow or unfollow keeps the rest of the contact list exactly when it sends none, or
that list was intact. -/
theorem change_keeps_iff (isHexadecimal : String → Bool) (repository : FollowRepository)
    (previous : ContactListEvent) (change : Edit String) (offline : Bool) (createdAt : Nat)
    (authenticated : repository.publicKey ≠ "")
    (valid : keyIsValid isHexadecimal change.key = true) :
    (previous.Kept change
        (repository.changeFollow isHexadecimal change offline (some createdAt)).2 ↔
      (offline = false → change.key ≠ repository.publicKey →
        ¬Held repository.followingPubkeys change →
          repository.Intact isHexadecimal previous change)) ∧
    (previous.Kept change (repository.executeChange isHexadecimal change (some createdAt)).2 ↔
      repository.Intact isHexadecimal previous change) := by
  have nothingSent : previous.Kept change (.ok none) := ⟨none, rfl, nofun⟩
  constructor
  · unfold changeFollow checkChange
    rw [if_neg authenticated]
    by_cases own : change.key = repository.publicKey
    · rw [if_pos own]
      exact iff_of_true nothingSent fun _ other => absurd own other
    rw [if_neg own]
    by_cases held : Held repository.followingPubkeys change
    · rw [contains_eq_iff.mpr held]
      exact iff_of_true nothingSent fun _ _ absent => absurd held absent
    rw [Bool.eq_false_iff.mpr fun same => held (contains_eq_iff.mp same)]
    cases offline with
    | true => exact iff_of_true nothingSent nofun
    | false =>
      refine (kept_iff createdAt valid (fun _ => mem_makeChange) rfl ?_ ?_).trans
        ⟨fun intact _ _ _ => intact, fun intact => intact rfl own held⟩
      · intro exception failed
        dsimp only
        rw [failed]
        rfl
      · intro tags content toSend
        dsimp only
        rw [toSend]
        rfl
  · unfold executeChange
    rw [if_neg authenticated]
    by_cases held : Held repository.followingPubkeys change
    · rw [contains_eq_iff.mpr held, if_pos rfl]
      have members : ∀ key, key ∈ repository.followingPubkeys ↔
          key = change.key ∧ change.present = true ∨
            key ≠ change.key ∧ key ∈ repository.followingPubkeys := by
        intro key
        by_cases same : key = change.key
        · rw [same]
          have held' : change.key ∈ repository.followingPubkeys ↔ change.present = true := held
          tauto
        · tauto
      refine kept_iff createdAt valid members rfl ?_ ?_
      · intro exception failed
        dsimp only
        rw [failed]
      · intro tags content toSend
        dsimp only
        rw [toSend]
    · rw [Bool.eq_false_iff.mpr fun same => held (contains_eq_iff.mp same),
        if_neg Bool.false_ne_true]
      refine kept_iff createdAt valid (fun _ => mem_makeChange) rfl ?_ ?_
      · intro exception failed
        dsimp only
        rw [failed]
      · intro tags content toSend
        dsimp only
        rw [toSend]

def hexadecimal (key : String) : Bool :=
  !key.isEmpty && key.toList.all fun char => "0123456789abcdefABCDEF".toList.contains char

def sampleKey (digit : Char) : String := String.ofList (List.replicate 64 digit)

def newRepository : FollowRepository where
  publicKey := sampleKey 'a'
  followingPubkeys := []
  currentUserContactListEvent := none
  localStorage := none

def bareEvent : ContactListEvent where
  createdAt := 1
  tags := [contactTag (sampleKey 'b')]
  content := "relays"

/-- A bare contact list is kept by a follow. -/
theorem change_keeps_iff_sample :
    bareEvent.Kept ⟨sampleKey 'c', true⟩
      ((newRepository.processContactListEvent bareEvent).follow hexadecimal (sampleKey 'c') false
        (some 2)).2 := by
  have bare : bareEvent.Bare ⟨sampleKey 'c', true⟩ hexadecimal := by
    refine ⟨fun tag member => ⟨sampleKey 'b', List.mem_singleton.mp member, by decide +kernel⟩, ?_⟩
    exact List.nodup_singleton (sampleKey 'b')
  exact (change_keeps_iff hexadecimal (newRepository.processContactListEvent bareEvent) bareEvent
    ⟨sampleKey 'c', true⟩ false 2 (by decide +kernel) (by decide +kernel)).1.mpr
      fun _ _ _ => (intact_received rfl (by decide +kernel)).mpr bare

def annotatedEvent : ContactListEvent where
  createdAt := 1
  tags := [["p", sampleKey 'b', "wss://relay", "bob"], ["t", "dogs"]]
  content := "relays"

/-- A follow drops them. -/
theorem follow_drops_tags :
    (∃ after, (newRepository.processContactListEvent annotatedEvent).follow hexadecimal
        (sampleKey 'c') false (some 2) =
      (after, .ok (some ⟨2, [contactTag (sampleKey 'b'), contactTag (sampleKey 'c')], "relays"⟩))) ∧
    ¬annotatedEvent.Kept ⟨sampleKey 'c', true⟩
      ((newRepository.processContactListEvent annotatedEvent).follow hexadecimal (sampleKey 'c')
        false (some 2)).2 := by
  have ended : ((newRepository.processContactListEvent annotatedEvent).follow hexadecimal
      (sampleKey 'c') false (some 2)).2 =
        .ok (some ⟨2, [contactTag (sampleKey 'b'), contactTag (sampleKey 'c')], "relays"⟩) := by
    rfl
  refine ⟨⟨_, Prod.ext rfl ended⟩, ?_⟩
  rintro ⟨sent, same, kept⟩
  obtain rfl := Except.ok.inj same
  obtain ⟨added, keys, perm⟩ := (kept _ rfl).2
  have one : added.length = 1 := by
    rw [← List.length_map (tagValue "p"), keys]
    rfl
  have lengths := perm.length_eq
  rw [List.length_append, one] at lengths
  exact absurd lengths (by decide)

end FollowRepository

end Divine.Repositories
