/-
This file models the two NIP-05 endpoints of the edge worker, the query of the apex and
the request of a subdomain, with the host parser between them.
-/

import Mathlib.Data.List.Infix

namespace Divine.ComputeJs

abbrev Text := List Char

/-! ### The names store -/

/-- A record of the store `divine-names`, with the fields that are read. -/
structure NameRecord where
  status : Option Text
  pubkey : Option Text
  relays : Option (List Text)
  deriving DecidableEq

/-- The entry of a key and what `JSON.parse` makes of it, `none` when it throws. -/
abbrev NamesStore := Text → Option (Option NameRecord)

def userKey (name : Text) : Text := "user:".toList ++ name

def NameRecord.active (userData : NameRecord) : Bool := userData.status = some "active".toList

/-! ### Hosts -/

def apexDomains : List Text := ["dvine.video".toList, "divine.video".toList]

def reservedSubdomains : List Text := ["www".toList, "admin".toList, "api".toList]

/-- `getSubdomain`, over the apex domains that are left to try. -/
def getSubdomain (toLowerCase : Text → Text) (hostname : Text) : List Text → Option Text
  | [] => none
  | apex :: rest =>
      if hostname = apex then none
      else if ('.' :: apex).isSuffixOf hostname then
        let subdomain := hostname.take (hostname.length - (apex.length + 1))
        if subdomain ∈ reservedSubdomains then none
        else if '.' ∈ subdomain then none
        else some (toLowerCase subdomain)
      else getSubdomain toLowerCase hostname rest

/-! ### The endpoints -/

/-- A response of an endpoint. In the JSON a name without a public key is left out. -/
inductive Nip05Response where
  | json (names : List (Text × Text)) (relays : List (Text × List Text))
  | failure (status : Nat)
  | redirect (hostname : Text)
  deriving DecidableEq

namespace NameRecord

variable (userData : NameRecord)

/-- The response that maps a name to the public key of a record. -/
def response (name : Text) : Nip05Response :=
  .json (userData.pubkey.toList.map fun pubkey => (name, pubkey))
    (match userData.relays with
      | some (relay :: relays) => [(userData.pubkey.getD "undefined".toList, relay :: relays)]
      | _ => [])

end NameRecord

section Endpoints

variable (toLowerCase : Text → Text) (store : NamesStore)

def handleNip05 (name : Option Text) : Nip05Response :=
  match name with
  | none | some [] => .failure 400
  | some name =>
      match store (userKey (toLowerCase name)) with
      | none => .json [] []
      | some none => .failure 500
      | some (some userData) => userData.response (toLowerCase name)

def handleSubdomainNip05 (subdomain : Text) : Option Nip05Response :=
  match store (userKey subdomain) with
  | none => some (.failure 404)
  | some none => none
  | some (some userData) =>
      if userData.active then some (userData.response ['_']) else some (.failure 404)

/-- `handleRequest` for the path `/.well-known/nostr.json`. -/
def handleRequest (hostname : Text) (name : Option Text) : Nip05Response :=
  if "www.".toList.isPrefixOf hostname then .redirect (hostname.drop 4)
  else
    match getSubdomain toLowerCase hostname apexDomains with
    | none | some [] => handleNip05 toLowerCase store name
    | some subdomain => (handleSubdomainNip05 store subdomain).getD (.failure 500)

end Endpoints

/-- The public key and the relays that a response gives a name. -/
def Nip05Response.resolve (name : Text) : Nip05Response → Option (Text × List Text)
  | .json names relays =>
      (names.lookup name).map fun pubkey => (pubkey, (relays.lookup pubkey).getD [])
  | _ => none

/-! ### Agreement -/

section Agreement

variable {toLowerCase : Text → Text} {store : NamesStore} {name label apex : Text}

theorem resolve_response (userData : NameRecord) (name : Text) :
    (userData.response name).resolve name =
      userData.pubkey.map fun pubkey => (pubkey, userData.relays.getD []) := by
  obtain ⟨status, pubkey, relays⟩ := userData
  cases pubkey with
  | none => cases relays with
    | none => rfl
    | some relays => cases relays <;> rfl
  | some pubkey =>
    cases relays with
    | none => simp [NameRecord.response, Nip05Response.resolve]
    | some relays => cases relays <;> simp [NameRecord.response, Nip05Response.resolve]

theorem getSubdomain_label (single : '.' ∉ label) (allowed : label ∉ reservedSubdomains)
    (isApex : apex ∈ apexDomains) :
    getSubdomain toLowerCase (label ++ '.' :: apex) apexDomains = some (toLowerCase label) := by
  have taken : (label ++ '.' :: apex).take ((label ++ '.' :: apex).length - (apex.length + 1)) =
      label := by simp
  have found : ∀ rest, getSubdomain toLowerCase (label ++ '.' :: apex) (apex :: rest) =
      some (toLowerCase label) := fun rest => by
    have differs : label ++ '.' :: apex ≠ apex := fun same => by
      have longer := congrArg List.length same
      simp only [List.length_append, List.length_cons] at longer
      omega
    have suffix : ('.' :: apex).isSuffixOf (label ++ '.' :: apex) = true :=
      List.isSuffixOf_iff_suffix.mpr (List.suffix_append _ _)
    unfold getSubdomain
    rw [if_neg differs, if_pos suffix, taken, if_neg allowed, if_neg single]
  obtain rfl | rfl : apex = "dvine.video".toList ∨ apex = "divine.video".toList := by
    simpa [apexDomains] using isApex
  · exact found _
  · -- the first apex is no suffix: it would be the second with another first letter
    have differs : label ++ '.' :: "divine.video".toList ≠ "dvine.video".toList := fun same => by
      have longer := congrArg List.length same
      rw [List.length_append] at longer
      have lengths : "divine.video".toList.length = 12 ∧ "dvine.video".toList.length = 11 := by
        decide
      simp only [List.length_cons] at longer
      omega
    have other : ('.' :: "dvine.video".toList).isSuffixOf
        (label ++ '.' :: "divine.video".toList) = false := by
      refine Bool.eq_false_iff.mpr fun suffix => ?_
      have shorter : '.' :: "dvine.video".toList <:+ "divine.video".toList :=
        List.suffix_of_suffix_length_le (List.isSuffixOf_iff_suffix.mp suffix)
          ((List.suffix_cons _ _).trans (List.suffix_append _ _)) (by decide)
      exact absurd shorter (by decide)
    show (if _ then _ else if _ then _ else _) = _
    rw [if_neg differs, other, if_neg Bool.false_ne_true]
    exact found _

theorem resolve_handleNip05 (nonempty : name ≠ []) :
    (handleNip05 toLowerCase store (some name)).resolve (toLowerCase name) =
      ((store (userKey (toLowerCase name))).join.bind fun userData =>
        userData.pubkey.map fun pubkey => (pubkey, userData.relays.getD [])) := by
  cases name with
  | nil => exact absurd rfl nonempty
  | cons symbol name =>
    unfold handleNip05
    dsimp only
    cases store (userKey (toLowerCase (symbol :: name))) with
    | none => rfl
    | some entry =>
      cases entry with
      | none => rfl
      | some userData => exact resolve_response userData _

theorem resolve_handleSubdomainNip05 (subdomain : Text) :
    ((handleSubdomainNip05 store subdomain).getD (.failure 500)).resolve ['_'] =
      ((store (userKey subdomain)).join.filter NameRecord.active).bind fun userData =>
        userData.pubkey.map fun pubkey => (pubkey, userData.relays.getD []) := by
  unfold handleSubdomainNip05
  cases store (userKey subdomain) with
  | none => rfl
  | some entry =>
    cases entry with
    | none => rfl
    | some userData =>
      by_cases active : userData.active = true
      · simp [active, Option.filter, resolve_response]
      · simp [active, Option.filter, Nip05Response.resolve]

theorem handleRequest_apex (isApex : apex ∈ apexDomains) (name : Option Text) :
    handleRequest toLowerCase store apex name = handleNip05 toLowerCase store name := by
  obtain rfl | rfl : apex = "dvine.video".toList ∨ apex = "divine.video".toList := by
    simpa [apexDomains] using isApex
  · rfl
  · rfl

theorem handleRequest_label (single : '.' ∉ label) (allowed : label ∉ reservedSubdomains)
    (isApex : apex ∈ apexDomains) (named : toLowerCase label ≠ []) (query : Option Text) :
    handleRequest toLowerCase store (label ++ '.' :: apex) query =
      (handleSubdomainNip05 store (toLowerCase label)).getD (.failure 500) := by
  have noRedirect : "www.".toList.isPrefixOf (label ++ '.' :: apex) = false := by
    refine Bool.eq_false_iff.mpr fun begins => ?_
    have www : "www.".toList = "www".toList ++ ['.'] := by decide
    have text : label ++ ['.'] <+: label ++ '.' :: apex :=
      (List.prefix_append_right_inj label).mpr ⟨apex, rfl⟩
    have isLabel : "www".toList = label := by
      rcases List.prefix_or_prefix_of_prefix (List.isPrefixOf_iff_prefix.mp begins) text with
        shorter | longer
      · rcases List.prefix_concat_iff.mp shorter with same | inside
        · exact List.append_inj_left' (www.symm.trans same) rfl
        · exact absurd (inside.subset (by decide)) single
      · rcases List.prefix_concat_iff.mp (www ▸ longer) with same | inside
        · exact (List.append_inj_left' same rfl).symm
        · have member : '.' ∈ "www".toList := inside.subset (by simp)
          exact absurd member (by decide)
    exact allowed (isLabel ▸ List.mem_cons_self)
  unfold handleRequest
  rw [noRedirect, if_neg Bool.false_ne_true, getSubdomain_label single allowed isApex]
  cases isName : toLowerCase label with
  | nil => exact absurd isName named
  | cons symbol rest => rfl

/-- The endpoints resolve a name alike, and only when active, exactly when its record is active or
without a key. -/
theorem agree_iff (single : '.' ∉ label) (allowed : label ∉ reservedSubdomains)
    (isApex : apex ∈ apexDomains) (same : toLowerCase label = toLowerCase name)
    (nonempty : name ≠ []) (named : toLowerCase name ≠ []) (query : Option Text) :
    ((handleRequest toLowerCase store apex (some name)).resolve (toLowerCase name) =
          (handleRequest toLowerCase store (label ++ '.' :: apex) query).resolve ['_'] ∧
        ∀ userData, store (userKey (toLowerCase name)) = some (some userData) →
          userData.active = false →
            (handleRequest toLowerCase store apex (some name)).resolve (toLowerCase name) = none ∧
              (handleRequest toLowerCase store (label ++ '.' :: apex) query).resolve ['_'] =
                none) ↔
      ∀ userData, store (userKey (toLowerCase name)) = some (some userData) →
        userData.pubkey.isSome = true → userData.active = true := by
  rw [handleRequest_apex isApex, handleRequest_label single allowed isApex (same ▸ named),
    resolve_handleNip05 nonempty, resolve_handleSubdomainNip05, same]
  constructor
  · rintro ⟨-, inactive⟩ userData stored isKey
    by_contra unlisted
    have missing := (inactive userData stored (Bool.eq_false_iff.mpr unlisted)).1
    rw [stored] at missing
    obtain ⟨pubkey, isPubkey⟩ := Option.isSome_iff_exists.mp isKey
    simp [isPubkey] at missing
  · intro active
    cases stored : (store (userKey (toLowerCase name))).join with
    | none => exact ⟨rfl, fun _ _ _ => ⟨rfl, rfl⟩⟩
    | some userData =>
      have entry := Option.join_eq_some_iff.mp stored
      cases isPubkey : userData.pubkey with
      | none =>
        have neither : ((some userData).filter NameRecord.active).bind (fun userData =>
            userData.pubkey.map fun pubkey => (pubkey, userData.relays.getD [])) = none := by
          by_cases listed : userData.active = true
          · simp [Option.filter, listed, isPubkey]
          · simp [Option.filter, listed]
        have missing : (some userData).bind (fun userData =>
            userData.pubkey.map fun pubkey => (pubkey, userData.relays.getD [])) = none := by
          simp [isPubkey]
        exact ⟨missing.trans neither.symm, fun _ _ _ => ⟨missing, neither⟩⟩
      | some pubkey =>
        have listed := active userData entry (by rw [isPubkey]; rfl)
        refine ⟨by simp [Option.filter, listed], fun other isOther unlisted => ?_⟩
        cases Option.some.inj (entry.symm.trans isOther)
        exact absurd (listed.symm.trans unlisted) (by decide)

def oneRecord (status : String) : NamesStore := fun key =>
  if key = "user:alice".toList then
    some (some ⟨some status.toList, some "ab12".toList, some ["wss://relay".toList]⟩)
  else none

theorem agree_active :
    (handleRequest (List.map Char.toLower) (oneRecord "active") "divine.video".toList
        (some "ALICE".toList)).resolve "alice".toList =
      (handleRequest (List.map Char.toLower) (oneRecord "active") "Alice.divine.video".toList
        none).resolve ['_'] := by
  have agree := @agree_iff (List.map Char.toLower) (oneRecord "active") "ALICE".toList
    "Alice".toList "divine.video".toList (by decide) (by decide) (by decide) (by decide)
    (by decide) (by decide) none
  refine (agree.mpr fun userData stored _ => ?_).1
  cases Option.some.inj stored
  decide

/-- A suspended name still resolves at the apex. -/
theorem resolves_suspended :
    (handleRequest (List.map Char.toLower) (oneRecord "suspended") "divine.video".toList
        (some "Alice".toList)).resolve "alice".toList =
        some ("ab12".toList, ["wss://relay".toList]) ∧
      (handleRequest (List.map Char.toLower) (oneRecord "suspended")
        "Alice.divine.video".toList none).resolve ['_'] = none := by
  decide

end Agreement

end Divine.ComputeJs
