/-
This file settles what it means that one policy is more restrictive than another.
-/

import Divine.Keycast.Database

namespace Divine.Keycast

open List Fallible

/-! ### The comparison -/

/-- The kinds of a stored permission; a configuration that does not parse is the default one. -/
def Permission.allowedKinds (permission : Permission) : Option (List UInt16) :=
  (permission.config.toOptionalField "allowed_kinds" (Json.toVec Json.toU16)).getD none

def Permission.blockedWords (permission : Permission) : Option (List String) :=
  (permission.config.toOptionalField "blocked_words" (Json.toVec Json.asStr)).getD none

/-- The comparison of two permissions with one identifier. -/
def Permission.below (first second : Permission) : Bool :=
  if first.identifier = "allowed_kinds" then
    match first.allowedKinds, second.allowedKinds with
    | some kinds, some others => kinds.all others.contains
    | some _, none => true
    | none, some _ => false
    | none, none => true
  else if first.identifier = "content_filter" then
    match first.blockedWords, second.blockedWords with
    | some words, some others => others.all words.contains
    | none, some _ => false
    | some _, none | none, none => true
  else true

/-- The two loops of `is_more_restrictive`. -/
def belowAll (first second : List Permission) : Bool :=
  (first.all fun permission => second.all fun other =>
    permission.identifier ≠ other.identifier || permission.below other) &&
  second.all fun other =>
    (first.any fun permission => permission.identifier = other.identifier) ||
      other.identifier ≠ "encrypt_to_self"

def isMoreRestrictive (crypto : Crypto) (database : Database) (first second : Policy) :
    Except String Bool := do
  let firstPermissions ← database.getPermissions crypto first.id
  let secondPermissions ← database.getPermissions crypto second.id
  return belowAll firstPermissions secondPermissions

/-! ### Texts -/

theorem contains_self (text : String) : contains text text = true :=
  decide_eq_true infix_rfl

theorem contains_trans {text middle part : String} (outer : contains text middle = true)
    (inner : contains middle part = true) : contains text part = true :=
  decide_eq_true ((of_decide_eq_true inner).trans (of_decide_eq_true outer))

theorem contains_empty (text : String) : contains text "" = true :=
  decide_eq_true nil_infix

/-! ### What a list of permissions allows -/

def CustomPermission.words : CustomPermission → List String
  | contentFilter permission => permission.blockedWords.getD []
  | _ => []

/-- The permission does not forbid signing events of the kind. -/
def CustomPermission.admits (kind : UInt16) : CustomPermission → Bool
  | allowedKinds permission => (permission.allowedKinds.map fun kinds =>
      kinds.contains kind).getD true
  | decryptOnly => kind == nip42AuthKind
  | contentFilter _ | encryptToSelf | fullAccess => true

def blocked (permissions : List CustomPermission) (text : String) : Prop :=
  ∃ permission ∈ permissions, ∃ word ∈ permission.words, contains text word = true

def admitted (permissions : List CustomPermission) (kind : UInt16) : Prop :=
  ∀ permission ∈ permissions, permission.admits kind = true

section

variable {permissions : List CustomPermission} {user : PublicKey}

theorem canSign_iff {permission : CustomPermission} {event : UnsignedEvent} :
    permission.canSign event = true ↔ permission.admits event.kind = true ∧
      ∀ word ∈ permission.words, contains event.content word = false := by
  cases permission with
  | allowedKinds permission =>
    cases kinds : permission.allowedKinds <;>
      simp [CustomPermission.canSign, AllowedKinds.canSign, CustomPermission.admits,
        CustomPermission.words, kinds]
  | contentFilter permission =>
    cases words : permission.blockedWords <;>
      simp [CustomPermission.canSign, ContentFilter.clean, CustomPermission.admits,
        CustomPermission.words, words]
  | _ => simp [CustomPermission.canSign, CustomPermission.admits, CustomPermission.words]

theorem canEncrypt_iff {permission : CustomPermission} {plaintext : String}
    {sender recipient : PublicKey} :
    permission.canEncrypt plaintext sender recipient = true ↔ permission ≠ .decryptOnly ∧
      (permission = .encryptToSelf → sender = recipient) ∧
        ∀ word ∈ permission.words, contains plaintext word = false := by
  cases permission with
  | contentFilter permission =>
    cases words : permission.blockedWords <;>
      simp [CustomPermission.canEncrypt, ContentFilter.clean, CustomPermission.words, words]
  | _ => simp [CustomPermission.canEncrypt, CustomPermission.words]

theorem canDecrypt_iff {permission : CustomPermission} {ciphertext : String}
    {sender recipient : PublicKey} :
    permission.canDecrypt ciphertext sender recipient = true ↔
      (permission = .encryptToSelf → sender = recipient) := by
  cases permission <;> simp [CustomPermission.canDecrypt]

theorem not_blocked_iff {text : String} : ¬blocked permissions text ↔
    ∀ permission ∈ permissions, ∀ word ∈ permission.words, contains text word = false := by
  simp only [blocked, not_exists, not_and, Bool.not_eq_true]

theorem sign_mem_allowance {event : UnsignedEvent} :
    .sign event ∈ allowance permissions user ↔
      admitted permissions event.kind ∧ ¬blocked permissions event.content := by
  rw [not_blocked_iff]
  simp only [allowance, Set.mem_ofPred_eq, CustomPermission.allows, canSign_iff, admitted]
  constructor
  · intro each
    exact ⟨fun permission member => (each permission member).1,
      fun permission member => (each permission member).2⟩
  · intro both permission member
    exact ⟨both.1 permission member, both.2 permission member⟩

theorem encrypt_mem_allowance {plaintext : String} {recipient : PublicKey} :
    .encrypt plaintext recipient ∈ allowance permissions user ↔
      .decryptOnly ∉ permissions ∧ (.encryptToSelf ∈ permissions → user = recipient) ∧
        ¬blocked permissions plaintext := by
  rw [not_blocked_iff]
  simp only [allowance, Set.mem_ofPred_eq, CustomPermission.allows, canEncrypt_iff]
  constructor
  · intro each
    exact ⟨fun member => (each _ member).1 rfl, fun member => (each _ member).2.1 rfl,
      fun permission member => (each permission member).2.2⟩
  · rintro ⟨decrypts, own, words⟩ permission member
    exact ⟨fun same => decrypts (same ▸ member), fun same => own (same ▸ member),
      words permission member⟩

theorem decrypt_mem_allowance {ciphertext : String} {sender : PublicKey} :
    .decrypt ciphertext sender ∈ allowance permissions user ↔
      (.encryptToSelf ∈ permissions → sender = user) := by
  simp only [allowance, Set.mem_ofPred_eq, CustomPermission.allows, canDecrypt_iff]
  exact ⟨fun each member => each _ member rfl, fun own permission member same =>
    own (same ▸ member)⟩

end

/-! ### Permissions that a list covers -/

/-- The list allows nothing that the permission forbids: of the kinds, the words, and the two
permissions on messages. -/
def CoveredBy (permissions : List CustomPermission) : CustomPermission → Prop
  | .allowedKinds ⟨none⟩ | .contentFilter ⟨none⟩ | .fullAccess => True
  | .allowedKinds ⟨some kinds⟩ =>
      blocked permissions "" ∨ ∀ kind, admitted permissions kind → kind ∈ kinds
  | .contentFilter ⟨some words⟩ =>
      (.decryptOnly ∈ permissions ∧ ∀ kind, ¬admitted permissions kind) ∨
        ∀ word ∈ words, blocked permissions word
  | .decryptOnly => .decryptOnly ∈ permissions ∨ blocked permissions ""
  | .encryptToSelf => .encryptToSelf ∈ permissions

/-- Whatever all of the list allow, the permission allows. -/
def Implies (permissions : List CustomPermission) (permission : CustomPermission) : Prop :=
  ∀ user, ∀ operation ∈ allowance permissions user, permission.allows user operation = true

theorem implies_all_iff {first second : List CustomPermission} :
    (∀ user, allowance first user ⊆ allowance second user) ↔
      ∀ permission ∈ second, Implies first permission :=
  ⟨fun within permission member user _ allowed => within user allowed permission member,
    fun implied user operation allowed permission member =>
      implied permission member user operation allowed⟩

section

variable {permissions : List CustomPermission} {user : PublicKey}

theorem blocked_of_contains {text inner : String} (isBlocked : blocked permissions inner)
    (inside : contains text inner = true) : blocked permissions text := by
  obtain ⟨permission, member, word, listed, found⟩ := isBlocked
  exact ⟨permission, member, word, listed, contains_trans inside found⟩

def eventOf (user : PublicKey) (kind : UInt16) (content : String) : UnsignedEvent where
  pubkey := user
  createdAt := 0
  kind := kind
  tags := []
  content := content

theorem encrypt_own_mem {text : String} (encrypts : .decryptOnly ∉ permissions)
    (clean : ¬blocked permissions text) : .encrypt text user ∈ allowance permissions user :=
  encrypt_mem_allowance.mpr ⟨encrypts, fun _ => rfl, clean⟩

theorem implies_allowedKinds_iff {kinds : List UInt16} :
    Implies permissions (.allowedKinds ⟨some kinds⟩) ↔
      blocked permissions "" ∨ ∀ kind, admitted permissions kind → kind ∈ kinds := by
  constructor
  · intro implied
    by_cases silent : blocked permissions ""
    · exact .inl silent
    · refine .inr fun kind admits => ?_
      have signed := implied ⟨""⟩ (.sign (eventOf ⟨""⟩ kind ""))
        (sign_mem_allowance.mpr ⟨admits, silent⟩)
      exact contains_iff_mem.mp signed
  · rintro covered user operation allowed
    cases operation with
    | sign event =>
      obtain ⟨admits, clean⟩ := sign_mem_allowance.mp allowed
      rcases covered with silent | within
      · exact absurd (blocked_of_contains silent (contains_empty _)) clean
      · exact contains_iff_mem.mpr (within event.kind admits)
    | encrypt | decrypt => rfl

theorem implies_contentFilter_iff {words : List String} :
    Implies permissions (.contentFilter ⟨some words⟩) ↔
      (.decryptOnly ∈ permissions ∧ ∀ kind, ¬admitted permissions kind) ∨
        ∀ word ∈ words, blocked permissions word := by
  have clean_iff (text : String) : ContentFilter.clean ⟨some words⟩ text = true ↔
      ∀ word ∈ words, contains text word = false := by
    simp [ContentFilter.clean]
  constructor
  · intro implied
    by_cases mute : .decryptOnly ∈ permissions ∧ ∀ kind, ¬admitted permissions kind
    · exact .inl mute
    · refine .inr fun word listed => ?_
      by_contra clean
      -- an event or a message whose text is the word itself
      have uses : ∃ operation ∈ allowance permissions ⟨""⟩,
          CustomPermission.allows (.contentFilter ⟨some words⟩) ⟨""⟩ operation =
            ContentFilter.clean ⟨some words⟩ word := by
        by_cases encrypts : .decryptOnly ∈ permissions
        · obtain ⟨kind, admits⟩ := not_forall_not.mp fun none_admitted =>
            mute ⟨encrypts, none_admitted⟩
          exact ⟨.sign (eventOf ⟨""⟩ kind word), sign_mem_allowance.mpr ⟨admits, clean⟩, rfl⟩
        · exact ⟨_, encrypt_own_mem encrypts clean, rfl⟩
      obtain ⟨operation, allowed, same⟩ := uses
      have permits := (clean_iff word).mp (same ▸ implied ⟨""⟩ operation allowed) word listed
      rw [contains_self] at permits
      cases permits
  · rintro covered user operation allowed
    have avoids {text : String} (clean : ¬blocked permissions text)
        (within : ∀ word ∈ words, blocked permissions word) :
        ContentFilter.clean ⟨some words⟩ text = true := by
      refine (clean_iff text).mpr fun word listed => Bool.eq_false_iff.mpr fun inside => ?_
      exact clean (blocked_of_contains (within word listed) inside)
    cases operation with
    | sign event =>
      obtain ⟨admits, clean⟩ := sign_mem_allowance.mp allowed
      rcases covered with ⟨-, mute⟩ | within
      · exact absurd admits (mute event.kind)
      · exact avoids clean within
    | encrypt plaintext recipient =>
      obtain ⟨encrypts, -, clean⟩ := encrypt_mem_allowance.mp allowed
      rcases covered with ⟨decrypts, -⟩ | within
      · exact absurd decrypts encrypts
      · exact avoids clean within
    | decrypt ciphertext sender => rfl

theorem implies_decryptOnly_iff : Implies permissions .decryptOnly ↔
    .decryptOnly ∈ permissions ∨ blocked permissions "" := by
  constructor
  · intro implied
    by_contra neither
    obtain ⟨encrypts, clean⟩ := not_or.mp neither
    cases implied ⟨""⟩ _ (encrypt_own_mem encrypts clean)
  · rintro covered user operation allowed
    cases operation with
    | sign event =>
      obtain ⟨admits, clean⟩ := sign_mem_allowance.mp allowed
      rcases covered with decrypts | silent
      · exact admits _ decrypts
      · exact absurd (blocked_of_contains silent (contains_empty _)) clean
    | encrypt plaintext recipient =>
      obtain ⟨encrypts, -, clean⟩ := encrypt_mem_allowance.mp allowed
      rcases covered with decrypts | silent
      · exact absurd decrypts encrypts
      · exact absurd (blocked_of_contains silent (contains_empty _)) clean
    | decrypt ciphertext sender => rfl

theorem implies_encryptToSelf_iff : Implies permissions .encryptToSelf ↔
    .encryptToSelf ∈ permissions := by
  constructor
  · intro implied
    by_contra absent
    -- a message of another user
    have allowed : Operation.decrypt "" ⟨"other"⟩ ∈ allowance permissions ⟨""⟩ :=
      decrypt_mem_allowance.mpr fun present => absurd present absent
    exact absurd (implied ⟨""⟩ _ allowed) (by decide)
  · rintro present user operation allowed
    cases operation with
    | sign event => rfl
    | encrypt plaintext recipient =>
      exact beq_iff_eq.mpr ((encrypt_mem_allowance.mp allowed).2.1 present)
    | decrypt ciphertext sender =>
      exact beq_iff_eq.mpr (decrypt_mem_allowance.mp allowed present)

theorem covers_iff {permission : CustomPermission} :
    CoveredBy permissions permission ↔ Implies permissions permission := by
  cases permission with
  | allowedKinds permission =>
    obtain ⟨kinds⟩ := permission
    cases kinds with
    | none => exact ⟨fun _ user operation _ => by cases operation <;> rfl, fun _ => trivial⟩
    | some kinds => exact implies_allowedKinds_iff.symm
  | contentFilter permission =>
    obtain ⟨words⟩ := permission
    cases words with
    | none => exact ⟨fun _ user operation _ => by cases operation <;> rfl, fun _ => trivial⟩
    | some words => exact implies_contentFilter_iff.symm
  | decryptOnly => exact implies_decryptOnly_iff.symm
  | encryptToSelf => exact implies_encryptToSelf_iff.symm
  | fullAccess => exact ⟨fun _ user operation _ => by cases operation <;> rfl, fun _ => trivial⟩

end

/-! ### Permissions that are compared -/

section

variable {first second : List Permission} {firstCustoms secondCustoms : List CustomPermission}

def PassedOver (first : List Permission) (other : Permission) : Prop :=
  other.identifier ∉ ["allowed_kinds", "content_filter", "encrypt_to_self"] ∨
    ∀ permission ∈ first, permission.identifier ≠ other.identifier

/-- Permissions with one identifier compare wrongly, or only the second has `encrypt_to_self`. -/
def NotBelow (first second : List Permission) : Prop :=
  (∃ permission ∈ first, ∃ other ∈ second, permission.identifier = other.identifier ∧
    permission.below other = false) ∨
  ∃ other ∈ second, other.identifier = "encrypt_to_self" ∧
    ∀ permission ∈ first, permission.identifier ≠ other.identifier

theorem belowAll_iff : belowAll first second = true ↔ ¬NotBelow first second := by
  simp only [belowAll, NotBelow, Bool.and_eq_true, all_eq_true, any_eq_true,
    Bool.or_eq_true, decide_eq_true_eq, ne_eq, not_or, not_exists, not_and, Bool.not_eq_false]
  refine and_congr ?_ (forall₂_congr fun other _ => ?_)
  · exact forall₂_congr fun permission _ => forall₂_congr fun other _ =>
      Decidable.or_iff_not_imp_left.trans (by rw [not_not])
  · rw [or_comm, Decidable.or_iff_not_imp_left, not_not]
    push Not
    rfl

theorem toCustomPermission_allowedKinds {permission : Permission} {custom : CustomPermission}
    (identifier : permission.identifier = "allowed_kinds")
    (parsed : permission.toCustomPermission = .ok custom) :
    custom = .allowedKinds ⟨permission.allowedKinds⟩ := by
  rw [Permission.toCustomPermission, identifier, if_pos (by decide), Permission.toAllowedKinds]
    at parsed
  unfold Permission.allowedKinds
  split at parsed
  · rename_i kinds decoded
    rw [decoded]
    exact (Except.ok.inj parsed).symm
  · cases parsed

theorem toCustomPermission_contentFilter {permission : Permission} {custom : CustomPermission}
    (identifier : permission.identifier = "content_filter")
    (parsed : permission.toCustomPermission = .ok custom) :
    custom = .contentFilter ⟨permission.blockedWords⟩ := by
  rw [Permission.toCustomPermission, identifier, if_neg (by decide), if_pos rfl,
    Permission.toContentFilter] at parsed
  unfold Permission.blockedWords
  split at parsed
  · rename_i words decoded
    rw [decoded]
    exact (Except.ok.inj parsed).symm
  · cases parsed

theorem toCustomPermission_encryptToSelf {permission : Permission} {custom : CustomPermission}
    (identifier : permission.identifier = "encrypt_to_self")
    (parsed : permission.toCustomPermission = .ok custom) : custom = .encryptToSelf := by
  rw [Permission.toCustomPermission, identifier] at parsed
  exact (Except.ok.inj parsed).symm

theorem covers_of_below {permission other : Permission} {custom otherCustom : CustomPermission}
    (known : other.identifier ∈ ["allowed_kinds", "content_filter", "encrypt_to_self"])
    (same : permission.identifier = other.identifier) (below : permission.below other = true)
    (parsed : permission.toCustomPermission = .ok custom) (member : custom ∈ firstCustoms)
    (otherParsed : other.toCustomPermission = .ok otherCustom) :
    CoveredBy firstCustoms otherCustom := by
  rcases mem_cons.mp known with identifier | known
  · have own := same.trans identifier
    obtain rfl := toCustomPermission_allowedKinds own parsed
    obtain rfl := toCustomPermission_allowedKinds identifier otherParsed
    rw [Permission.below, if_pos own] at below
    cases others : other.allowedKinds with
    | none => trivial
    | some others' =>
      refine .inr fun kind admits => ?_
      have admitsOwn := admits _ member
      cases kinds : permission.allowedKinds with
      | none =>
        rw [kinds, others] at below
        cases below
      | some kinds' =>
        rw [kinds, others] at below
        rw [kinds] at admitsOwn
        exact contains_iff_mem.mp
          (all_eq_true.mp below kind (contains_iff_mem.mp admitsOwn))
  · rcases mem_cons.mp known with identifier | known
    · have own := same.trans identifier
      obtain rfl := toCustomPermission_contentFilter own parsed
      obtain rfl := toCustomPermission_contentFilter identifier otherParsed
      rw [Permission.below, if_neg (by rw [own]; decide), if_pos own] at below
      cases others : other.blockedWords with
      | none => trivial
      | some others' =>
        refine .inr fun word listed => ?_
        cases words : permission.blockedWords with
        | none =>
          rw [words, others] at below
          cases below
        | some words' =>
          rw [words, others] at below
          refine ⟨_, member, word, ?_, contains_self word⟩
          rw [CustomPermission.words, words]
          exact contains_iff_mem.mp (all_eq_true.mp below word listed)
    · have identifier := mem_singleton.mp known
      obtain rfl := toCustomPermission_encryptToSelf (same.trans identifier) parsed
      obtain rfl := toCustomPermission_encryptToSelf identifier otherParsed
      exact member

/-- An answer is sound exactly when it refuses, or each permission that was passed over is covered.
-/
theorem isMoreRestrictive_sound_iff {crypto : Crypto} {database : Database}
    {firstPolicy secondPolicy : Policy}
    (firstRead : database.getPermissions crypto firstPolicy.id = .ok first)
    (secondRead : database.getPermissions crypto secondPolicy.id = .ok second)
    (firstParsed : first.mapM Permission.toCustomPermission = .ok firstCustoms)
    (secondParsed : second.mapM Permission.toCustomPermission = .ok secondCustoms) :
    (isMoreRestrictive crypto database firstPolicy secondPolicy = .ok true →
      ∀ user, allowance firstCustoms user ⊆ allowance secondCustoms user) ↔
    NotBelow first second ∨ ∀ other ∈ second, PassedOver first other →
      ∀ custom, other.toCustomPermission = .ok custom → CoveredBy firstCustoms custom := by
  have answer : isMoreRestrictive crypto database firstPolicy secondPolicy =
      .ok (belowAll first second) := by
    rw [isMoreRestrictive, firstRead, secondRead]
    rfl
  rw [answer, Except.ok.injEq, belowAll_iff, or_iff_not_imp_left, implies_all_iff]
  refine imp_congr_right fun passed => ?_
  constructor
  · intro implied other member _ custom parsed
    obtain ⟨result, present, equal⟩ := mem_mapM secondParsed member
    obtain rfl := Except.ok.inj (equal.symm.trans parsed)
    exact covers_iff.mpr (implied result present)
  · intro covers custom member
    obtain ⟨other, stored, parsed⟩ := mem_of_mapM secondParsed member
    refine covers_iff.mp ?_
    by_cases ignored : PassedOver first other
    · exact covers other stored ignored custom parsed
    · -- a permission that is compared with one of its own identifier
      simp only [PassedOver, not_or, not_not, not_forall] at ignored
      obtain ⟨known, permission, present, same⟩ := ignored
      obtain ⟨own, ownMember, ownParsed⟩ := mem_mapM firstParsed present
      refine covers_of_below known same ?_ ownParsed ownMember parsed
      by_contra wrong
      exact passed (.inl ⟨permission, present, other, stored, same, Bool.eq_false_iff.mpr wrong⟩)

end

/-! ### A policy without permissions -/

/-- The libraries, reading the configuration that allows kind 1. -/
def noteCrypto : Crypto :=
  { sampleCrypto with
    parseJson := fun text =>
      if text = "\x7b\"allowed_kinds\":[1]\x7d" then
        .ok (.object [("allowed_kinds", .array [.number (.posInt 1)])])
      else sampleCrypto.parseJson text }

/-- A policy without permissions, one that allows notes, and one that has full access beside. -/
def noteDatabase : Database :=
  { Database.empty with
    policies := [⟨1, none, some "open"⟩, ⟨2, none, some "notes"⟩, ⟨3, none, some "both"⟩]
    permissions := [⟨1, "allowed_kinds", "\x7b\"allowed_kinds\":[1]\x7d"⟩,
      ⟨2, "full_access", "\x7b\x7d"⟩]
    policyPermissions := [⟨2, 1⟩, ⟨3, 1⟩, ⟨3, 2⟩] }

def notePermission : Permission :=
  ⟨1, "allowed_kinds", .object [("allowed_kinds", .array [.number (.posInt 1)])]⟩

theorem isMoreRestrictive_sound_sample :
    isMoreRestrictive noteCrypto noteDatabase ⟨2, none, some "notes"⟩ ⟨3, none, some "both"⟩ =
      .ok true ∧
    ∀ user, allowance [.allowedKinds ⟨some [1]⟩] user ⊆
      allowance [.allowedKinds ⟨some [1]⟩, .fullAccess] user := by
  have answer : isMoreRestrictive noteCrypto noteDatabase ⟨2, none, some "notes"⟩
      ⟨3, none, some "both"⟩ = .ok true := by decide +kernel
  refine ⟨answer, (isMoreRestrictive_sound_iff
    (show noteDatabase.getPermissions noteCrypto 2 = .ok [notePermission] from rfl)
    (show noteDatabase.getPermissions noteCrypto 3 =
      .ok [notePermission, ⟨2, "full_access", .object []⟩] from rfl)
    rfl rfl).mpr (.inr fun other member ignored custom parsed => ?_) answer⟩
  rcases mem_cons.mp member with rfl | member
  · -- the kinds are compared
    rcases ignored with unknown | absent
    · exact absurd (mem_cons_self) unknown
    · exact absurd rfl (absent _ mem_cons_self)
  · obtain rfl := mem_singleton.mp member
    obtain rfl : CustomPermission.fullAccess = custom := Except.ok.inj parsed
    trivial

/-- No permission of the first policy is compared with that of the second, which alone forbids
anything. -/
theorem isMoreRestrictive_unsound :
    isMoreRestrictive noteCrypto noteDatabase ⟨1, none, some "open"⟩ ⟨2, none, some "notes"⟩ =
      .ok true ∧
    noteDatabase.getPermissions noteCrypto 1 = .ok [] ∧
    noteDatabase.getPermissions noteCrypto 2 = .ok [notePermission] ∧
    notePermission.toCustomPermission = .ok (.allowedKinds ⟨some [1]⟩) ∧
    .sign (eventOf ⟨""⟩ 0 "") ∈ allowance [] ⟨""⟩ ∧
    .sign (eventOf ⟨""⟩ 0 "") ∉ allowance [.allowedKinds ⟨some [1]⟩] ⟨""⟩ := by
  refine ⟨by decide +kernel, rfl, rfl, rfl, ?_, fun allowed => ?_⟩
  · rw [allowance_nil]
    trivial
  · exact absurd (allowed _ mem_cons_self) (by decide)

end Divine.Keycast
