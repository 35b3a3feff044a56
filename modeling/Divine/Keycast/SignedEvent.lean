/-
This file compares the event the relay signer signs with the event it was asked to sign.
-/

import Divine.Keycast.ClientRace
import Divine.Keycast.PolicyParity

namespace Divine.Keycast

open List Option Fallible

/-! ### What was asked -/

def tagJson (strings : List String) : Json := .array (strings.map .string)

def stringItems (tag : Json) : List String := (tag.asArray.getD []).filterMap Json.asStr

def askedEvent (crypto : Crypto) (request : Json) : Except SignerError Json := do
  let text ← okOr ((request.field "params").item 0).asStr (.missingParameter "event")
  (crypto.parseJson text).mapError .json

/-- What the signing libraries do: `Tag::parse` keeps the items of a tag, and the `EventBuilder`
discards tags that refer to the author unless it is told not to. -/
structure KeepsEvents (crypto : Crypto) (discards : PublicKey → List String → Bool) : Prop where
  parseTag : ∀ values parsed, crypto.parseTag values = .ok parsed → parsed = values
  buildEvent : ∀ keys event signed, crypto.buildEvent keys event = .ok signed →
    signed.unsigned =
      { event with
        pubkey := keys.publicKey
        tags := event.tags.filter fun tag => !discards keys.publicKey tag }

section

@[simp] theorem stringItems_tagJson (strings : List String) :
    stringItems (tagJson strings) = strings := by
  show (strings.map Json.string).filterMap Json.asStr = strings
  rw [filterMap_map]
  exact filterMap_some

theorem parseTags_eq {crypto : Crypto}
    (keeps : ∀ values parsed, crypto.parseTag values = .ok parsed → parsed = values)
    {items : List Json} {tags : List (List String)} (parsed : parseTags crypto items = .ok tags) :
    tags = (items.map stringItems).filter fun strings => !strings.isEmpty := by
  induction items generalizing tags with
  | nil => exact (Except.ok.inj parsed).symm
  | cons tag rest ih =>
    rw [map_cons]
    unfold parseTags at parsed
    cases array : tag.asArray with
    | none =>
      rw [array] at parsed
      have empty : stringItems tag = [] := by
        unfold stringItems
        rw [array]
        rfl
      rw [empty]
      exact ih parsed
    | some values =>
      simp only [array] at parsed
      have strings : values.filterMap Json.asStr = stringItems tag := by
        unfold stringItems
        rw [array]
        rfl
      rw [strings] at parsed
      cases empty : (stringItems tag).isEmpty with
      | true =>
        rw [if_pos empty] at parsed
        rw [filter_cons_of_neg (by simp [empty])]
        exact ih parsed
      | false =>
        rw [if_neg (by simp [empty])] at parsed
        obtain ⟨first, kept, remaining⟩ := bind_eq_ok.mp parsed
        obtain ⟨others, restParsed, collected⟩ := bind_eq_ok.mp remaining
        obtain rfl := pure_eq_ok.mp collected
        rw [filter_cons_of_pos (by simp [empty]), ← ih restParsed,
          keeps _ _ (mapError_eq_ok.mp kept)]

theorem parseSignRequest_eq_ok {crypto : Crypto} {handler : Nip46Handler} {request asked : Json}
    {checked : UnsignedEvent} (requested : askedEvent crypto request = .ok asked)
    (parsed : parseSignRequest crypto handler request = .ok checked) :
    ∃ kind items, asked.field "kind" = .number (.posInt kind) ∧
      asked.field "content" = .string checked.content ∧
      asked.field "created_at" = .number (.posInt checked.createdAt) ∧
      asked.field "tags" = .array items ∧ parseTags crypto items = .ok checked.tags ∧
      checked.kind = UInt16.ofNat kind ∧ checked.pubkey = handler.userKeys.publicKey := by
  obtain ⟨text, param, read⟩ := bind_eq_ok.mp requested
  unfold parseSignRequest at parsed
  rw [param, ok_bind, read, ok_bind] at parsed
  obtain ⟨kind, isKind, parsed⟩ := bind_eq_ok.mp parsed
  obtain ⟨content, isContent, parsed⟩ := bind_eq_ok.mp parsed
  obtain ⟨createdAt, isCreatedAt, parsed⟩ := bind_eq_ok.mp parsed
  obtain ⟨items, isTags, parsed⟩ := bind_eq_ok.mp parsed
  obtain ⟨tags, parsedTags, parsed⟩ := bind_eq_ok.mp parsed
  obtain rfl := pure_eq_ok.mp parsed
  exact ⟨kind, items, Json.asU64_eq_some.mp (okOr_eq_ok.mp isKind),
    Json.asStr_eq_some.mp (okOr_eq_ok.mp isContent),
    Json.asU64_eq_some.mp (okOr_eq_ok.mp isCreatedAt),
    Json.asArray_eq_some.mp (okOr_eq_ok.mp isTags), parsedTags, rfl, rfl⟩

end

/-! ### The signed event -/

section

variable (crypto : Crypto) (handler : Nip46Handler) (database : Database) (request asked : Json)

structure SignsAsked (event : UnsignedEvent) : Prop where
  kind : asked.field "kind" = .number (.posInt event.kind.toNat)
  createdAt : asked.field "created_at" = .number (.posInt event.createdAt)
  content : asked.field "content" = .string event.content
  tags : asked.field "tags" = .array (event.tags.map tagJson)
  parsed : parseSignRequest crypto handler request = .ok event
  checked : validatePermissionsForSign crypto handler database event = .ok ()

/-- The kind has sixteen bits, and each tag is a non-empty array of strings that is not discarded.
-/
structure Representable (discards : PublicKey → List String → Bool) : Prop where
  kind : ∀ kind, (asked.field "kind").asU64 = some kind → kind < 2 ^ 16
  tags : ∀ items, (asked.field "tags").asArray = some items → ∀ tag ∈ items, ∃ strings,
    tag = tagJson strings ∧ strings ≠ [] ∧ discards handler.userKeys.publicKey strings = false

variable {crypto handler database request asked}

theorem map_stringItems {items : List Json}
    (strings : ∀ tag ∈ items, ∃ strings, tag = tagJson strings ∧ strings ≠ []) :
    ((items.map stringItems).filter fun strings => !strings.isEmpty).map tagJson = items := by
  induction items with
  | nil => rfl
  | cons tag rest ih =>
    obtain ⟨values, rfl, nonempty⟩ := strings tag mem_cons_self
    rw [map_cons, stringItems_tagJson, filter_cons_of_pos (by simpa using nonempty),
      map_cons, ih fun other member => strings other (.tail _ member)]

/-- A signed event is what was asked for exactly when the request can be represented. -/
theorem handleSignEvent_asked_iff {discards : PublicKey → List String → Bool} {event : Event}
    (keeps : KeepsEvents crypto discards) (requested : askedEvent crypto request = .ok asked)
    (accepted : handleSignEvent crypto handler database request = .ok event) :
    SignsAsked crypto handler database request asked event.unsigned ↔
      Representable handler asked discards := by
  obtain ⟨checked, parsed, accepted⟩ := bind_eq_ok.mp accepted
  obtain ⟨_, validated, built⟩ := bind_eq_ok.mp accepted
  have signed := keeps.buildEvent _ _ _ (mapError_eq_ok.mp built)
  obtain ⟨kind, items, isKind, isContent, isCreatedAt, isTags, parsedTags, cut, own⟩ :=
    parseSignRequest_eq_ok requested parsed
  have kept := parseTags_eq keeps.parseTag parsedTags
  constructor
  · intro asks
    constructor
    · -- the kind is one of the event
      intro other same
      have bound : event.unsigned.kind.toNat < 2 ^ 16 := event.unsigned.kind.toNat_lt
      rw [asks.kind] at same
      exact Option.some.inj same ▸ bound
    · intro others same tag member
      rw [asks.tags] at same
      cases same
      obtain ⟨strings, present, rfl⟩ := mem_map.mp member
      rw [signed] at present
      obtain ⟨inside, undiscarded⟩ := mem_filter.mp present
      rw [kept] at inside
      exact ⟨strings, rfl, by simpa using (mem_filter.mp inside).2, by simpa using undiscarded⟩
  · intro representable
    have arrays := representable.tags items (by rw [isTags]; rfl)
    have bound := representable.kind kind (by rw [isKind]; rfl)
    have undiscarded : checked.tags.filter (fun tag => !discards handler.userKeys.publicKey tag) =
        checked.tags := by
      refine filter_eq_self.mpr fun tag member => ?_
      rw [kept] at member
      obtain ⟨item, present, rfl⟩ := mem_map.mp (mem_filter.mp member).1
      obtain ⟨strings, rfl, -, kept⟩ := arrays item present
      rw [stringItems_tagJson, kept]
      rfl
    have same : event.unsigned = checked := by
      rw [signed, undiscarded, ← own]
    rw [same]
    refine ⟨?_, isCreatedAt, isContent, ?_, parsed, validated⟩
    · rw [isKind, cut, UInt16.toNat_ofNat_of_lt' bound]
    · rw [isTags, kept, map_stringItems fun tag member => ?_]
      obtain ⟨strings, isTag, nonempty, -⟩ := arrays tag member
      exact ⟨strings, isTag, nonempty⟩

end

/-! ### Two kinds -/

def askedKind (kind : Nat) : Json :=
  .object [("kind", .number (.posInt kind)), ("content", .string "hello"),
    ("created_at", .number (.posInt 1700000000)), ("tags", .array [tagJson ["t", "divine"]])]

def askedKindText (kind : Nat) : String :=
  s!"\x7b\"kind\":{kind},\"content\":\"hello\",\"created_at\":1700000000," ++
    "\"tags\":[[\"t\",\"divine\"]]\x7d"

def askedKindRequest (kind : Nat) : Json :=
  .object [("id", .string "1"), ("method", .string "sign_event"),
    ("params", .array [.string (askedKindText kind)])]

def tagsAuthor (author : PublicKey) (tag : List String) : Bool := tag.take 2 = ["p", author.hex]

def kindSigner (kind : Nat) : Crypto :=
  { sampleCrypto with
    parseJson := fun text =>
      if text = askedKindText kind then .ok (askedKind kind) else sampleCrypto.parseJson text
    buildEvent := fun keys event => .ok {
      id := "id"
      unsigned := { event with
        pubkey := keys.publicKey
        tags := event.tags.filter fun tag => !tagsAuthor keys.publicKey tag }
      sig := "sig" } }

theorem kindSigner_keeps (kind : Nat) : KeepsEvents (kindSigner kind) tagsAuthor where
  parseTag _ _ same := (Except.ok.inj same).symm
  buildEvent _ _ _ same := by rw [← Except.ok.inj same]

theorem handleSignEvent_asked_sample :
    ∃ event, handleSignEvent (kindSigner 1) sampleHandler sampleDatabase (askedKindRequest 1) =
        .ok event ∧
      Representable sampleHandler (askedKind 1) tagsAuthor ∧
      SignsAsked (kindSigner 1) sampleHandler sampleDatabase (askedKindRequest 1) (askedKind 1)
        event.unsigned := by
  have representable : Representable sampleHandler (askedKind 1) tagsAuthor := by
    constructor
    · intro kind same
      obtain rfl : 1 = kind := Option.some.inj same
      decide
    · intro items same tag member
      obtain rfl : [tagJson ["t", "divine"]] = items := Option.some.inj same
      obtain rfl := mem_singleton.mp member
      exact ⟨_, rfl, cons_ne_nil _ _, by decide⟩
  refine ⟨_, rfl, representable, ?_⟩
  exact (handleSignEvent_asked_iff (kindSigner_keeps 1) rfl rfl).mpr representable

/-- An event of the kind 65537 is signed as one of the kind 1. -/
theorem handleSignEvent_altered :
    ∃ event, handleSignEvent (kindSigner 65537) sampleHandler sampleDatabase
        (askedKindRequest 65537) = .ok event ∧
      event.unsigned.kind = 1 ∧
      ¬SignsAsked (kindSigner 65537) sampleHandler sampleDatabase (askedKindRequest 65537)
        (askedKind 65537) event.unsigned := by
  refine ⟨_, rfl, rfl, fun asks => ?_⟩
  have same : 65537 = 1 := Number.posInt.inj (Json.number.inj asks.kind)
  exact absurd same (by decide)

end Divine.Keycast
