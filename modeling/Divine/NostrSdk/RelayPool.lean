/-
This file embeds the pool of relays: the normal, temporary and cache relays, the
subscriptions and queries that are sent to them, and what the pool does when a relay sends
EOSE, OK, AUTH or CLOSED.
-/

import Divine.Library.Dictionary
import Divine.Library.Observer
import Mathlib.Data.List.Dedup
import Mathlib.Data.List.Infix

namespace Divine.NostrSdk

open Dictionary

/-! ### Relays -/

inductive RelayType where
  | normal
  | temp
  | local
  | cache
  deriving DecidableEq

/-- A subscription or a query, with whether it has an `onEose` callback. -/
structure Subscription where
  id : String
  filters : List String
  onEose : Bool
  deriving DecidableEq

inductive PoolMessage where
  | req (id : String) (filters : List String)
  | close (id : String)
  | auth (eventId : String)
  | event (json : String)
  deriving DecidableEq

def Subscription.toJson (subscription : Subscription) : PoolMessage :=
  .req subscription.id subscription.filters

structure PooledRelay where
  url : String
  readAccess : Bool
  alwaysAuth : Bool
  authed : Bool
  subscriptions : List (String × Subscription)
  queries : List (String × Subscription)
  pendingAuthedMessages : List PoolMessage
  deriving DecidableEq

namespace PooledRelay

def new (url : String) (readAccess alwaysAuth : Bool) : PooledRelay where
  url := url
  readAccess := readAccess
  alwaysAuth := alwaysAuth
  authed := false
  subscriptions := []
  queries := []
  pendingAuthedMessages := []

variable (relay : PooledRelay)

def saveSubscription (subscription : Subscription) : PooledRelay :=
  { relay with subscriptions := put relay.subscriptions subscription.id subscription }

def saveQuery (subscription : Subscription) : PooledRelay :=
  { relay with queries := put relay.queries subscription.id subscription }

def hasSubscription : Bool := !relay.subscriptions.isEmpty

def holds (id : String) : Bool := (find relay.subscriptions id).isSome

def checkQuery (id : String) : Bool := (find relay.queries id).isSome

/-- A message is kept back until the relay is authenticated, if it is not to make it send a
challenge. -/
def mustQueue (sendAfterAuth : Bool) : Bool :=
  (sendAfterAuth || relay.alwaysAuth) && !relay.authed &&
    !decide ("vine.hol.is".toList <:+: relay.url.toList)

end PooledRelay

/-! ### The pool -/

/-- What waits in an await: the end of `add`, a handler of EOSE for its CLOSE, and a handler of AUTH
for the signature. -/
inductive Suspended where
  | adding (relay : Nat) (autoSubscribe : Bool)
  | eose (relay : Nat) (subId : String) (isQuery : Bool)
  | signing (relay : Nat) (challenge : String)
  deriving DecidableEq

/-- The relay objects, the maps from addresses to them, and what the pool knows of subscriptions and
authentications. -/
structure RelayPool where
  objects : List PooledRelay
  relays : List (String × Nat)
  tempRelays : List (String × Nat)
  cacheRelays : List (String × Nat)
  subscriptions : List (String × Subscription)
  queryCompleteCallbacks : List String
  subscriptionEoseRelays : List (String × List String)
  pendingAuthEvents : List (String × String)
  suspended : List Suspended
  deriving DecidableEq

inductive PoolEffect where
  | send (relay : Nat) (message : PoolMessage)
  | onEose (id : String)
  | onComplete (id : String)
  deriving DecidableEq

abbrev PoolWork := RelayPool × List PoolEffect

/-- Which relays a subscription or a query goes to. -/
structure RelayChoice where
  tempRelays : List String
  targetRelays : Option (List String)
  relayTypes : List RelayType
  sendAfterAuth : Bool
  deriving DecidableEq

namespace RelayPool

def allRelays : RelayChoice where
  tempRelays := []
  targetRelays := none
  relayTypes := [.normal, .temp, .local, .cache]
  sendAfterAuth := false

def onlyRelay (url : String) : RelayChoice := { allRelays with targetRelays := some [url] }

def empty : RelayPool where
  objects := []
  relays := []
  tempRelays := []
  cacheRelays := []
  subscriptions := []
  queryCompleteCallbacks := []
  subscriptionEoseRelays := []
  pendingAuthEvents := []
  suspended := []

variable (pool : RelayPool)

def setObject (relay : Nat) (object : PooledRelay) : RelayPool :=
  { pool with objects := pool.objects.set relay object }

def entries : List (String × Nat) := pool.relays ++ pool.tempRelays ++ pool.cacheRelays

def satisfies (predicate : PooledRelay → Bool) (relay : Nat) : Bool :=
  pool.objects[relay]?.any predicate

/-! ### Adding and removing relays -/

/-- `add` up to its await. -/
def add (url : String) (relayType : RelayType) (readAccess alwaysAuth autoSubscribe : Bool) :
    RelayPool :=
  let added := { pool with
    objects := pool.objects ++ [.new url readAccess alwaysAuth]
    suspended := pool.suspended ++ [.adding pool.objects.length autoSubscribe] }
  match relayType with
  | .normal =>
      if (find pool.relays url).isSome then pool
      else { added with relays := put pool.relays url pool.objects.length }
  | .cache =>
      if (find pool.cacheRelays url).isSome then pool
      else { added with cacheRelays := put pool.cacheRelays url pool.objects.length }
  | .temp | .local => added

def remove (url : String) : RelayType → RelayPool
  | .normal => { pool with relays := Dictionary.remove pool.relays url }
  | .temp => { pool with tempRelays := Dictionary.remove pool.tempRelays url }
  | .cache => { pool with cacheRelays := Dictionary.remove pool.cacheRelays url }
  | .local => pool

def relayOrTemp (addr : String) : RelayPool × Nat :=
  match (find pool.relays addr).or (find pool.tempRelays addr) with
  | some relay => (pool, relay)
  | none =>
      ({ pool with
        objects := pool.objects ++ [.new addr true false]
        tempRelays := put pool.tempRelays addr pool.objects.length }, pool.objects.length)

/-! ### Subscriptions and queries -/

def relayDo (save : PooledRelay → PooledRelay) (subscription : Subscription) (sendAfterAuth : Bool)
    (work : PoolWork) (relay : Nat) : PoolWork :=
  match work.1.objects[relay]? with
  | none => work
  | some object =>
      if object.readAccess then
        if object.mustQueue sendAfterAuth then
          (work.1.setObject relay { save object with
            pendingAuthedMessages := object.pendingAuthedMessages ++ [subscription.toJson] },
            work.2)
        else (work.1.setObject relay (save object), work.2 ++ [.send relay subscription.toJson])
      else work

def relayDoSubscribe (subscription : Subscription) :=
  relayDo (fun object => object.saveSubscription subscription) subscription

def relayDoQuery (subscription : Subscription) :=
  relayDo (fun object => object.saveQuery subscription) subscription

/-- Something is done to the temporary relays that are asked for, to the targeted normal ones, and
to the cache relays. -/
def onRelays (choice : RelayChoice) (act : PoolWork → Nat → PoolWork) : PoolWork :=
  let temps :=
    if RelayType.temp ∈ choice.relayTypes then
      choice.tempRelays.foldl (fun work addr =>
        let found := work.1.relayOrTemp addr
        act (found.1, work.2) found.2) (pool, [])
    else (pool, [])
  let normal :=
    if RelayType.normal ∈ choice.relayTypes then
      (temps.1.relays.filter fun entry =>
        choice.targetRelays.all fun targets => targets.contains entry.1).map Prod.snd
    else []
  let cache :=
    if RelayType.cache ∈ choice.relayTypes then temps.1.cacheRelays.map Prod.snd else []
  (normal ++ cache).foldl act temps

def subscribe (subscription : Subscription) (choice : RelayChoice) : PoolWork :=
  onRelays { pool with subscriptions := put pool.subscriptions subscription.id subscription } choice
    (relayDoSubscribe subscription choice.sendAfterAuth)

def query (subscription : Subscription) (onComplete : Bool) (choice : RelayChoice) : PoolWork :=
  onRelays { pool with
    queryCompleteCallbacks :=
      if onComplete then pool.queryCompleteCallbacks.insert subscription.id
      else pool.queryCompleteCallbacks } choice
    (relayDoQuery subscription choice.sendAfterAuth)

/-- `checkAndCompleteSubscription`. -/
def closeSubscription (id : String) (work : PoolWork) (relay : Nat) : PoolWork :=
  match work.1.objects[relay]? with
  | none => work
  | some object =>
      if object.holds id then
        (work.1.setObject relay { object with
          subscriptions := Dictionary.remove object.subscriptions id },
          work.2 ++ [.send relay (.close id)])
      else work

/-- `checkAndCompleteQuery` up to its await. -/
def closeQuery (id : String) (work : PoolWork) (relay : Nat) : PoolWork :=
  match work.1.objects[relay]? with
  | none => work
  | some object =>
      if object.checkQuery id then
        (work.1.setObject relay { object with queries := Dictionary.remove object.queries id },
          work.2 ++ [.send relay (.close id)])
      else work

def unsubscribe (id : String) : PoolWork :=
  let cleared := { pool with
    subscriptions := Dictionary.remove pool.subscriptions id
    subscriptionEoseRelays := Dictionary.remove pool.subscriptionEoseRelays id }
  let close := if (find pool.subscriptions id).isSome then closeSubscription else closeQuery
  (pool.entries.map Prod.snd).foldl (close id) (cleared, [])

def sendTo (message : PoolMessage) (relay : Nat) : Option PoolWork :=
  pool.objects[relay]?.map fun object =>
    if object.mustQueue false then
      (pool.setObject relay { object with
        pendingAuthedMessages := object.pendingAuthedMessages ++ [message] }, [])
    else (pool, [.send relay message])

/-! ### Messages of relays -/

def eose (relay : Nat) (subId : String) : Option PoolWork :=
  pool.objects[relay]?.map fun object =>
    let closed := closeQuery subId (pool, []) relay
    ({ closed.1 with
      suspended := pool.suspended ++ [.eose relay subId (object.checkQuery subId)] }, closed.2)

def relaysWithSubscription : List String :=
  ((pool.entries.filter fun entry => pool.satisfies PooledRelay.hasSubscription entry.2).map
    Prod.fst).dedup

/-- A relay that is looked at has not completed a query. -/
def queryOutstanding (subId : String) : Bool :=
  (pool.relays ++ pool.tempRelays).any fun entry =>
    pool.satisfies (fun object => object.checkQuery subId) entry.2

def eoseOfQuery (subId : String) : PoolWork :=
  if subId ∈ pool.queryCompleteCallbacks ∧ pool.queryOutstanding subId = false then
    ({ pool with queryCompleteCallbacks := pool.queryCompleteCallbacks.erase subId },
      [.onComplete subId])
  else (pool, [])

/-- The relays that EOSE was received from, with one more. -/
def tracked (subId url : String) : List String :=
  ((find pool.subscriptionEoseRelays subId).getD []).insert url

def eoseOfSubscription (subId url : String) : PoolWork :=
  if (find pool.subscriptions subId).any Subscription.onEose then
    if pool.relaysWithSubscription.length ≤ (pool.tracked subId url).length then
      ({ pool with
        subscriptionEoseRelays := Dictionary.remove pool.subscriptionEoseRelays subId },
        [.onEose subId])
    else
      ({ pool with
        subscriptionEoseRelays :=
          put pool.subscriptionEoseRelays subId (pool.tracked subId url) }, [])
  else (pool, [])

def ok (relay : Nat) (eventId : String) (success : Bool) : Option PoolWork :=
  pool.objects[relay]?.map fun object =>
    if (find pool.pendingAuthEvents eventId).isSome then
      let cleared := { pool with
        pendingAuthEvents := Dictionary.remove pool.pendingAuthEvents eventId }
      if success then
        (cleared.setObject relay { object with authed := true, pendingAuthedMessages := [] },
          object.pendingAuthedMessages.map (.send relay) ++
            object.subscriptions.map fun entry => .send relay entry.2.toJson)
      else (cleared.setObject relay { object with authed := false }, [])
    else (pool, [])

/-- The start of the handler of AUTH, which throws on a short challenge. -/
def auth (relay : Nat) (challenge : String) : Option PoolWork :=
  pool.objects[relay]?.map fun _ =>
    if challenge.length < 16 then (pool, [])
    else ({ pool with suspended := pool.suspended ++ [.signing relay challenge] }, [])

end RelayPool

/-! ### Steps -/

inductive PoolAction where
  | add (url : String) (relayType : RelayType) (readAccess alwaysAuth autoSubscribe : Bool)
  | remove (url : String) (relayType : RelayType)
  | connect (relay : Nat)
  | reconnected (relay : Nat)
  | disconnected (relay : Nat)
  | setRelayAlwaysAuth (url : String) (alwaysAuth : Bool)
  | subscribe (subscription : Subscription) (choice : RelayChoice)
  | unsubscribe (id : String)
  | query (subscription : Subscription) (onComplete : Bool) (choice : RelayChoice)
  | sendTo (message : PoolMessage) (relay : Nat)
  | eose (relay : Nat) (subId : String)
  | ok (relay : Nat) (eventId : String) (success : Bool)
  | auth (relay : Nat) (challenge : String)
  | closed (relay : Nat) (subId : String)
  | resumeAdd (index : Nat) (connected : Bool)
  | resumeEose (index : Nat)
  | resumeAuth (index : Nat) (eventId : Option String)
  deriving DecidableEq

namespace RelayPool

variable (pool : RelayPool)

def resumed (index : Nat) : RelayPool :=
  { pool with suspended := pool.suspended.eraseIdx index }

def resumeAdd (index : Nat) (connected : Bool) : Option PoolWork :=
  match pool.suspended[index]? with
  | some (.adding relay autoSubscribe) =>
      some (pool.resumed index,
        if connected && autoSubscribe then
          pool.subscriptions.map fun entry => .send relay entry.2.toJson
        else [])
  | _ => none

def resumeEose (index : Nat) : Option PoolWork :=
  match pool.suspended[index]? with
  | some (.eose relay subId isQuery) =>
      pool.objects[relay]?.map fun object =>
        if isQuery then (pool.resumed index).eoseOfQuery subId
        else (pool.resumed index).eoseOfSubscription subId object.url
  | _ => none

def resumeAuth (index : Nat) (eventId : Option String) : Option PoolWork :=
  match pool.suspended[index]? with
  | some (.signing relay _) =>
      pool.objects[relay]?.map fun object =>
        match eventId with
        | none => (pool.resumed index, [])
        | some eventId =>
            ({ pool.resumed index with
              pendingAuthEvents := put pool.pendingAuthEvents eventId object.url },
              [.send relay (.auth eventId)])
  | _ => none

end RelayPool

/-- A connection that comes back by itself or is lost leaves the pool as it is, and so does a
CLOSED. -/
def poolStep (pool : RelayPool) : PoolAction → Option PoolWork
  | .add url relayType readAccess alwaysAuth autoSubscribe =>
      some (pool.add url relayType readAccess alwaysAuth autoSubscribe, [])
  | .remove url relayType => some (pool.remove url relayType, [])
  | .connect relay =>
      pool.objects[relay]?.map fun object =>
        (pool.setObject relay { object with authed := false }, [])
  | .reconnected relay | .disconnected relay | .closed relay _ =>
      pool.objects[relay]?.map fun _ => (pool, [])
  | .setRelayAlwaysAuth url alwaysAuth =>
      some (((find pool.relays url).bind fun relay => pool.objects[relay]?.map fun object =>
        (pool.setObject relay { object with alwaysAuth := alwaysAuth }, [])).getD (pool, []))
  | .subscribe subscription choice => some (pool.subscribe subscription choice)
  | .unsubscribe id => some (pool.unsubscribe id)
  | .query subscription onComplete choice => some (pool.query subscription onComplete choice)
  | .sendTo message relay => pool.sendTo message relay
  | .eose relay subId => pool.eose relay subId
  | .ok relay eventId success => pool.ok relay eventId success
  | .auth relay challenge => pool.auth relay challenge
  | .resumeAdd index connected => pool.resumeAdd index connected
  | .resumeEose index => pool.resumeEose index
  | .resumeAuth index eventId => pool.resumeAuth index eventId

end Divine.NostrSdk
