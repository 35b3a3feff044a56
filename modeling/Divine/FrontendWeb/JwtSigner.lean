/-
This file runs the calls of the web signer from one `await` to the next.
-/

import Divine.Library.Interleaving

namespace Divine.FrontendWeb

open Interleaving

/-! ### Requests -/

inductive Request where
  | pubkey
  | sign
  deriving DecidableEq

/-- What a promise of the network ends with. -/
inductive Reception where
  | received
  | timeout
  | failed (message : String)
  deriving DecidableEq

/-- How a request is answered: the response, its status and error when it is refused, and its
body. -/
structure Network where
  response : Reception
  refusal : Option (Nat × Option String)
  body : Reception
  deriving DecidableEq

/-- A call before a statement, with its token and the number of updates of the token before it
began. -/
inductive SignerCall where
  | start (request : Request) (network : Network)
  | fetching (request : Request) (token : String) (epoch : Nat) (network : Network)
  | refusing (request : Request) (epoch status : Nat) (error : Option String)
  | reading (request : Request) (token : String) (epoch : Nat) (body : Reception)
  deriving DecidableEq

/-! ### The signer -/

/-- `KeycastJWTSigner`, the number of updates of its token, and the keys returned after each number
of them. -/
structure KeycastJWTSigner where
  token : String
  cachedPubkey : Option String
  updates : Nat
  returned : List (Nat × Except String String)
  deriving DecidableEq

namespace KeycastJWTSigner

variable (signer : KeycastJWTSigner)

def new (token : String) : KeycastJWTSigner where
  token := token
  cachedPubkey := none
  updates := 0
  returned := []

/-- A call ends. Only the results of `getPublicKey` are followed. -/
def finish (request : Request) (epoch : Nat) (result : Except String String) :
    KeycastJWTSigner × Option SignerCall :=
  match request with
  | .pubkey => ({ signer with returned := signer.returned ++ [(epoch, result)] }, none)
  | .sign => (signer, none)

def timeoutMessage : Request → String
  | .pubkey => "Request timeout: Failed to get public key"
  | .sign => "Request timeout: Failed to sign event"

def refusalMessage (status : Nat) : Request → String
  | .pubkey => s!"Failed to get public key: {status}"
  | .sign => s!"Failed to sign event: {status}"

variable (userPubkey : String → Option String)

/-- The key that the service answers to a token, unless it is missing. -/
def servedPubkey (token : String) : Option String :=
  (userPubkey token).filter fun pubkey => pubkey ≠ ""

/-- `getPublicKey` and `signEvent`, up to the next `await`. -/
def advance : SignerCall → KeycastJWTSigner × Option SignerCall
  | .start .pubkey network =>
      match signer.cachedPubkey with
      | some pubkey => signer.finish .pubkey signer.updates (.ok pubkey)
      | none => (signer, some (.fetching .pubkey signer.token signer.updates network))
  | .start .sign network =>
      (signer, some (.fetching .sign signer.token signer.updates network))
  | .fetching request token epoch network =>
      match network.response with
      | .timeout => signer.finish request epoch (.error (timeoutMessage request))
      | .failed message => signer.finish request epoch (.error message)
      | .received =>
          match network.refusal with
          | some (status, error) => (signer, some (.refusing request epoch status error))
          | none => (signer, some (.reading request token epoch network.body))
  | .refusing request epoch status error =>
      signer.finish request epoch (.error
        ((error.filter fun message => message ≠ "").getD (refusalMessage status request)))
  | .reading request token epoch body =>
      match body with
      | .timeout => signer.finish request epoch (.error (timeoutMessage request))
      | .failed message => signer.finish request epoch (.error message)
      | .received =>
          match request with
          | .sign => (signer, none)
          | .pubkey =>
              match servedPubkey userPubkey token with
              | none => signer.finish .pubkey epoch (.error "Invalid response: missing pubkey")
              | some pubkey =>
                  { signer with cachedPubkey := some pubkey }.finish .pubkey epoch (.ok pubkey)

def updateToken (newToken : String) : KeycastJWTSigner :=
  { signer with
    token := newToken
    cachedPubkey := none
    updates := signer.updates + 1 }

end KeycastJWTSigner

/-- Calls begin at their first statement, and between them the token is updated. -/
def signerSystem (userPubkey : String → Option String) :
    System KeycastJWTSigner SignerCall String where
  starts _ call := match call with
    | .start _ _ => true
    | _ => false
  advance signer call := signer.advance userPubkey call
  environment signer newToken := some (signer.updateToken newToken)

abbrev SignerPool := Pool KeycastJWTSigner SignerCall

/-! ### The identity of the token -/

section Identity

variable (userPubkey : String → Option String)

/-- What was returned to the calls that began after the last update is the key of the token. -/
def Identifies (signer : KeycastJWTSigner) : Prop :=
  ∀ pubkey, (signer.updates, .ok pubkey) ∈ signer.returned → userPubkey signer.token = some pubkey

/-- What a call is about to fill the cache with is the key of the token. -/
def Fills (signer : KeycastJWTSigner) : SignerCall → Prop
  | .reading .pubkey token _ .received =>
      ∀ pubkey ∈ KeycastJWTSigner.servedPubkey userPubkey token,
        userPubkey signer.token = some pubkey
  | _ => True

/-- The answer that fills the cache has the key of the token that the signer has then. -/
def FillsCurrent (pool : SignerPool) : Action SignerCall String → Prop
  | .start _ | .environment _ => True
  | .step index => ∀ call ∈ pool.calls[index]?, Fills userPubkey pool.shared call

instance decidableFills (signer : KeycastJWTSigner) :
    ∀ call, Decidable (Fills userPubkey signer call)
  | .reading .pubkey token _ .received =>
      inferInstanceAs (Decidable (∀ pubkey ∈ KeycastJWTSigner.servedPubkey userPubkey token,
        userPubkey signer.token = some pubkey))
  | .start _ _ | .fetching _ _ _ _ | .refusing _ _ _ _ | .reading .sign _ _ _
  | .reading .pubkey _ _ .timeout | .reading .pubkey _ _ (.failed _) => isTrue trivial

instance decidableFillsCurrent (pool : SignerPool) :
    ∀ action, Decidable (FillsCurrent userPubkey pool action)
  | .start _ | .environment _ => isTrue trivial
  | .step index =>
      inferInstanceAs (Decidable (∀ call ∈ pool.calls[index]?, Fills userPubkey pool.shared call))

/-- The cache has the key of the token, and so have the calls begun after the last update. -/
structure Consistent (signer : KeycastJWTSigner) : Prop where
  cached : ∀ pubkey, signer.cachedPubkey = some pubkey → userPubkey signer.token = some pubkey
  identifies : Identifies userPubkey signer
  epochs : ∀ entry ∈ signer.returned, entry.1 ≤ signer.updates

/-- A request that began after the last update carries the token. -/
def Carries (signer : KeycastJWTSigner) : SignerCall → Prop
  | .start _ _ => True
  | .fetching _ token epoch _ | .reading _ token epoch _ =>
      epoch ≤ signer.updates ∧ (epoch = signer.updates → token = signer.token)
  | .refusing _ epoch _ _ => epoch ≤ signer.updates

variable {userPubkey} {signer : KeycastJWTSigner} {call : SignerCall}

theorem finish_fst (signer : KeycastJWTSigner) (request : Request) (epoch : Nat)
    (result : Except String String) :
    ∃ added, (signer.finish request epoch result).1 =
        { signer with returned := signer.returned ++ added } ∧
      ∀ entry ∈ added, entry = (epoch, result) := by
  cases request with
  | pubkey => exact ⟨[(epoch, result)], rfl, fun entry member => List.mem_singleton.mp member⟩
  | sign =>
    refine ⟨[], ?_, nofun⟩
    rw [List.append_nil]
    rfl

theorem finish_snd (signer : KeycastJWTSigner) (request : Request) (epoch : Nat)
    (result : Except String String) :
    (signer.finish request epoch result).2 = none := by
  cases request <;> rfl

/-- A call may end with an error, or with the key of the token if it began after the last update. -/
theorem Consistent.finish (consistent : Consistent userPubkey signer) {request : Request}
    {epoch : Nat} {result : Except String String} (began : epoch ≤ signer.updates)
    (own : ∀ pubkey, result = .ok pubkey → epoch = signer.updates →
      userPubkey signer.token = some pubkey) :
    Consistent userPubkey (signer.finish request epoch result).1 := by
  obtain ⟨added, same, each⟩ := finish_fst signer request epoch result
  rw [same]
  refine ⟨consistent.cached, fun pubkey member => ?_, fun entry member => ?_⟩
  · rcases List.mem_append.mp member with before | late
    · exact consistent.identifies pubkey before
    · obtain ⟨sameEpoch, sameResult⟩ := Prod.mk.inj (each _ late)
      exact own pubkey sameResult.symm sameEpoch.symm
  · rcases List.mem_append.mp member with before | late
    · exact consistent.epochs entry before
    · rw [each entry late]
      exact began

theorem Carries.congr {other : KeycastJWTSigner} (carries : Carries signer call)
    (token : other.token = signer.token) (updates : other.updates = signer.updates) :
    Carries other call := by
  cases call with
  | start request network => trivial
  | refusing request epoch status error =>
    show epoch ≤ other.updates
    exact updates ▸ carries
  | fetching request carried epoch network =>
    show epoch ≤ other.updates ∧ (epoch = other.updates → carried = other.token)
    rw [token, updates]
    exact carries
  | reading request carried epoch body =>
    show epoch ≤ other.updates ∧ (epoch = other.updates → carried = other.token)
    rw [token, updates]
    exact carries

/-- A stage goes on with the same token, ends with an error or the cached key, or fills the cache.
-/
theorem advance_cases (userPubkey : String → Option String) (signer : KeycastJWTSigner)
    (call : SignerCall) :
    (∃ stage, signer.advance userPubkey call = (signer, some stage) ∧
      (Carries signer call → Carries signer stage)) ∨
    (∃ request epoch result, signer.advance userPubkey call = signer.finish request epoch result ∧
      (Carries signer call → epoch ≤ signer.updates) ∧
      ∀ pubkey, result = .ok pubkey → signer.cachedPubkey = some pubkey) ∨
    ∃ token epoch pubkey, call = .reading .pubkey token epoch .received ∧
      KeycastJWTSigner.servedPubkey userPubkey token = some pubkey ∧
      signer.advance userPubkey call =
        { signer with cachedPubkey := some pubkey }.finish .pubkey epoch (.ok pubkey) := by
  have failed : ∀ message pubkey, (.error message : Except String String) = .ok pubkey →
      signer.cachedPubkey = some pubkey := nofun
  cases call with
  | start request network =>
    cases request with
    | sign => exact .inl ⟨_, rfl, fun _ => ⟨le_rfl, fun _ => rfl⟩⟩
    | pubkey =>
      simp only [KeycastJWTSigner.advance]
      cases signer.cachedPubkey with
      | none => exact .inl ⟨_, rfl, fun _ => ⟨le_rfl, fun _ => rfl⟩⟩
      | some held =>
        refine .inr (.inl ⟨.pubkey, signer.updates, .ok held, rfl, fun _ => le_rfl, ?_⟩)
        exact fun pubkey same => congrArg some (Except.ok.inj same)
  | fetching request token epoch network =>
    simp only [KeycastJWTSigner.advance]
    cases network.response with
    | timeout => exact .inr (.inl ⟨request, epoch, _, rfl, fun carries => carries.1, failed _⟩)
    | failed message =>
      exact .inr (.inl ⟨request, epoch, _, rfl, fun carries => carries.1, failed _⟩)
    | received =>
      cases network.refusal with
      | none => exact .inl ⟨_, rfl, fun carries => carries⟩
      | some refused => exact .inl ⟨_, rfl, fun carries => carries.1⟩
  | refusing request epoch status error =>
    exact .inr (.inl ⟨request, epoch, _, rfl, fun carries => carries, failed _⟩)
  | reading request token epoch body =>
    simp only [KeycastJWTSigner.advance]
    cases body with
    | timeout => exact .inr (.inl ⟨request, epoch, _, rfl, fun carries => carries.1, failed _⟩)
    | failed message =>
      exact .inr (.inl ⟨request, epoch, _, rfl, fun carries => carries.1, failed _⟩)
    | received =>
      cases request with
      | sign => exact .inr (.inl ⟨.sign, epoch, .error "", rfl, fun carries => carries.1, failed _⟩)
      | pubkey =>
        cases served : KeycastJWTSigner.servedPubkey userPubkey token with
        | none =>
          exact .inr (.inl ⟨.pubkey, epoch, _, rfl, fun carries => carries.1, failed _⟩)
        | some pubkey => exact .inr (.inr ⟨token, epoch, pubkey, rfl, served, rfl⟩)

theorem advance_keeps (userPubkey : String → Option String) (signer : KeycastJWTSigner)
    (call : SignerCall) :
    (signer.advance userPubkey call).1.token = signer.token ∧
      (signer.advance userPubkey call).1.updates = signer.updates := by
  rcases advance_cases userPubkey signer call with ⟨stage, same, -⟩ |
    ⟨request, epoch, result, same, -⟩ | ⟨token, epoch, pubkey, -, -, same⟩
  · rw [same]
    exact ⟨rfl, rfl⟩
  · obtain ⟨added, ended, -⟩ := finish_fst signer request epoch result
    rw [same, ended]
    exact ⟨rfl, rfl⟩
  · rw [same]
    exact ⟨rfl, rfl⟩

/-- A stage keeps consistent when an answer that fills the cache has the key of the token. -/
theorem Consistent.advance (consistent : Consistent userPubkey signer)
    (carries : Carries signer call)
    (fills : Fills userPubkey signer call) :
    Consistent userPubkey (signer.advance userPubkey call).1 := by
  rcases advance_cases userPubkey signer call with ⟨stage, same, -⟩ |
    ⟨request, epoch, result, same, began, held⟩ | ⟨token, epoch, pubkey, rfl, served, same⟩
  · rw [same]
    exact consistent
  · rw [same]
    exact consistent.finish (began carries) fun pubkey ok _ =>
      consistent.cached pubkey (held pubkey ok)
  · have own : userPubkey signer.token = some pubkey := fills pubkey served
    have filled : Consistent userPubkey { signer with cachedPubkey := some pubkey } :=
      ⟨fun other same => Option.some.inj same ▸ own, consistent.identifies, consistent.epochs⟩
    rw [same]
    exact filled.finish carries.1 fun other ok _ => Except.ok.inj ok ▸ own

theorem Carries.advance (carries : Carries signer call) {stage : SignerCall}
    (next : (signer.advance userPubkey call).2 = some stage) : Carries signer stage := by
  rcases advance_cases userPubkey signer call with ⟨other, same, goesOn⟩ |
    ⟨request, epoch, result, same, -⟩ | ⟨token, epoch, pubkey, -, -, same⟩
  · rw [same] at next
    exact Option.some.inj next ▸ goesOn carries
  · rw [same, finish_snd] at next
    cases next
  · rw [same, finish_snd] at next
    cases next

/-- A step keeps consistent, and requests begun after the last update carry the token. -/
theorem poolStep_consistent {pool next : SignerPool} {action : Action SignerCall String}
    (asserted : Asserted (Consistent userPubkey) Carries pool)
    (fills : FillsCurrent userPubkey pool action)
    (stepped : poolStep (signerSystem userPubkey) pool action = some next) :
    Asserted (Consistent userPubkey) Carries next := by
  refine asserted.step (signerSystem userPubkey) ?_ ?_ ?_ stepped
  · rintro call rfl starts
    cases call with
    | start request network => trivial
    | fetching | refusing | reading => cases starts
  · rintro index call rfl present
    have carries := asserted.calls call (List.mem_of_getElem? present)
    obtain ⟨token, updates⟩ := advance_keeps userPubkey pool.shared call
    refine ⟨asserted.common.advance carries (fills call present), fun stage goesOn => ?_,
      fun other left => ?_⟩
    · exact (carries.advance goesOn).congr token updates
    · exact (asserted.calls other (List.mem_of_mem_eraseIdx left)).congr token updates
  · rintro newToken shared - moved
    cases moved
    -- every call so far began before the update
    refine ⟨⟨fun _ absent => (by cases absent), fun pubkey member => ?_, fun entry member => ?_⟩,
      fun call member => ?_⟩
    · have early := asserted.common.epochs _ member
      exact absurd early (Nat.not_succ_le_self _)
    · exact Nat.le_succ_of_le (asserted.common.epochs entry member)
    · have carries := asserted.calls call member
      cases call with
      | start request network => trivial
      | refusing request epoch status error => exact Nat.le_succ_of_le carries
      | fetching | reading =>
        refine ⟨Nat.le_succ_of_le carries.1, fun same => ?_⟩
        exact absurd (same ▸ carries.1) (Nat.not_succ_le_self _)

/-- Every call that began after the last update is given the key of the token, when each answer that
fills the cache has that key. -/
theorem getPublicKey_identifies {token : String} {actions : List (Action SignerCall String)}
    {pool : SignerPool}
    (fills : Transition.Meets (poolStep (signerSystem userPubkey)) (FillsCurrent userPubkey)
      (.idle (.new token)) actions)
    (ran : Transition.run (poolStep (signerSystem userPubkey)) (.idle (.new token)) actions =
      some pool) : Identifies userPubkey pool.shared := by
  have fresh : Asserted (Consistent userPubkey) Carries (.idle (.new token)) :=
    ⟨⟨fun _ absent => (by cases absent), nofun,
      nofun⟩,
      nofun⟩
  exact (Transition.invariant_of_meets _ (fun _ _ _ asserted fills stepped =>
    poolStep_consistent asserted fills stepped) fresh fills ran).common.identifies

end Identity

/-! ### A late answer -/

def sampleUsers (token : String) : Option String := some (token ++ "-key")

def answered : Network := ⟨.received, none, .received⟩

/-- The key is fetched, the token is updated, and the key is fetched again. -/
def switches : List (Action SignerCall String) :=
  [.start (.start .pubkey answered), .step 0, .step 0, .step 0, .environment "bob",
    .start (.start .pubkey answered), .step 0, .step 0, .step 0]

theorem getPublicKey_identifies_sample : ∃ pool,
    Transition.run (poolStep (signerSystem sampleUsers)) (.idle (.new "alice")) switches =
      some pool ∧ Identifies sampleUsers pool.shared := by
  refine Transition.exists_of_isSome (by decide +kernel) fun pool ran => ?_
  exact getPublicKey_identifies (by decide +kernel) ran

/-- The token is updated while the key of the old one is fetched, which is returned to the next
call. -/
theorem getPublicKey_misidentifies : ∃ pool,
    Transition.run (poolStep (signerSystem sampleUsers)) (.idle (.new "alice"))
        [.start (.start .pubkey answered), .step 0, .environment "bob", .step 0, .step 0,
          .start (.start .pubkey answered), .step 0] = some pool ∧
      ¬Identifies sampleUsers pool.shared := by
  refine ⟨_, rfl, fun identifies => ?_⟩
  have other := identifies "alice-key" (by decide +kernel)
  revert other
  decide +kernel

end Divine.FrontendWeb
