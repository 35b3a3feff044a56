/-
This file settles whose responses a request can complete with.
-/

import Divine.NostrSdk.RemoteSigner
import Divine.Library.Transition

namespace Divine.NostrSdk.NostrRemoteSigner

open List Option Promise

variable {library : SignerLibrary} {info : SignerInfo} {actions : List SignerAction}
  {signer : NostrRemoteSigner}

/-! ### Responses that were heard -/

/-- An event of the run, of any author, decrypts with the key of the client to a response with the
id. -/
def Heard (library : SignerLibrary) (info : SignerInfo) (actions : List SignerAction) (id : String)
    (response : NostrRemoteResponse) : Prop :=
  response.id = id ∧ ∃ relay event privateKey,
    SignerAction.message relay (.event (some event)) ∈ actions ∧
      event.kind = nostrRemoteSigning ∧
      info.nsec.map library.decodeNip19 = some privateKey ∧
      decryptResponse library.response privateKey event.pubkey event.content = .ok (some response)

/-- Values and bunker errors come from a response that was heard; a request that was not sent
completes with null. -/
def Attributed (library : SignerLibrary) (info : SignerInfo) (actions : List SignerAction)
    (id : String) : RequestOutcome → Prop
  | .value (some result) => ∃ response, Heard library info actions id response ∧
      response.isAuthUrl = false ∧ response.isError = false ∧ response.result = result
  | .bunkerError error => ∃ response, Heard library info actions id response ∧
      response.isAuthUrl = false ∧ response.isError = true ∧ response.error = some error
  | .value none | .timedOut | .closed | .thrown => True

theorem attributed_outcomeOf {response : NostrRemoteResponse}
    (heard : Heard library info actions response.id response)
    (noChallenge : response.isAuthUrl = false) :
    Attributed library info actions response.id (outcomeOf response) := by
  unfold outcomeOf
  by_cases failed : response.isError = true
  · rw [if_pos failed]
    refine ⟨response, heard, noChallenge, failed, ?_⟩
    obtain ⟨error, present⟩ := isSome_iff_exists.mp (Bool.and_eq_true_iff.mp failed).1
    rw [present]
    rfl
  · rw [if_neg failed]
    exact ⟨response, heard, noChallenge, Bool.eq_false_of_not_eq_true failed, rfl⟩

/-! ### The invariant -/

/-- What holds of every client in a run with the actions. -/
structure Traced (library : SignerLibrary) (info : SignerInfo) (actions : List SignerAction)
    (signer : NostrRemoteSigner) : Prop where
  key : ∀ privateKey, signer.localNostrSigner = some privateKey →
    info.nsec.map library.decodeNip19 = some privateKey
  decryptions : ∀ decryption ∈ signer.decryptions,
    (∃ relay, SignerAction.message relay (.event (some decryption.event)) ∈ actions) ∧
      decryption.event.kind = nostrRemoteSigning ∧
      info.nsec.map library.decodeNip19 = some decryption.privateKey
  callbacks : ∀ entry ∈ signer.callbacks, entry.2 < signer.completers.length ∧
    ∀ call ∈ signer.calls, call.stage = .waiting entry.2 → call.id = entry.1
  waiting : ∀ call ∈ signer.calls, ∀ completer, call.stage = .waiting completer →
    completer < signer.completers.length
  outcomes : ∀ call ∈ signer.calls, ∀ outcome, signer.outcome call = some outcome →
    Attributed library info actions call.id outcome
  opened : ∀ call ∈ signer.authUrlCalls, call.id ∈ signer.openedAuthUrls ∧
    ∃ response, Heard library info actions call.id response ∧
      response.isAuthUrl = true ∧ response.error = some call.authUrl
  once : (signer.authUrlCalls.map AuthUrlCall.id).Nodup

variable {next : NostrRemoteSigner}

section

variable (traced : Traced library info actions signer)

include traced

theorem Traced.of_frame (key : next.localNostrSigner = signer.localNostrSigner)
    (decryptions : next.decryptions ⊆ signer.decryptions)
    (callbacks : next.callbacks ⊆ signer.callbacks)
    (completers : next.completers = signer.completers) (calls : next.calls = signer.calls)
    (authUrlCalls : next.authUrlCalls = signer.authUrlCalls)
    (openedAuthUrls : next.openedAuthUrls = signer.openedAuthUrls) :
    Traced library info actions next := by
  refine ⟨?_, fun decryption member => traced.decryptions decryption (decryptions member), ?_, ?_,
    ?_, ?_, ?_⟩
  · rw [key]
    exact traced.key
  · rw [completers, calls]
    exact fun entry member => traced.callbacks entry (callbacks member)
  · rw [completers, calls]
    exact traced.waiting
  · have same : ∀ call, next.outcome call = signer.outcome call := fun call => by
      unfold outcome
      rw [completers]
    rw [calls]
    intro call member outcome ended
    exact traced.outcomes call member outcome ((same call).symm.trans ended)
  · rw [authUrlCalls, openedAuthUrls]
    exact traced.opened
  · rw [authUrlCalls]
    exact traced.once

theorem Traced.forget (id : String) :
    Traced library info actions (signer.forget id) :=
  traced.of_frame rfl (List.Subset.refl _)
    (fun _ member => Dictionary.mem_remove member) rfl rfl rfl
    rfl

theorem Traced.of_calls {calls : List RequestCall} (added : ∀ call ∈ calls, call ∈ signer.calls ∨
      (∀ completer, call.stage ≠ .waiting completer) ∧
        ∀ outcome, call.stage = .ended outcome → Attributed library info actions call.id outcome) :
    Traced library info actions { signer with calls := calls } := by
  refine ⟨traced.key, traced.decryptions, fun entry member => ⟨(traced.callbacks entry member).1,
    fun call among waits => ?_⟩, fun call among completer waits => ?_,
    fun call among given ends => ?_, traced.opened, traced.once⟩
  · rcases added call among with before | ⟨idle, -⟩
    · exact (traced.callbacks entry member).2 call before waits
    · exact absurd waits (idle entry.2)
  · rcases added call among with before | ⟨idle, -⟩
    · exact traced.waiting call before completer waits
    · exact absurd waits (idle completer)
  · rcases added call among with before | ⟨idle, attributed⟩
    · exact traced.outcomes call before given ends
    · refine attributed given ?_
      unfold outcome at ends
      cases stage : call.stage with
      | preparing request =>
        rw [stage] at ends
        cases ends
      | waiting completer => exact absurd stage (idle completer)
      | ended outcome =>
        rw [stage] at ends
        rw [Option.some.inj ends]

theorem Traced.ended (place : Nat) (call : RequestCall)
    {outcome : RequestOutcome} (silent : ∀ id, Attributed library info actions id outcome) :
    Traced library info actions (signer.proceedTo place call (.ended outcome)) := by
  refine traced.of_calls fun other member => ?_
  rcases mem_or_eq_of_mem_set member with before | rfl
  · exact .inl before
  · refine .inr ⟨nofun, fun given ends => ?_⟩
    rw [← RequestStage.ended.inj ends]
    exact silent call.id

theorem Traced.register (place : Nat) (call : RequestCall) (event : RequestEvent) :
    Traced library info actions (signer.register place call event) := by
  have cases : ∀ other ∈ (signer.register place call event).calls,
      other ∈ signer.calls ∨ other = { call with stage := .waiting signer.completers.length } :=
    fun other member => mem_or_eq_of_mem_set member
  have longer : (signer.register place call event).completers.length =
      signer.completers.length + 1 := length_allocate _
  refine ⟨traced.key, traced.decryptions, fun entry member => ⟨?_, fun other among waits => ?_⟩,
    fun other among completer waits => ?_, fun other among given ends => ?_, traced.opened,
    traced.once⟩
  · rw [longer]
    rcases Dictionary.mem_put member with before | rfl
    · exact Nat.lt_succ_of_lt (traced.callbacks entry before).1
    · exact Nat.lt_succ_self _
  · rcases Dictionary.mem_put member with before | rfl
    · rcases cases other among with present | rfl
      · exact (traced.callbacks entry before).2 other present waits
      · -- the completer is a new one
        injection waits with same
        exact absurd (same ▸ (traced.callbacks entry before).1) (Nat.lt_irrefl _)
    · rcases cases other among with present | rfl
      · exact absurd (traced.waiting other present _ waits) (Nat.lt_irrefl _)
      · rfl
  · rw [longer]
    rcases cases other among with present | rfl
    · exact Nat.lt_succ_of_lt (traced.waiting other present completer waits)
    · injection waits with same
      rw [← same]
      exact Nat.lt_succ_self _
  · rcases cases other among with present | rfl
    · refine traced.outcomes other present given ?_
      rw [← ends]
      unfold outcome
      cases other.stage with
      | waiting completer => exact (settled_allocate signer.completers completer).symm
      | preparing | ended => rfl
    · have pending : settled (allocate signer.completers) signer.completers.length = none := by
        rw [settled_allocate]
        exact settled_of_le (Nat.le_refl _)
      have settles : settled (allocate signer.completers) signer.completers.length = some given :=
        ends
      rw [pending] at settles
      cases settles

theorem Traced.of_completers (key : next.localNostrSigner = signer.localNostrSigner)
    (decryptions : next.decryptions = signer.decryptions)
    (callbacks : next.callbacks ⊆ signer.callbacks)
    (completers : next.completers.length = signer.completers.length)
    (calls : next.calls = signer.calls) (authUrlCalls : next.authUrlCalls = signer.authUrlCalls)
    (openedAuthUrls : next.openedAuthUrls = signer.openedAuthUrls)
    (completed : ∀ call ∈ signer.calls, ∀ completer outcome, call.stage = .waiting completer →
      settled next.completers completer = some outcome →
      settled signer.completers completer = some outcome ∨
        Attributed library info actions call.id outcome) :
    Traced library info actions next := by
  refine ⟨?_, ?_, ?_, ?_, ?_, ?_, ?_⟩
  · rw [key]
    exact traced.key
  · rw [decryptions]
    exact traced.decryptions
  · rw [completers, calls]
    exact fun entry member => traced.callbacks entry (callbacks member)
  · rw [completers, calls]
    exact traced.waiting
  · rw [calls]
    intro call member given ends
    have before := traced.outcomes call member given
    unfold outcome at ends before
    cases stage : call.stage with
    | preparing request =>
      rw [stage] at ends
      cases ends
    | ended outcome =>
      rw [stage] at ends before
      exact before ends
    | waiting completer =>
      rw [stage] at ends before
      rcases completed call member completer given stage ends with earlier | attributed
      · exact before earlier
      · exact attributed
  · rw [authUrlCalls, openedAuthUrls]
    exact traced.opened
  · rw [authUrlCalls]
    exact traced.once

end

theorem settled_closing {entries : List (String × Nat)} {completers : Heap RequestOutcome}
    {completer : Nat} {outcome : RequestOutcome}
    (ends : settled (entries.foldl (fun completers entry => complete completers entry.2 .closed)
      completers) completer = some outcome) :
    settled completers completer = some outcome ∨ outcome = .closed := by
  induction entries generalizing completers with
  | nil => exact .inl ends
  | cons entry rest ih =>
    rcases ih ends with earlier | closed
    · rcases settled_complete_cases earlier with before | ⟨-, rfl⟩
      · exact .inl before
      · exact .inr rfl
    · exact .inr closed

theorem length_closing (entries : List (String × Nat)) (completers : Heap RequestOutcome) :
    (entries.foldl (fun completers entry => complete completers entry.2 .closed)
      completers).length = completers.length := by
  induction entries generalizing completers with
  | nil => rfl
  | cons entry rest ih =>
    rw [foldl_cons, ih, length_complete]

section

variable (traced : Traced library info actions signer)

include traced

theorem Traced.close :
    Traced library info actions signer.close := by
  refine traced.of_completers rfl rfl (nil_subset _) (length_closing _ _) rfl rfl rfl ?_
  intro call _ completer outcome _ ends
  rcases settled_closing ends with before | rfl
  · exact .inl before
  · exact .inr trivial

/-! ### Messages -/

theorem Traced.receiveResponse {response : NostrRemoteResponse}
    (heard : Heard library info actions response.id response)
    (noChallenge : response.isAuthUrl = false) :
    Traced library info actions (signer.receiveResponse response) := by
  unfold NostrRemoteSigner.receiveResponse
  split
  · exact traced.forget response.id
  · rename_i completer found
    have registered := Dictionary.mem_of_find found
    refine traced.of_completers rfl rfl (fun _ member => Dictionary.mem_remove member)
      (length_complete _ _ _) rfl rfl rfl ?_
    intro call member waited outcome waits ends
    rcases settled_complete_cases ends with before | ⟨rfl, rfl⟩
    · exact .inl before
    · rw [(traced.callbacks _ registered).2 call member waits]
      exact .inr (attributed_outcomeOf heard noChallenge)

theorem Traced.receiveAuthUrl {response : NostrRemoteResponse}
    (heard : Heard library info actions response.id response)
    (challenge : response.isAuthUrl = true) :
    Traced library info actions (signer.receiveAuthUrl response) := by
  have present : response.error.isSome = true := (Bool.and_eq_true_iff.mp challenge).2
  obtain ⟨authUrl, known⟩ := isSome_iff_exists.mp present
  unfold NostrRemoteSigner.receiveAuthUrl
  by_cases before : response.id ∈ signer.openedAuthUrls
  · rw [if_pos before]
    exact traced
  · rw [if_neg before]
    have kept : ∀ call ∈ signer.authUrlCalls, call.id ∈ response.id :: signer.openedAuthUrls ∧
        ∃ other, Heard library info actions call.id other ∧ other.isAuthUrl = true ∧
          other.error = some call.authUrl := fun call member =>
      ⟨mem_cons_of_mem _ (traced.opened call member).1, (traced.opened call member).2⟩
    by_cases listens : signer.listensToAuthUrls = true
    · rw [if_pos listens]
      refine ⟨traced.key, traced.decryptions, traced.callbacks, traced.waiting, traced.outcomes,
        fun call member => ?_, ?_⟩
      · rcases mem_cons.mp member with rfl | earlier
        · refine ⟨mem_cons_self, response, heard, challenge, ?_⟩
          rw [known]
          rfl
        · exact kept call earlier
      · rw [map_cons, nodup_cons]
        refine ⟨fun again => ?_, traced.once⟩
        obtain ⟨call, member, same⟩ := mem_map.mp again
        have opened := (traced.opened call member).1
        rw [same] at opened
        exact before opened
    · rw [if_neg listens]
      exact ⟨traced.key, traced.decryptions, traced.callbacks, traced.waiting,
        traced.outcomes, kept,
        traced.once⟩

theorem Traced.handleMessage {decryption : Decryption} (place : Nat)
    (member : decryption ∈ signer.decryptions) :
    Traced library info actions ({ signer with
      decryptions := signer.decryptions.eraseIdx place }.handleMessage library decryption) := by
  have erased : Traced library info actions { signer with
      decryptions := signer.decryptions.eraseIdx place } :=
    traced.of_frame rfl eraseIdx_subset (List.Subset.refl _) rfl rfl rfl rfl
  obtain ⟨⟨relay, delivered⟩, kind, key⟩ := traced.decryptions decryption member
  unfold NostrRemoteSigner.handleMessage
  split
  · rename_i response decrypts
    have heard : Heard library info actions response.id response :=
      ⟨rfl, relay, decryption.event, decryption.privateKey, delivered, kind, key, decrypts⟩
    split
    · rename_i challenge
      exact erased.receiveAuthUrl heard challenge
    · rename_i noChallenge
      exact erased.receiveResponse heard (Bool.eq_false_of_not_eq_true noChallenge)
  · exact erased

theorem Traced.onMessage {relay : String}
    {message : RelayMessage} (delivered : SignerAction.message relay message ∈ actions) :
    Traced library info actions (signer.onMessage relay message) := by
  unfold NostrRemoteSigner.onMessage
  split
  · split
    · rename_i event kind
      split
      · rename_i privateKey known
        refine ⟨traced.key, fun decryption member => ?_, traced.callbacks, traced.waiting,
          traced.outcomes, traced.opened, traced.once⟩
        rcases mem_append.mp member with before | added
        · exact traced.decryptions decryption before
        · rw [mem_singleton.mp added]
          exact ⟨⟨relay, delivered⟩, kind, traced.key privateKey known⟩
      · exact traced
    · exact traced
  · exact traced.of_frame rfl (List.Subset.refl _) (List.Subset.refl _) rfl rfl rfl rfl
  · exact traced

/-! ### The other operations -/

theorem Traced.connect :
    Traced library info actions (signer.connect library info) := by
  unfold NostrRemoteSigner.connect
  split
  · exact ⟨fun _ known => known, traced.decryptions, traced.callbacks, traced.waiting,
      traced.outcomes, traced.opened, traced.once⟩
  · exact traced

theorem Traced.beginRequest (request : NostrRemoteRequest) :
    Traced library info actions (signer.beginRequest request) := by
  refine traced.of_calls fun call member => ?_
  rcases mem_append.mp member with before | added
  · exact .inl before
  · rw [mem_singleton.mp added]
    exact .inr ⟨nofun, nofun⟩

theorem Traced.sendRequest (place : Nat) (call : RequestCall) (request : NostrRemoteRequest) :
    Traced library info actions (signer.sendRequest library info place call request) := by
  unfold NostrRemoteSigner.sendRequest
  split
  · exact traced.ended place call fun _ => trivial
  · split
    · exact traced.ended place call fun _ => trivial
    · split
      · split
        · exact traced.register place call _
        · exact traced.ended place call fun _ => trivial
      · exact traced.ended place call fun _ => trivial

theorem Traced.reconnectRelay (relay : String) (connecting connected : Bool) :
    Traced library info actions (signer.reconnectRelay relay connecting connected) := by
  unfold NostrRemoteSigner.reconnectRelay
  dsimp only
  split
  · exact traced
  · exact traced.of_frame rfl (List.Subset.refl _) (List.Subset.refl _) rfl rfl rfl rfl

theorem Traced.relayDisconnected (relay : String) :
    Traced library info actions (signer.relayDisconnected relay) := by
  unfold NostrRemoteSigner.relayDisconnected
  split
  · exact traced
  · refine Traced.reconnectRelay ?_ relay false false
    exact traced.of_frame rfl (List.Subset.refl _) (List.Subset.refl _) rfl rfl rfl rfl

theorem Traced.resume (disconnected : List String) :
    Traced library info actions (signer.resume disconnected) := by
  unfold NostrRemoteSigner.resume
  split
  · have resumed : Traced library info actions { signer with
        isPaused := false
        relayRetryCount := [] } :=
      traced.of_frame rfl (List.Subset.refl _) (List.Subset.refl _) rfl rfl rfl rfl
    exact foldlRecOn disconnected _ resumed fun _ kept relay _ =>
      Traced.reconnectRelay kept relay false false
  · exact traced

theorem signerStep_traced {action : SignerAction} (taken : action ∈ actions)
    (stepped : signerStep library info signer action = some next) :
    Traced library info actions next := by
  cases action with
  | connect =>
    rw [← Option.some.inj stepped]
    exact traced.connect
  | relayConnected | listenToAuthUrls =>
    rw [← Option.some.inj stepped]
    exact traced.of_frame rfl (List.Subset.refl _) (List.Subset.refl _) rfl rfl rfl rfl
  | request request =>
    rw [← Option.some.inj stepped]
    exact traced.beginRequest request
  | send place =>
    simp only [signerStep] at stepped
    split at stepped
    · rw [← Option.some.inj stepped]
      exact traced.sendRequest place _ _
    · cases stepped
  | abort place =>
    simp only [signerStep] at stepped
    split at stepped
    · rw [← Option.some.inj stepped]
      exact traced.ended place _ fun _ => trivial
    · cases stepped
  | timeout place =>
    simp only [signerStep] at stepped
    split at stepped
    · rename_i id completer present
      split at stepped
      · rw [← Option.some.inj stepped]
        have timed : Traced library info actions
            (signer.proceedTo place ⟨id, .waiting completer⟩ (.ended .timedOut)) :=
          traced.ended place _ fun _ => trivial
        exact timed.forget id
      · cases stepped
    · cases stepped
  | message relay message =>
    rw [← Option.some.inj stepped]
    exact traced.onMessage taken
  | decrypted place =>
    obtain ⟨decryption, present, rfl⟩ := map_eq_some_iff.mp stepped
    exact traced.handleMessage place (mem_of_getElem? present)
  | relayDisconnected relay =>
    rw [← Option.some.inj stepped]
    exact traced.relayDisconnected relay
  | relayReconnected place connected =>
    obtain ⟨relay, -, rfl⟩ := map_eq_some_iff.mp stepped
    exact traced.of_frame rfl (List.Subset.refl _) (List.Subset.refl _) rfl rfl rfl rfl
  | pause =>
    rw [← Option.some.inj stepped]
    exact traced.of_frame rfl (List.Subset.refl _) (List.Subset.refl _) rfl rfl rfl rfl
  | resume disconnected =>
    rw [← Option.some.inj stepped]
    exact traced.resume disconnected
  | close =>
    rw [← Option.some.inj stepped]
    exact traced.close

end

/-- A request completes with the value or the error of a response with its id that was heard, and
the URLs opened are those of challenges that were heard. -/
theorem outcomes_heard
    (ran : Transition.run (signerStep library info) .fresh actions = some signer) :
    (∀ call ∈ signer.calls, ∀ outcome, signer.outcome call = some outcome →
      Attributed library info actions call.id outcome) ∧
    (∀ call ∈ signer.authUrlCalls, ∃ response, Heard library info actions call.id response ∧
      response.isAuthUrl = true ∧ response.error = some call.authUrl) ∧
    (signer.authUrlCalls.map AuthUrlCall.id).Nodup := by
  have initial : Traced library info actions .fresh :=
    ⟨nofun, nofun,
      nofun, nofun,
      nofun, nofun, nodup_nil⟩
  have meets := (Transition.meets_trivial (signerStep library info) .fresh actions).mem _
    (List.Subset.refl actions)
  have traced := Transition.invariant_of_meets _
    (fun _ _ _ held taken stepped => signerStep_traced held taken.2 stepped) initial meets ran
  exact ⟨traced.outcomes, fun call member => (traced.opened call member).2, traced.once⟩

/-! ### A stranger's answer -/

def sampleSignerLibrary : SignerLibrary where
  response := {
    nip44Decrypt := fun _ _ content => .ok (some content)
    jsonDecode := fun text => .ok (.object (if text = "https://approve" then
        [("id", .string "2"), ("result", .string "auth_url"), ("error", .string text)]
      else [("id", .string "1"), ("result", .string text)])) }
  decodeNip19 nsec := nsec
  getPublicKey key := key
  encryptRequest _ _ request := .ok (some request.method)

def sampleSignerInfo : SignerInfo := ⟨"bunker", some "key"⟩

def requesting : List SignerAction :=
  [.connect, .relayConnected "wss://relay", .listenToAuthUrls true,
    .request ⟨"1", "get_public_key", []⟩, .send 0]

/-- A relay delivers an event of the author with the content. -/
def delivery (pubkey content : String) : SignerAction :=
  .message "wss://relay" (.event (some ⟨nostrRemoteSigning, pubkey, content⟩))

theorem outcomes_heard_sample : ∃ signer,
    Transition.run (signerStep sampleSignerLibrary sampleSignerInfo) .fresh
      (requesting ++ [delivery "bunker" "pubkey", .decrypted 0]) = some signer ∧
      ∀ call ∈ signer.calls, ∀ outcome, signer.outcome call = some outcome →
        Attributed sampleSignerLibrary sampleSignerInfo
          (requesting ++ [delivery "bunker" "pubkey", .decrypted 0]) call.id outcome :=
  ⟨_, rfl, (@outcomes_heard sampleSignerLibrary sampleSignerInfo _ _ rfl).1⟩

/-- A stranger answers the request, and has a URL opened for a request that does not exist. -/
theorem stranger_answered : ∃ signer,
    Transition.run (signerStep sampleSignerLibrary sampleSignerInfo) .fresh
      (requesting ++ [delivery "stranger" "https://approve", .decrypted 0,
        delivery "stranger" "pubkey", .decrypted 0]) = some signer ∧
      signer.calls.map signer.outcome = [some (.value (some "pubkey"))] ∧
      signer.authUrlCalls = [⟨"2", "https://approve"⟩] ∧
      ¬∃ relay event, SignerAction.message relay (.event (some event)) ∈
          requesting ++ [delivery "stranger" "https://approve", .decrypted 0,
            delivery "stranger" "pubkey", .decrypted 0] ∧
        event.pubkey = sampleSignerInfo.remoteSignerPubkey := by
  refine ⟨_, rfl, rfl, rfl, ?_⟩
  rintro ⟨relay, event, member, author⟩
  simp only [requesting, delivery, cons_append, nil_append, mem_cons,
    not_mem_nil, or_false, reduceCtorEq, false_or, SignerAction.message.injEq,
    RelayMessage.event.injEq, Option.some.injEq] at member
  rcases member with ⟨-, rfl⟩ | ⟨-, rfl⟩ <;> exact absurd author (by decide)

end Divine.NostrSdk.NostrRemoteSigner
