/-
This file settles whom a session trusts and how final its outcome is.
-/

import Divine.NostrSdk.ConnectSession
import Divine.Library.Transition

namespace Divine.NostrSdk

open Promise

namespace NostrConnectSession

variable {library : ConnectLibrary} {config : SessionConfig} {session : NostrConnectSession}

/-! ### Whom a connected session trusts -/

/-- The response the session was connected by: a delivered event of the author it took for the
bunker decrypts to one that is no challenge and no error. -/
structure Vouched (library : ConnectLibrary) (actions : List SessionAction)
    (session : NostrConnectSession) (info : NostrRemoteSignerInfo) (event : Event)
    (privateKey : String) (response : NostrRemoteResponse) : Prop where
  known : session.info = some info
  localSigner : session.localSigner = some privateKey
  delivered : SessionAction.message (.event (some event)) ∈ actions
  kind : event.kind = nostrRemoteSigning
  author : event.pubkey = info.remoteSignerPubkey
  decrypts : decryptResponse library.response privateKey event.pubkey event.content =
    .ok (some response)
  noChallenge : response.isAuthUrl = false
  noError : response.isError = false
  secret : isNotBlank info.optionalSecret = true

structure Trusting (library : ConnectLibrary) (actions : List SessionAction)
    (session : NostrConnectSession) : Prop where
  idle : session.state = .idle → session.localSigner = none
  decryptions : ∀ decryption ∈ session.decryptions,
    SessionAction.message (.event (some decryption.event)) ∈ actions ∧
      decryption.event.kind = nostrRemoteSigning ∧
      session.localSigner = some decryption.privateKey
  connected : session.state = .connected → ∃ info event privateKey response,
    Vouched library actions session info event privateKey response

theorem received_eq_some {decryption : Decryption} {response : NostrRemoteResponse}
    (present : received library decryption = some response) :
    decryptResponse library.response decryption.privateKey decryption.event.pubkey
        decryption.event.content = .ok (some response) ∧ response.isAuthUrl = false := by
  unfold received at present
  split at present
  · rename_i other decrypted
    split at present
    · cases present
    · rename_i challenge
      rw [← Option.some.inj present]
      exact ⟨decrypted, Bool.eq_false_of_not_eq_true challenge⟩
  · cases present

section Trusting

variable {actions : List SessionAction}

section

variable (trusting : Trusting library actions session)

include trusting

/-- A step that keeps the key and the decryptions, and does not connect anew. -/
theorem Trusting.of_frame {next : NostrConnectSession}
    (localSigner : next.localSigner = session.localSigner)
    (decryptions : next.decryptions ⊆ session.decryptions)
    (idle : next.state = .idle → session.state = .idle)
    (connected : next.state = .connected → session.state = .connected ∧ next.info = session.info) :
    Trusting library actions next := by
  refine ⟨fun started => ?_, fun decryption member => ?_, fun reached => ?_⟩
  · rw [localSigner]
    exact trusting.idle (idle started)
  · rw [localSigner]
    exact trusting.decryptions decryption (decryptions member)
  · obtain ⟨before, same⟩ := connected reached
    obtain ⟨info, event, privateKey, response, vouched⟩ := trusting.connected before
    exact ⟨info, event, privateKey, response, { vouched with
      known := same.trans vouched.known
      localSigner := localSigner.trans vouched.localSigner }⟩

theorem Trusting.start (drawn : Drawn) :
    Trusting library actions (session.start library config drawn) := by
  unfold NostrConnectSession.start
  by_cases started : session.state = .idle
  · have unsigned := trusting.idle started
    have undecrypted : ∀ decryption ∈ session.decryptions, False := by
      intro decryption member
      have signed := (trusting.decryptions decryption member).2.2
      rw [unsigned] at signed
      cases signed
    rw [if_neg (not_not_intro started)]
    dsimp only
    split
    · exact ⟨nofun, (fun decryption member =>
        (undecrypted decryption member).elim), nofun⟩
    · exact ⟨nofun, (fun decryption member =>
        (undecrypted decryption member).elim), nofun⟩
  · rw [if_pos started]
    exact trusting

theorem Trusting.relaysConnected (connected : List String) :
    Trusting library actions (session.relaysConnected connected) := by
  unfold NostrConnectSession.relaysConnected
  dsimp only
  split
  · exact trusting.of_frame rfl (List.Subset.refl _) nofun
      nofun
  · exact trusting.of_frame rfl (List.Subset.refl _) nofun
      nofun

theorem Trusting.waitForConnection :
    Trusting library actions session.waitForConnection := by
  unfold NostrConnectSession.waitForConnection
  split
  · exact trusting.of_frame rfl (List.Subset.refl _) id fun reached => ⟨reached, rfl⟩
  · exact trusting.of_frame rfl (List.Subset.refl _) id fun reached => ⟨reached, rfl⟩

theorem Trusting.timedOut :
    Trusting library actions session.timedOut := by
  unfold NostrConnectSession.timedOut
  split
  · exact trusting
  · split
    · exact trusting.of_frame rfl (List.Subset.refl _) nofun
        nofun
    · exact trusting

theorem Trusting.cancel :
    Trusting library actions session.cancel := by
  unfold NostrConnectSession.cancel
  split
  · exact trusting
  · exact trusting.of_frame rfl (List.Subset.refl _) nofun
      nofun

theorem Trusting.onMessage {message : RelayMessage}
    (delivered : SessionAction.message message ∈ actions) :
    Trusting library actions (session.onMessage message) := by
  unfold NostrConnectSession.onMessage
  split
  · rename_i event
    split
    · rename_i kind
      split
      · rename_i privateKey signer
        refine ⟨trusting.idle, fun decryption member => ?_, fun reached => ?_⟩
        · rcases List.mem_append.mp member with before | added
          · exact trusting.decryptions decryption before
          · rw [List.mem_singleton.mp added]
            exact ⟨delivered, kind, signer⟩
        · obtain ⟨info, event, privateKey, response, vouched⟩ := trusting.connected reached
          exact ⟨info, event, privateKey, response, { vouched with }⟩
      · exact trusting
    · exact trusting
  · exact trusting

theorem Trusting.handleResponse {decryption : Decryption} (place : Nat)
    (member : decryption ∈ session.decryptions) :
    Trusting library actions ({ session with
      decryptions := session.decryptions.eraseIdx place }.handleResponse library decryption) := by
  have fewer : session.decryptions.eraseIdx place ⊆ session.decryptions :=
    List.eraseIdx_subset
  have erased : Trusting library actions { session with
      decryptions := session.decryptions.eraseIdx place } :=
    trusting.of_frame rfl fewer id fun reached => ⟨reached, rfl⟩
  unfold NostrConnectSession.handleResponse
  split
  · rename_i response present
    obtain ⟨decrypts, noChallenge⟩ := received_eq_some present
    obtain ⟨delivered, kind, signer⟩ := trusting.decryptions decryption member
    unfold respond
    split
    · rename_i info known
      split
      · rename_i secret
        split
        · exact erased.of_frame rfl (List.Subset.refl _) nofun
            nofun
        · rename_i noError
          exact ⟨nofun, erased.decryptions, fun _ =>
            ⟨_, decryption.event, decryption.privateKey, response, rfl, signer, delivered, kind,
              rfl, decrypts, noChallenge, Bool.eq_false_of_not_eq_true noError, secret⟩⟩
      · exact erased.of_frame rfl (List.Subset.refl _) nofun
          nofun
    · exact erased.of_frame rfl (List.Subset.refl _) nofun
        nofun
  · exact erased

theorem sessionStep_trusting {action : SessionAction} {next : NostrConnectSession}
    (taken : action ∈ actions) (stepped : sessionStep library config session action = some next) :
    Trusting library actions next := by
  cases action with
  | start drawn =>
    rw [← Option.some.inj stepped]
    exact trusting.start drawn
  | relaysConnected connected =>
    simp only [sessionStep] at stepped
    split at stepped
    · rw [← Option.some.inj stepped]
      exact trusting.relaysConnected connected
    · cases stepped
  | waitForConnection =>
    rw [← Option.some.inj stepped]
    exact trusting.waitForConnection
  | timer place =>
    simp only [sessionStep] at stepped
    split at stepped
    · rw [← Option.some.inj stepped]
      have fired : Trusting library actions { session with
          timers := session.timers.set place false } :=
        trusting.of_frame rfl (List.Subset.refl _) id fun reached => ⟨reached, rfl⟩
      exact fired.timedOut
    · cases stepped
  | cancel =>
    rw [← Option.some.inj stepped]
    exact trusting.cancel
  | message message =>
    rw [← Option.some.inj stepped]
    exact trusting.onMessage taken
  | decrypted place =>
    obtain ⟨decryption, present, rfl⟩ := Option.map_eq_some_iff.mp stepped
    exact trusting.handleResponse place (List.mem_of_getElem? present)

end

/-- A session that is connected was connected by an event of the author it took for the bunker,
which decrypts to a response that is no challenge and no error. -/
theorem connected_vouched {session : NostrConnectSession}
    (ran : Transition.run (sessionStep library config) .fresh actions = some session)
    (connected : session.state = .connected) : ∃ info event privateKey response,
      Vouched library actions session info event privateKey response := by
  have initial : Trusting library actions .fresh :=
    ⟨fun _ => rfl, nofun, nofun⟩
  have meets := (Transition.meets_trivial (sessionStep library config) .fresh actions).mem _
    (List.Subset.refl actions)
  have trusting := Transition.invariant_of_meets _
    (fun _ _ _ held taken stepped => sessionStep_trusting held taken.2 stepped) initial meets ran
  exact trusting.connected connected

end Trusting

/-! ### Orderly runs -/

def NoWait (session : NostrConnectSession) : Prop :=
  session.completers = [] ∧ session.connectionCompleter = none

/-- There was one wait, with the value of its completer. -/
def Holding (session : NostrConnectSession) (value : Option (Option NostrConnectResult)) : Prop :=
  session.completers = [value] ∧ session.connectionCompleter = some 0

def resultOf (info : NostrRemoteSignerInfo) : NostrConnectResult :=
  ⟨info.remoteSignerPubkey, none, info⟩

def Coherent (session : NostrConnectSession) : NostrConnectState → Prop
  | .idle | .generating => session.NoWait
  | .listening => session.NoWait ∨ session.Holding none
  | .connected => session.isClosed = true ∧ ∃ info, session.info = some info ∧
      (session.NoWait ∨ session.Holding (some (some (resultOf info))))
  | .timeout => session.Holding (some none)
  | .cancelled => session.isClosed = true ∧ (session.NoWait ∨ session.Holding (some none))
  | .error => session.NoWait ∨ session.Holding none ∨ session.Holding (some none)

/-- A wait was refused, or it was made while the session listened. -/
def WaitAdmitted (session : NostrConnectSession) (wait : Wait) : Prop :=
  (wait.calledIn ≠ .listening ∧ wait.completer = none) ∨
    (wait.calledIn = .listening ∧ wait.completer = some 0 ∧ session.completers ≠ [])

/-- What holds of every session in an orderly run. -/
structure Steady (session : NostrConnectSession) : Prop where
  coherent : session.Coherent session.state
  waits : ∀ wait ∈ session.waits, session.WaitAdmitted wait

/-- A step is orderly when `start` goes on while the session generates, a wait starts alone, and a
response is handled while it listens. -/
def Orderly (library : ConnectLibrary) (session : NostrConnectSession) : SessionAction → Prop
  | .relaysConnected _ => session.state = .generating
  | .waitForConnection => session.state = .listening → ∀ completer,
      session.connectionCompleter = some completer →
        (settled session.completers completer).isSome = true
  | .decrypted place => ∀ decryption, session.decryptions[place]? = some decryption →
      received library decryption ≠ none → session.state = .listening
  | _ => True

/-- The state stays, or leaves `timeout` through `cancel`. -/
structure Stays (action : SessionAction) (session next : NostrConnectSession) : Prop where
  connected : session.state = .connected → next.state = .connected
  cancelled : session.state = .cancelled → next.state = .cancelled
  timeout : session.state = .timeout →
    next.state = .timeout ∨ next.state = .cancelled ∧ action = .cancel

/-! ### Completing the wait -/

variable {value : Option NostrConnectResult}

theorem completeConnection_of_none (waitless : session.connectionCompleter = none) :
    (session.completeConnection value).completers = session.completers := by
  dsimp only [NostrConnectSession.completeConnection]
  rw [waitless]

theorem completeConnection_of_some {completer : Nat}
    (waits : session.connectionCompleter = some completer) :
    (session.completeConnection value).completers =
      complete session.completers completer value := by
  dsimp only [NostrConnectSession.completeConnection]
  rw [waits]

theorem NoWait.completeConnection (noWait : session.NoWait) :
    (session.completeConnection value).NoWait := by
  refine ⟨?_, noWait.2⟩
  rw [completeConnection_of_none noWait.2]
  exact noWait.1

theorem Holding.completeConnection (holding : session.Holding none) :
    (session.completeConnection value).Holding (some value) := by
  refine ⟨?_, holding.2⟩
  rw [completeConnection_of_some holding.2, holding.1]
  rfl

theorem Holding.completeConnection_of_some {old : Option NostrConnectResult}
    (holding : session.Holding (some old)) :
    (session.completeConnection value).Holding (some old) := by
  refine ⟨?_, holding.2⟩
  rw [NostrConnectSession.completeConnection_of_some holding.2, holding.1]
  rfl

theorem completers_ne_nil (present : session.completers ≠ []) :
    (session.completeConnection value).completers ≠ [] := by
  cases waiting : session.connectionCompleter with
  | none =>
    rw [completeConnection_of_none waiting]
    exact present
  | some completer =>
    rw [completeConnection_of_some waiting, ← List.length_pos_iff, length_complete,
      List.length_pos_iff]
    exact present
variable {next : NostrConnectSession} {action : SessionAction}


theorem WaitAdmitted.of_completers {wait : Wait} (admitted : session.WaitAdmitted wait)
    (kept : session.completers ≠ [] → next.completers ≠ []) :
    next.WaitAdmitted wait := by
  rcases admitted with refused | ⟨listening, first, present⟩
  · exact .inl refused
  · exact .inr ⟨listening, first, kept present⟩

theorem Steady.coherentIn {state : NostrConnectState} (steady : session.Steady)
    (reached : session.state = state) : session.Coherent state := reached ▸ steady.coherent

theorem Stays.of_eq (same : next.state = session.state) : Stays action session next :=
  ⟨fun reached => same.trans reached, fun reached => same.trans reached,
    fun reached => .inl (same.trans reached)⟩

theorem Stays.of_state {state : NostrConnectState} (reached : session.state = state)
    (transient : state ≠ .connected ∧ state ≠ .cancelled ∧ state ≠ .timeout) :
    Stays action session next := by
  rw [← reached] at transient
  exact ⟨fun final => (transient.1 final).elim, fun final => (transient.2.1 final).elim,
    fun final => (transient.2.2 final).elim⟩

/-! ### Orderly steps -/

theorem start_steady (steady : session.Steady) (drawn : Drawn) :
    (session.start library config drawn).Steady ∧
      Stays action session (session.start library config drawn) := by
  unfold NostrConnectSession.start
  by_cases started : session.state = .idle
  · have noWait : session.NoWait := steady.coherentIn started
    rw [if_neg (not_not_intro started)]
    have leaves : ∀ next : NostrConnectSession, Stays action session next := fun next =>
      .of_state started (by decide)
    dsimp only
    split
    · exact ⟨⟨.inl noWait, steady.waits⟩, leaves _⟩
    · exact ⟨⟨noWait, steady.waits⟩, leaves _⟩
  · rw [if_pos started]
    exact ⟨steady, .of_eq rfl⟩

theorem relaysConnected_steady (steady : session.Steady) (connected : List String)
    (generating : session.state = .generating) :
    (session.relaysConnected connected).Steady ∧
      Stays action session (session.relaysConnected connected) := by
  have noWait : session.NoWait := steady.coherentIn generating
  have leaves : ∀ next : NostrConnectSession, Stays action session next := fun next =>
    .of_state generating (by decide)
  unfold NostrConnectSession.relaysConnected
  dsimp only
  split
  · exact ⟨⟨.inl noWait, steady.waits⟩, leaves _⟩
  · exact ⟨⟨.inl noWait, steady.waits⟩, leaves _⟩

theorem waitForConnection_steady (steady : session.Steady)
    (alone : session.state = .listening → ∀ completer,
      session.connectionCompleter = some completer →
        (settled session.completers completer).isSome = true) :
    session.waitForConnection.Steady ∧ Stays action session session.waitForConnection := by
  unfold NostrConnectSession.waitForConnection
  by_cases listening : session.state = .listening
  · have noWait : session.NoWait := by
      rcases steady.coherentIn listening with noWait | holding
      · exact noWait
      · have completed := alone listening 0 holding.2
        rw [holding.1] at completed
        cases completed
    rw [if_neg (not_not_intro listening)]
    rw [noWait.1]
    refine ⟨⟨?_, fun wait member => ?_⟩, ?_⟩
    · show Coherent _ session.state
      rw [listening]
      exact .inr ⟨rfl, rfl⟩
    · rcases List.mem_append.mp member with before | added
      · exact (steady.waits wait before).of_completers fun present => (present noWait.1).elim
      · rw [List.mem_singleton.mp added]
        exact .inr ⟨listening, rfl, List.cons_ne_nil _ _⟩
    · exact .of_state listening (by decide)
  · rw [if_pos listening]
    refine ⟨⟨steady.coherent, fun wait member => ?_⟩, .of_eq rfl⟩
    rcases List.mem_append.mp member with before | added
    · exact steady.waits wait before
    · rw [List.mem_singleton.mp added]
      exact .inl ⟨listening, rfl⟩

theorem NoWait.not_current {completer : Nat} (noWait : session.NoWait)
    (current : session.connectionCompleter = some completer) : False := by
  rw [noWait.2] at current
  cases current

theorem Holding.settled_current {completer : Nat} {value : Option (Option NostrConnectResult)}
    (holding : session.Holding value) (current : session.connectionCompleter = some completer) :
    settled session.completers completer = value := by
  rw [holding.2] at current
  rw [holding.1, ← Option.some.inj current]
  cases value <;> rfl

theorem Steady.pending {completer : Nat} (steady : session.Steady)
    (current : session.connectionCompleter = some completer)
    (pending : settled session.completers completer = none) :
    session.Holding none ∧ (session.state = .listening ∨ session.state = .error) := by
  have completed : ∀ value, ¬session.Holding (some value) := fun value holding => by
    rw [holding.settled_current current] at pending
    cases pending
  cases reached : session.state with
  | idle | generating => exact (NoWait.not_current (steady.coherentIn reached) current).elim
  | listening =>
    rcases steady.coherentIn reached with noWait | holding
    · exact (noWait.not_current current).elim
    · exact ⟨holding, .inl rfl⟩
  | connected =>
    obtain ⟨-, info, -, noWait | holding⟩ := steady.coherentIn reached
    · exact (noWait.not_current current).elim
    · exact (completed _ holding).elim
  | timeout => exact (completed _ (steady.coherentIn reached)).elim
  | cancelled =>
    obtain ⟨-, noWait | holding⟩ := steady.coherentIn reached
    · exact (noWait.not_current current).elim
    · exact (completed _ holding).elim
  | error =>
    rcases steady.coherentIn reached with noWait | holding | holding
    · exact (noWait.not_current current).elim
    · exact ⟨holding, .inr rfl⟩
    · exact (completed _ holding).elim

theorem timedOut_steady (steady : session.Steady) (action : SessionAction) :
    session.timedOut.Steady ∧ Stays action session session.timedOut := by
  unfold NostrConnectSession.timedOut
  split
  · exact ⟨steady, .of_eq rfl⟩
  · rename_i completer current
    split
    · rename_i pending
      obtain ⟨holding, state⟩ := steady.pending current (Option.isNone_iff_eq_none.mp pending)
      have timed : Holding { session with state := .timeout } none := holding
      refine ⟨⟨timed.completeConnection, fun wait member => ?_⟩, ?_⟩
      · exact (steady.waits wait member).of_completers completers_ne_nil
      · rcases state with listening | failed
        · exact .of_state listening (by decide)
        · exact .of_state failed (by decide)
    · exact ⟨steady, .of_eq rfl⟩

theorem completeConnection_null
    (waited : session.NoWait ∨ session.Holding none ∨ session.Holding (some none)) :
    (session.completeConnection none).NoWait ∨
      (session.completeConnection none).Holding (some none) := by
  rcases waited with noWait | pending | completed
  · exact .inl noWait.completeConnection
  · exact .inr pending.completeConnection
  · exact .inr completed.completeConnection_of_some

/-- A session that is neither connected nor cancelled has no wait, or one that is pending or timed
out. -/
theorem Steady.waited (steady : session.Steady) (connected : session.state ≠ .connected) :
    session.NoWait ∨ session.Holding none ∨ session.Holding (some none) := by
  cases reached : session.state with
  | idle | generating => exact .inl (steady.coherentIn reached)
  | listening =>
    rcases steady.coherentIn reached with noWait | pending
    · exact .inl noWait
    · exact .inr (.inl pending)
  | connected => exact (connected reached).elim
  | timeout => exact .inr (.inr (steady.coherentIn reached))
  | cancelled =>
    rcases (steady.coherentIn reached).2 with noWait | completed
    · exact .inl noWait
    · exact .inr (.inr completed)
  | error => exact steady.coherentIn reached

theorem cancel_steady (steady : session.Steady) :
    session.cancel.Steady ∧ Stays .cancel session session.cancel := by
  unfold NostrConnectSession.cancel
  by_cases closed : session.isClosed = true
  · rw [if_pos closed]
    exact ⟨steady, .of_eq rfl⟩
  · rw [if_neg closed]
    have connected : session.state ≠ .connected := fun reached =>
      closed (steady.coherentIn reached).1
    have cancelled : session.state ≠ .cancelled := fun reached =>
      closed (steady.coherentIn reached).1
    refine ⟨⟨⟨rfl, ?_⟩, fun wait member => ?_⟩, ?_⟩
    · have waited : NoWait { session with state := .cancelled } ∨
          Holding { session with state := .cancelled } none ∨
          Holding { session with state := .cancelled } (some none) := steady.waited connected
      exact completeConnection_null waited
    · exact (steady.waits wait member).of_completers completers_ne_nil
    · exact ⟨fun reached => (connected reached).elim, fun reached => (cancelled reached).elim,
        fun _ => .inr ⟨rfl, rfl⟩⟩

theorem respond_steady (steady : session.Steady) (listening : session.state = .listening)
    (pubkey : String) (response : NostrRemoteResponse) (action : SessionAction) :
    (session.respond pubkey response).Steady ∧
      Stays action session (session.respond pubkey response) := by
  have leaves : ∀ next : NostrConnectSession, Stays action session next := fun next =>
    .of_state listening (by decide)
  have waited := steady.coherentIn listening
  have failed : session.NoWait ∨ session.Holding none ∨ session.Holding (some none) :=
    waited.imp_right .inl
  refine ⟨?_, leaves _⟩
  unfold NostrConnectSession.respond
  split
  · rename_i info known
    split
    · split
      · refine ⟨?_, fun wait member => ?_⟩
        · exact (completeConnection_null failed).imp_right .inr
        · exact (steady.waits wait member).of_completers completers_ne_nil
      · refine ⟨⟨rfl, connectedInfo info pubkey, rfl, ?_⟩, fun wait member => ?_⟩
        · rcases waited with noWait | pending
          · exact .inl (NoWait.completeConnection noWait)
          · exact .inr (Holding.completeConnection pending)
        · exact (steady.waits wait member).of_completers completers_ne_nil
    · exact ⟨failed, steady.waits⟩
  · exact ⟨failed, steady.waits⟩

theorem sessionStep_steady (steady : session.Steady) (orderly : Orderly library session action)
    (stepped : sessionStep library config session action = some next) :
    next.Steady ∧ Stays action session next := by
  cases action with
  | start drawn =>
    rw [← Option.some.inj stepped]
    exact start_steady steady drawn
  | relaysConnected connected =>
    simp only [sessionStep] at stepped
    split at stepped
    · rw [← Option.some.inj stepped]
      exact relaysConnected_steady steady connected orderly
    · cases stepped
  | waitForConnection =>
    rw [← Option.some.inj stepped]
    exact waitForConnection_steady steady orderly
  | timer place =>
    simp only [sessionStep] at stepped
    split at stepped
    · rw [← Option.some.inj stepped]
      have fired : Steady { session with timers := session.timers.set place false } :=
        ⟨steady.coherent, steady.waits⟩
      obtain ⟨kept, stays⟩ := timedOut_steady fired (.timer place)
      exact ⟨kept, stays.connected, stays.cancelled, stays.timeout⟩
    · cases stepped
  | cancel =>
    rw [← Option.some.inj stepped]
    exact cancel_steady steady
  | message message =>
    rw [← Option.some.inj stepped]
    unfold onMessage
    split
    · split
      · split
        · exact ⟨⟨steady.coherent, steady.waits⟩, .of_eq rfl⟩
        · exact ⟨steady, .of_eq rfl⟩
      · exact ⟨steady, .of_eq rfl⟩
    · exact ⟨steady, .of_eq rfl⟩
  | decrypted place =>
    obtain ⟨decryption, present, rfl⟩ := Option.map_eq_some_iff.mp stepped
    have erased : Steady { session with decryptions := session.decryptions.eraseIdx place } :=
      ⟨steady.coherent, steady.waits⟩
    unfold handleResponse
    split
    · rename_i response heard
      have listening : session.state = .listening :=
        orderly decryption present (heard ▸ Option.some_ne_none response)
      obtain ⟨kept, stays⟩ := respond_steady erased listening decryption.event.pubkey response
        (.decrypted place)
      exact ⟨kept, stays.connected, stays.cancelled, stays.timeout⟩
    · exact ⟨erased, .of_eq rfl⟩

/-- What a call of `waitForConnection` has returned: a value or, when it was refused, a
`StateError`. -/
def returned (session : NostrConnectSession) (wait : Wait) :
    Option (Except Unit (Option NostrConnectResult)) :=
  match wait.completer with
  | none => some (.error ())
  | some completer => (settled session.completers completer).map .ok

/-- A call made while the session listened returns the result of the connection, and another a
`StateError`. -/
def owed (info : NostrRemoteSignerInfo) (wait : Wait) : Except Unit (Option NostrConnectResult) :=
  if wait.calledIn = .listening then .ok (some (resultOf info)) else .error ()

theorem Steady.returned_connected (steady : session.Steady)
    (connected : session.state = .connected) :
    ∃ info, session.info = some info ∧
      ∀ wait ∈ session.waits, session.returned wait = some (owed info wait) := by
  obtain ⟨-, info, known, waited⟩ := steady.coherentIn connected
  refine ⟨info, known, fun wait member => ?_⟩
  unfold returned owed
  rcases steady.waits wait member with ⟨elsewhere, refused⟩ | ⟨listening, first, present⟩
  · rw [refused, if_neg elsewhere]
  · rw [first, if_pos listening]
    rcases waited with noWait | completed
    · exact (present noWait.1).elim
    · show Option.map Except.ok (settled session.completers 0) = _
      rw [completed.settled_current completed.2]
      rfl

/-- The outcome of a session after some actions, in view of what it was before them. -/
structure Settles (later : List SessionAction) (middle final : NostrConnectSession) : Prop where
  connected : middle.state = .connected → final.state = .connected
  cancelled : middle.state = .cancelled → final.state = .cancelled
  timeout : middle.state = .timeout →
    final.state = .timeout ∨ final.state = .cancelled ∧ .cancel ∈ later
  returned : final.state = .connected → ∃ info, final.info = some info ∧
    ∀ wait ∈ final.waits, final.returned wait = some (owed info wait)

/-- In an orderly run a connected or cancelled session stays so, `cancel` alone ends a timeout, and
every admitted wait returns the result. -/
theorem outcome_settles {first later : List SessionAction} {middle final : NostrConnectSession}
    (orderly : Transition.Meets (sessionStep library config) (Orderly library) .fresh
      (first ++ later))
    (ranFirst : Transition.run (sessionStep library config) .fresh first = some middle)
    (ranLater : Transition.run (sessionStep library config) middle later = some final) :
    Settles later middle final := by
  obtain ⟨orderlyFirst, orderlyLater⟩ := (Transition.meets_append _).mp orderly
  have initial : Steady .fresh := ⟨⟨rfl, rfl⟩, nofun⟩
  have steady : middle.Steady := Transition.invariant_of_meets _
    (fun _ _ _ held here stepped => (sessionStep_steady held here stepped).1) initial
    orderlyFirst ranFirst
  have meets := (orderlyLater middle ranFirst).mem _ (List.Subset.refl later)
  have preserved : ∀ (session : NostrConnectSession) action next,
      session.Steady ∧ (middle.state = .connected → session.state = .connected) ∧
        (middle.state = .cancelled → session.state = .cancelled) ∧
        (middle.state = .timeout →
          session.state = .timeout ∨ session.state = .cancelled ∧ .cancel ∈ later) →
      Orderly library session action ∧ action ∈ later →
      sessionStep library config session action = some next →
      next.Steady ∧ (middle.state = .connected → next.state = .connected) ∧
        (middle.state = .cancelled → next.state = .cancelled) ∧
        (middle.state = .timeout →
          next.state = .timeout ∨ next.state = .cancelled ∧ .cancel ∈ later) := by
    rintro session action next ⟨held, connected, cancelled, timeout⟩ ⟨here, taken⟩ stepped
    obtain ⟨kept, stays⟩ := sessionStep_steady held here stepped
    refine ⟨kept, fun reached => stays.connected (connected reached),
      fun reached => stays.cancelled (cancelled reached), fun reached => ?_⟩
    rcases timeout reached with timed | ⟨gone, present⟩
    · rcases stays.timeout timed with still | ⟨gone, rfl⟩
      · exact .inl still
      · exact .inr ⟨gone, taken⟩
    · exact .inr ⟨stays.cancelled gone, present⟩
  obtain ⟨kept, connected, cancelled, timeout⟩ := Transition.invariant_of_meets _ preserved
    ⟨steady, id, id, fun reached => .inl reached⟩ meets ranLater
  exact ⟨connected, cancelled, timeout, fun reached => kept.returned_connected reached⟩

/-! ### A bunker and its session -/

def sampleResponseLibrary : ResponseLibrary where
  nip44Decrypt _ _ content := .ok (some content)
  jsonDecode text := .ok (.object (if text = "refused" then
      [("id", .string "1"), ("result", .string ""), ("error", .string text)]
    else [("id", .string "1"), ("result", .string text)]))

def sampleConnectLibrary : ConnectLibrary where
  response := sampleResponseLibrary
  encodePrivateKey key := key
  decodeNip19 nsec := nsec
  getPublicKey key := key
  encodeComponent text := text

def sampleConfig : SessionConfig where
  relays := ["wss://relay"]
  appName := none
  appUrl := none
  appIcon := none
  permissions := none
  callback := none

def listening : List SessionAction := [.start ⟨"key", "secret"⟩, .relaysConnected ["wss://relay"]]

def response (pubkey result : String) : SessionAction :=
  .message (.event (some ⟨nostrRemoteSigning, pubkey, result⟩))

abbrev sampleRun (session : NostrConnectSession) (actions : List SessionAction) :
    Option NostrConnectSession :=
  Transition.run (sessionStep sampleConnectLibrary sampleConfig) session actions

theorem connected_vouched_sample : ∃ session,
    sampleRun .fresh (listening ++ [response "bunker" "secret", .decrypted 0]) = some session ∧
      ∃ info event privateKey answer, Vouched sampleConnectLibrary
        (listening ++ [response "bunker" "secret", .decrypted 0]) session info event privateKey
        answer :=
  ⟨_, rfl, @connected_vouched sampleConnectLibrary sampleConfig _ _ rfl rfl⟩

/-- A stranger, who answers something else than the secret, becomes the signer. -/
theorem stranger_connected : ∃ session,
    sampleRun .fresh (listening ++ [response "stranger" "hello", .decrypted 0]) = some session ∧
      session.state = .connected ∧
      session.info.map NostrRemoteSignerInfo.remoteSignerPubkey = some "stranger" ∧
      ¬∃ event answer, SessionAction.message (.event (some event)) ∈
          listening ++ [response "stranger" "hello", .decrypted 0] ∧
        decryptResponse sampleResponseLibrary "key" event.pubkey event.content =
          .ok (some answer) ∧
        session.info.bind NostrRemoteSignerInfo.optionalSecret = some answer.result := by
  refine ⟨_, rfl, rfl, rfl, ?_⟩
  rintro ⟨event, answer, member, decrypts, secret⟩
  simp only [listening, response, List.mem_append, List.mem_cons, List.not_mem_nil, or_false,
    reduceCtorEq, false_or] at member
  obtain rfl : event = ⟨nostrRemoteSigning, "stranger", "hello"⟩ := by
    injection member with same
    injection same with same
    exact Option.some.inj same
  cases Except.ok.inj decrypts
  exact absurd (Option.some.inj secret) (by decide)

theorem outcome_settles_sample : ∃ middle final,
    sampleRun .fresh (listening ++ [.waitForConnection, response "bunker" "secret", .decrypted 0]) =
        some middle ∧
      sampleRun middle [.waitForConnection, .cancel] = some final ∧
      Settles [.waitForConnection, .cancel] middle final := by
  have orderly : Transition.Meets (sessionStep sampleConnectLibrary sampleConfig)
      (Orderly sampleConnectLibrary) .fresh
      ((listening ++ [.waitForConnection, response "bunker" "secret", .decrypted 0]) ++
        [.waitForConnection, .cancel]) := by
    refine .cons _ trivial rfl (.cons _ rfl rfl (.cons _ ?_ rfl (.cons _ trivial rfl
      (.cons _ (fun _ _ _ => rfl) rfl (.cons _ ?_ rfl (.cons _ trivial rfl trivial))))))
    · intro _ completer current
      cases current
    · intro impossible
      cases impossible
  exact ⟨_, _, rfl, rfl, outcome_settles orderly rfl rfl⟩

/-- What other runs do: waits after the connection are refused, an early `start` or a later refusal
ends a connection, and a late response connects a session that had ended. -/
theorem outcome_unsettled :
    (∃ session, sampleRun .fresh (listening ++ [response "bunker" "secret", .decrypted 0,
        .waitForConnection]) = some session ∧ session.state = .connected ∧
      session.waits.map session.returned = [some (.error ())]) ∧
    (∃ middle final, sampleRun .fresh [.start ⟨"key", "secret"⟩, response "bunker" "secret",
        .decrypted 0] = some middle ∧ middle.state = .connected ∧
      sampleRun middle [.relaysConnected ["wss://relay"]] = some final ∧
        final.state = .listening) ∧
    (∃ middle final, sampleRun .fresh (listening ++ [.waitForConnection, .timer 0]) = some middle ∧
      middle.state = .timeout ∧ sampleRun middle [response "bunker" "secret", .decrypted 0] =
        some final ∧ final.state = .connected) ∧
    (∃ middle final, sampleRun .fresh (listening ++ [response "bunker" "secret", .cancel]) =
        some middle ∧ middle.state = .cancelled ∧ sampleRun middle [.decrypted 0] = some final ∧
      final.state = .connected) ∧
    (∃ middle final, sampleRun .fresh (listening ++ [response "bunker" "secret",
        response "bunker" "refused", .decrypted 0]) = some middle ∧ middle.state = .connected ∧
      sampleRun middle [.decrypted 0] = some final ∧ final.state = .error) ∧
    (∃ session, sampleRun .fresh (listening ++ [.waitForConnection, .waitForConnection,
        response "bunker" "secret", .decrypted 0]) = some session ∧ session.state = .connected ∧
      (session.waits.map session.returned).head? = some none) ∧
    ∃ middle final, sampleRun .fresh (listening ++ [.waitForConnection, .timer 0]) = some middle ∧
      middle.state = .timeout ∧ sampleRun middle [.cancel] = some final ∧
        final.state = .cancelled :=
  ⟨⟨_, rfl, rfl, rfl⟩, ⟨_, _, rfl, rfl, rfl, rfl⟩, ⟨_, _, rfl, rfl, rfl, rfl⟩,
    ⟨_, _, rfl, rfl, rfl, rfl⟩, ⟨_, _, rfl, rfl, rfl, rfl⟩, ⟨_, rfl, rfl, rfl⟩,
    ⟨_, _, rfl, rfl, rfl, rfl⟩⟩

end NostrConnectSession

end Divine.NostrSdk
