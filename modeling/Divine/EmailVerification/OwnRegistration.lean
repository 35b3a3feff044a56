/-
This file proves when a cubit signs in the registration that it waits for.
-/

import Divine.EmailVerification.Cubit
import Divine.Library.Observer

namespace Divine.EmailVerification

open List Option Interleaving Observer Transition

/-! ### The own registration -/

def observe : Observe Machine Action (List Entry) (List Entry) := fun log _ _ _ entries =>
  entries ++ log

/-- The registration was stopped or timed out since it was last started. -/
def Stopped (deviceCode : String) : List Entry → Prop
  | [] => False
  | .started other _ :: log => other ≠ deviceCode ∧ Stopped deviceCode log
  | .stopped pending :: log => pending = some deviceCode ∨ Stopped deviceCode log
  | _ :: log => Stopped deviceCode log

def SignsInLive : List Entry → Prop
  | [] => True
  | .signingIn deviceCode :: log => ¬Stopped deviceCode log ∧ SignsInLive log
  | _ :: log => SignsInLive log

/-- A code is sent with its own verifier and exchanged once, answers count only for the pending
device code, and no sign-in starts for a stopped registration. -/
structure Own (log : List Entry) : Prop where
  verifier : ∀ deviceCode code verifier, .sent deviceCode code verifier ∈ log →
    .started deviceCode verifier ∈ log
  undisturbed : ∀ deviceCode before after, .answered deviceCode before after ∈ log →
    before.pendingDeviceCode ≠ some deviceCode →
      after.state = before.state ∧ after.pollTimer = before.pollTimer ∧
        after.timeoutTimer = before.timeoutTimer
  live : SignsInLive log
  once : ∀ code, log.count (.exchanged code) ≤ 1

/-! ### The condition -/

def GoesOn (result : PollResult) : Prop :=
  result.status = .pending ∨
    (result.status = .error ∧ isNetworkError (result.error.getD "Verification failed") = true)

/-- An answer comes while its device code is pending, or changes nothing; a poll delivers a new
code, and a code is exchanged before the cubit is closed and a sign-in. -/
def CallCondition (seen : Machine × List Entry) : Call → Reply → Prop
  | .polling deviceCode, .polled result =>
      GoesOn result ∨ (seen.1.cubit.pendingDeviceCode = some deviceCode ∧
        ∀ code ∈ result.code, ∀ entry ∈ seen.2,
          match entry with
          | .sent _ other _ => other ≠ code
          | _ => True)
  | .exchanging exchange, .exchanged =>
      seen.1.cubit.pendingDeviceCode = some exchange.deviceCode ∧ seen.1.cubit.isClosed = false
  | .exchanging exchange, .refused _ =>
      seen.1.cubit.pendingDeviceCode = some exchange.deviceCode
  | .exchanging exchange, .thrown =>
      exchange.attempt = maxExchangeRetries →
        seen.1.cubit.pendingDeviceCode = some exchange.deviceCode
  | .signingIn exchange, .thrown => exchange.attempt = maxExchangeRetries
  | .signingIn exchange, .signedIn isAnonymous =>
      isAnonymous = true → seen.1.cubit.isClosed = true → exchange.attempt = maxExchangeRetries
  | _, _ => True

/-- The condition of a step. A registration is not started again while its sign-in is about to
start. -/
def Condition (seen : Machine × List Entry) : Action → Prop
  | .startPolling deviceCode _ _ => ∀ call ∈ seen.1.calls,
      match call with
      | .confirming exchange => exchange.deviceCode ≠ deviceCode
      | _ => True
  | .answer index reply => ∀ call, seen.1.calls[index]? = some call →
      CallCondition seen call reply
  | _ => True

section

instance decidableStopped (deviceCode : String) : ∀ log, Decidable (Stopped deviceCode log)
  | [] => instDecidableFalse
  | .started other _ :: log =>
      have := decidableStopped deviceCode log
      inferInstanceAs (Decidable (other ≠ deviceCode ∧ Stopped deviceCode log))
  | .stopped pending :: log =>
      have := decidableStopped deviceCode log
      inferInstanceAs (Decidable (pending = some deviceCode ∨ Stopped deviceCode log))
  | .sent .. :: log | .exchanged _ :: log | .signingIn _ :: log | .answered .. :: log =>
      decidableStopped deviceCode log

instance decidableSignsInLive : ∀ log, Decidable (SignsInLive log)
  | [] => instDecidableTrue
  | .signingIn deviceCode :: log =>
      have := decidableSignsInLive log
      inferInstanceAs (Decidable (¬Stopped deviceCode log ∧ SignsInLive log))
  | .started .. :: log | .stopped _ :: log | .sent .. :: log | .exchanged _ :: log
  | .answered .. :: log => decidableSignsInLive log

instance decidableGoesOn (result : PollResult) : Decidable (GoesOn result) :=
  inferInstanceAs (Decidable (_ ∨ _))

instance decidableUnsent (code : String) (entry : Entry) :
    Decidable (match entry with
      | .sent _ other _ => other ≠ code
      | _ => True) := by
  split <;> infer_instance

instance decidableUnconfirmed (deviceCode : String) (call : Call) :
    Decidable (match call with
      | .confirming exchange => exchange.deviceCode ≠ deviceCode
      | _ => True) := by
  split <;> infer_instance

instance decidableCallCondition (seen : Machine × List Entry) (call : Call) (reply : Reply) :
    Decidable (CallCondition seen call reply) := by
  unfold CallCondition
  split <;> infer_instance

instance decidableCondition (seen : Machine × List Entry) (action : Action) :
    Decidable (Condition seen action) := by
  unfold Condition
  split <;> infer_instance

end

/-! ### The invariant -/

def Call.exchange : Call → Option Exchange
  | .polling _ => none
  | .exchanging exchange | .retrying exchange | .confirming exchange | .signingIn exchange =>
      some exchange

def weight (code : String) : Call → Nat
  | .exchanging exchange | .retrying exchange => if exchange.code = code then 1 else 0
  | _ => 0

structure Invariant (seen : Machine × List Entry) : Prop where
  verifier : ∀ deviceCode code verifier, .sent deviceCode code verifier ∈ seen.2 →
    .started deviceCode verifier ∈ seen.2
  undisturbed : ∀ deviceCode before after, .answered deviceCode before after ∈ seen.2 →
    before.pendingDeviceCode ≠ some deviceCode →
      after.state = before.state ∧ after.pollTimer = before.pollTimer ∧
        after.timeoutTimer = before.timeoutTimer
  live : SignsInLive seen.2
  pending : ∀ deviceCode, seen.1.cubit.pendingDeviceCode = some deviceCode →
    ¬Stopped deviceCode seen.2 ∧
      ∃ verifier, seen.1.cubit.pendingVerifier = some verifier ∧
        .started deviceCode verifier ∈ seen.2
  calls : ∀ call ∈ seen.1.calls, ∀ exchange ∈ call.exchange,
    .started exchange.deviceCode exchange.verifier ∈ seen.2
  confirming : ∀ exchange, .confirming exchange ∈ seen.1.calls →
    ¬Stopped exchange.deviceCode seen.2 ∧
      seen.1.cubit.pendingDeviceCode ≠ some exchange.deviceCode
  once : ∀ code, total (weight code) seen.1.calls + seen.2.count (.exchanged code) ≤ 1
  sent : ∀ code, 0 < total (weight code) seen.1.calls + seen.2.count (.exchanged code) →
    ∃ deviceCode verifier, .sent deviceCode code verifier ∈ seen.2

theorem Invariant.own {seen : Machine × List Entry} (invariant : Invariant seen) : Own seen.2 where
  verifier := invariant.verifier
  undisturbed := invariant.undisturbed
  live := invariant.live
  once code := le_of_add_le_right (invariant.once code)

/-! ### What happens to a history -/

section

variable {deviceCode verifier code : String} {pending : Option String} {log entries : List Entry}

/-- An entry that neither starts nor stops a registration. -/
def Entry.isQuiet : Entry → Bool
  | .started _ _ | .stopped _ => false
  | _ => true

/-- An entry that a method may make as it goes on. -/
def Entry.Right (log : List Entry) : Entry → Prop
  | .started _ _ | .stopped _ => False
  | .sent deviceCode _ verifier => .started deviceCode verifier ∈ log
  | .exchanged _ => True
  | .signingIn deviceCode => ¬Stopped deviceCode log
  | .answered deviceCode before after => before.pendingDeviceCode ≠ some deviceCode →
      after.state = before.state ∧ after.pollTimer = before.pollTimer ∧
        after.timeoutTimer = before.timeoutTimer

theorem isQuiet_of_right (right : ∀ entry ∈ entries, entry.Right log) :
    ∀ entry ∈ entries, entry.isQuiet = true := by
  intro entry member
  cases entry with
  | started | stopped => exact (right _ member).elim
  | sent | exchanged | signingIn | answered => rfl

theorem stopped_append (quiet : ∀ entry ∈ entries, entry.isQuiet = true) :
    Stopped deviceCode (entries ++ log) ↔ Stopped deviceCode log := by
  induction entries with
  | nil => rfl
  | cons entry rest ih =>
    obtain ⟨head, later⟩ := forall_mem_cons.mp quiet
    cases entry with
    | started | stopped => cases head
    | sent | exchanged | signingIn | answered => exact ih later

theorem signsInLive_append (right : ∀ entry ∈ entries, entry.Right log)
    (live : SignsInLive log) : SignsInLive (entries ++ log) := by
  induction entries with
  | nil => exact live
  | cons entry rest ih =>
    obtain ⟨head, later⟩ := forall_mem_cons.mp right
    cases entry with
    | signingIn => exact ⟨mt (stopped_append (isQuiet_of_right later)).mp head, ih later⟩
    | started | stopped | sent | exchanged | answered => exact ih later

@[simp] theorem count_started :
    (.started deviceCode verifier :: log).count (.exchanged code) =
      log.count (.exchanged code) := by
  rw [count_cons_of_ne]
  exact nofun

@[simp] theorem count_stopped :
    (.stopped pending :: log).count (.exchanged code) = log.count (.exchanged code) := by
  rw [count_cons_of_ne]
  exact nofun

end

/-! ### Methods -/

section

variable {cubit : Cubit} {state : EmailVerificationState}

@[simp] theorem pendingDeviceCode_emit :
    (cubit.emit state).pendingDeviceCode = cubit.pendingDeviceCode := by
  unfold Cubit.emit
  split <;> rfl

@[simp] theorem pendingVerifier_emit :
    (cubit.emit state).pendingVerifier = cubit.pendingVerifier := by
  unfold Cubit.emit
  split <;> rfl

@[simp] theorem pendingDeviceCode_cleanup : cubit.cleanup.pendingDeviceCode = none := rfl

@[simp] theorem pendingDeviceCode_fail {error : String} :
    (cubit.fail error).pendingDeviceCode = none := by
  unfold Cubit.fail
  simp

@[simp] theorem pendingDeviceCode_stopPolling : cubit.stopPolling.pendingDeviceCode = none := by
  unfold Cubit.stopPolling
  split <;> simp

def KeepsPending (cubit next : Cubit) : Prop :=
  next.pendingDeviceCode = none ∨
    (next.pendingDeviceCode = cubit.pendingDeviceCode ∧
      next.pendingVerifier = cubit.pendingVerifier)

theorem KeepsPending.refl (cubit : Cubit) : KeepsPending cubit cubit := .inr ⟨rfl, rfl⟩

end

/-! ### Steps -/

section

variable {cubit next : Cubit} {calls : List Call} {log entries : List Entry} {index : Nat}
  {call : Call} {stage : Option Call}

section

variable (invariant : Invariant (⟨cubit, calls⟩, log))

include invariant

theorem Invariant.start {deviceCode verifier email : String}
    (free : ∀ exchange, .confirming exchange ∈ calls → exchange.deviceCode ≠ deviceCode) :
    Invariant (⟨cubit.startPolling deviceCode verifier email, calls⟩,
      .started deviceCode verifier :: log) := by
  have pendingCode : (cubit.startPolling deviceCode verifier email).pendingDeviceCode =
      some deviceCode := by
    unfold Cubit.startPolling
    dsimp only
    split <;> rfl
  have pendingVerifier : (cubit.startPolling deviceCode verifier email).pendingVerifier =
      some verifier := by
    unfold Cubit.startPolling
    dsimp only
    split <;> rfl
  refine ⟨fun other code given member => ?_, fun other before after member => ?_, invariant.live,
    fun other isPending => ?_, fun call member exchange part => ?_, fun exchange member => ?_,
    fun code => ?_, fun code present => ?_⟩
  · exact mem_cons_of_mem _ (invariant.verifier other code given
      ((mem_cons.mp member).resolve_left nofun))
  · exact invariant.undisturbed other before after
      ((mem_cons.mp member).resolve_left nofun)
  · cases pendingCode.symm.trans isPending
    exact ⟨fun stopped => stopped.1 rfl, verifier, pendingVerifier, mem_cons_self⟩
  · exact mem_cons_of_mem _ (invariant.calls call member exchange part)
  · refine ⟨fun stopped => (invariant.confirming exchange member).1 stopped.2, fun isPending => ?_⟩
    exact free exchange member (Option.some.inj (pendingCode.symm.trans isPending)).symm
  · rw [count_started]
    exact invariant.once code
  · rw [count_started] at present
    obtain ⟨other, given, member⟩ := invariant.sent code present
    exact ⟨other, given, mem_cons_of_mem _ member⟩

theorem Invariant.stop (cleared : next.pendingDeviceCode = none) :
    Invariant (⟨next, calls⟩, .stopped cubit.pendingDeviceCode :: log) := by
  refine ⟨fun other code given member => ?_, fun other before after member => ?_, invariant.live,
    fun other isPending => ?_, fun call member exchange part => ?_, fun exchange member => ?_,
    fun code => ?_, fun code present => ?_⟩
  · exact mem_cons_of_mem _ (invariant.verifier other code given
      ((mem_cons.mp member).resolve_left fun same => by cases same))
  · exact invariant.undisturbed other before after
      ((mem_cons.mp member).resolve_left fun same => by cases same)
  · cases cleared.symm.trans isPending
  · exact mem_cons_of_mem _ (invariant.calls call member exchange part)
  · obtain ⟨live, notPending⟩ := invariant.confirming exchange member
    refine ⟨fun stopped => stopped.elim notPending live, fun isPending => ?_⟩
    cases cleared.symm.trans isPending
  · rw [count_stopped]
    exact invariant.once code
  · rw [count_stopped] at present
    obtain ⟨other, given, member⟩ := invariant.sent code present
    exact ⟨other, given, mem_cons_of_mem _ member⟩

theorem Invariant.waits (kept : KeepsPending cubit next) {added : List Call}
    (polls : ∀ call ∈ added, ∃ deviceCode, call = .polling deviceCode) :
    Invariant (⟨next, calls ++ added⟩, log) := by
  have light : ∀ code, total (weight code) (calls ++ added) = total (weight code) calls := by
    intro code
    have none : total (weight code) added = 0 := total_eq_zero fun call member => by
      obtain ⟨deviceCode, rfl⟩ := polls call member
      rfl
    rw [total_append, none, Nat.add_zero]
  refine ⟨invariant.verifier, invariant.undisturbed, invariant.live, fun deviceCode isPending => ?_,
    fun call member exchange part => ?_, fun exchange member => ?_, fun code => ?_,
    fun code present => ?_⟩
  · rcases kept with cleared | ⟨sameCode, sameVerifier⟩
    · cases cleared.symm.trans isPending
    · obtain ⟨live, verifier, given, started⟩ :=
        invariant.pending deviceCode (sameCode.symm.trans isPending)
      exact ⟨live, verifier, sameVerifier.trans given, started⟩
  · rcases mem_append.mp member with before | new
    · exact invariant.calls call before exchange part
    · obtain ⟨deviceCode, rfl⟩ := polls call new
      cases part
  · rcases mem_append.mp member with before | new
    · obtain ⟨live, notPending⟩ := invariant.confirming exchange before
      refine ⟨live, fun isPending => ?_⟩
      rcases kept with cleared | ⟨sameCode, -⟩
      · cases cleared.symm.trans isPending
      · exact notPending (sameCode.symm.trans isPending)
    · obtain ⟨deviceCode, same⟩ := polls _ new
      cases same
  · rw [light]
    exact invariant.once code
  · rw [light] at present
    exact invariant.sent code present

/-- A method goes on: it starts and stops no registration, and exchanges no code that it could not
before. -/
theorem Invariant.proceeds (found : calls[index]? = some call) (kept : KeepsPending cubit next)
    (right : ∀ entry ∈ entries, entry.Right log)
    (part : ∀ call ∈ stage, ∀ exchange ∈ call.exchange,
      .started exchange.deviceCode exchange.verifier ∈ log)
    (confirming : ∀ exchange, .confirming exchange ∈ stage →
      ¬Stopped exchange.deviceCode log ∧ next.pendingDeviceCode = none)
    (codes : ∀ code, weightOf (weight code) stage + entries.count (.exchanged code) ≤
        weight code call ∨
      (weightOf (weight code) stage + entries.count (.exchanged code) ≤ 1 ∧
        (∃ deviceCode verifier, .sent deviceCode code verifier ∈ entries) ∧
          ∀ deviceCode verifier, .sent deviceCode code verifier ∉ log)) :
    Invariant (⟨next, Interleaving.proceed calls index stage⟩, entries ++ log) := by
  have counted (code : String) := total_proceed (weight code) found stage
  have quiet := isQuiet_of_right right
  refine ⟨fun deviceCode code given member => ?_, fun deviceCode before after member => ?_,
    signsInLive_append right invariant.live,
    fun deviceCode isPending => ?_, fun other member exchange inside => ?_,
    fun exchange member => ?_, fun code => ?_, fun code present => ?_⟩
  · refine mem_append_right _ ?_
    rcases mem_append.mp member with new | before
    · exact right _ new
    · exact invariant.verifier deviceCode code given before
  · rcases mem_append.mp member with new | earlier
    · exact right _ new
    · exact invariant.undisturbed deviceCode before after earlier
  · rw [stopped_append quiet]
    rcases kept with cleared | ⟨sameCode, sameVerifier⟩
    · cases cleared.symm.trans isPending
    · obtain ⟨isLive, given, same, started⟩ :=
        invariant.pending deviceCode (sameCode.symm.trans isPending)
      exact ⟨isLive, given, sameVerifier.trans same, mem_append_right _ started⟩
  · refine mem_append_right _ ?_
    rcases mem_proceed member with isNext | others
    · exact part other isNext exchange inside
    · exact invariant.calls other (mem_of_mem_eraseIdx others) exchange inside
  · rw [stopped_append quiet]
    rcases mem_proceed member with isNext | others
    · obtain ⟨isLive, cleared⟩ := confirming exchange isNext
      exact ⟨isLive, fun isPending => by cases cleared.symm.trans isPending⟩
    · obtain ⟨isLive, notPending⟩ :=
        invariant.confirming exchange (mem_of_mem_eraseIdx others)
      refine ⟨isLive, fun isPending => ?_⟩
      rcases kept with cleared | ⟨sameCode, -⟩
      · cases cleared.symm.trans isPending
      · exact notPending (sameCode.symm.trans isPending)
  · have once := invariant.once code
    have changed := counted code
    rw [count_append]
    rcases codes code with less | ⟨single, -, unsent⟩
    · dsimp only at once ⊢
      omega
    · have none : ¬0 < total (weight code) calls + log.count (.exchanged code) := fun positive => by
        obtain ⟨deviceCode, given, member⟩ := invariant.sent code positive
        exact unsent deviceCode given member
      dsimp only at once ⊢
      omega
  · have changed := counted code
    rw [count_append] at present
    rcases codes code with less | ⟨-, ⟨deviceCode, given, member⟩, -⟩
    · obtain ⟨deviceCode, given, member⟩ := invariant.sent code (by dsimp only at present ⊢; omega)
      exact ⟨deviceCode, given, mem_append_right _ member⟩
    · exact ⟨deviceCode, given, mem_append_left _ member⟩

/-- A method that waits for what does not come from a poll or an exchange, or changes nothing. -/
theorem Invariant.ends (found : calls[index]? = some call) (kept : KeepsPending cubit next)
    (answered : ∀ entry ∈ entries, ∃ deviceCode, entry = .answered deviceCode cubit next ∧
      (cubit.pendingDeviceCode = some deviceCode ∨ next = cubit))
    (same : stage = none ∨ ∃ exchange, call = .exchanging exchange ∧
      stage = some (.retrying exchange)) :
    Invariant (⟨next, Interleaving.proceed calls index stage⟩, entries ++ log) := by
  refine invariant.proceeds found kept ?_ ?_ ?_ ?_
  · intro entry member
    obtain ⟨deviceCode, rfl, reason⟩ := answered entry member
    intro differs
    rcases reason with isPending | rfl
    · exact absurd isPending differs
    · exact ⟨rfl, rfl, rfl⟩
  · intro other isNext exchange inside
    rcases same with rfl | ⟨exchange, rfl, rfl⟩
    · cases isNext
    · cases isNext
      cases inside
      exact invariant.calls _ (mem_of_getElem? found) exchange rfl
  · intro exchange isNext
    rcases same with rfl | ⟨other, rfl, rfl⟩ <;> cases isNext
  · intro code
    refine .inl ?_
    have none : entries.count (.exchanged code) = 0 := count_eq_zero.mpr fun member => by
      obtain ⟨deviceCode, wrong, -⟩ := answered _ member
      cases wrong
    rw [none]
    rcases same with rfl | ⟨exchange, rfl, rfl⟩
    · exact Nat.zero_le _
    · exact Nat.le_refl _

end

theorem exchangeFailed_of_last {exchange : Exchange}
    (last : exchange.attempt = maxExchangeRetries) :
    exchangeFailed cubit exchange =
      (cubit.fail "Network error during sign-in. Please try again.", none) :=
  if_pos last

theorem Invariant.exchangeThrew (invariant : Invariant (⟨cubit, calls⟩, log)) {exchange : Exchange}
    (found : calls[index]? = some (.exchanging exchange))
    (condition : exchange.attempt = maxExchangeRetries →
      cubit.pendingDeviceCode = some exchange.deviceCode) :
    Invariant (⟨(exchangeFailed cubit exchange).1,
        Interleaving.proceed calls index (exchangeFailed cubit exchange).2⟩,
      [.answered exchange.deviceCode cubit (exchangeFailed cubit exchange).1] ++ log) := by
  by_cases last : exchange.attempt = maxExchangeRetries
  · rw [exchangeFailed_of_last last]
    refine invariant.ends found (.inl pendingDeviceCode_fail) (fun entry member => ?_) (.inl rfl)
    exact ⟨_, mem_singleton.mp member, .inl (condition last)⟩
  · have again : exchangeFailed cubit exchange = (cubit, some (.retrying exchange)) := if_neg last
    rw [again]
    refine invariant.ends found (.refl cubit) (fun entry member => ?_) (.inr ⟨exchange, rfl, rfl⟩)
    exact ⟨_, mem_singleton.mp member, .inr rfl⟩

theorem Invariant.polls (invariant : Invariant (⟨cubit, calls⟩, log)) {deviceCode : String}
    {result : PollResult} (found : calls[index]? = some (.polling deviceCode))
    (condition : CallCondition (⟨cubit, calls⟩, log) (.polling deviceCode) (.polled result)) :
    Invariant (⟨(polled cubit deviceCode result).1,
        Interleaving.proceed calls index (polled cubit deviceCode result).2.1⟩,
      (polled cubit deviceCode result).2.2 ++
        [.answered deviceCode cubit (polled cubit deviceCode result).1] ++ log) := by
  have quietly (same : polled cubit deviceCode result = (cubit, none, [])) : Invariant
      (⟨(polled cubit deviceCode result).1,
        Interleaving.proceed calls index (polled cubit deviceCode result).2.1⟩,
      (polled cubit deviceCode result).2.2 ++
        [.answered deviceCode cubit (polled cubit deviceCode result).1] ++ log) := by
    rw [same]
    refine invariant.ends found (.refl cubit) (fun entry member => ?_) (.inl rfl)
    exact ⟨_, mem_singleton.mp member, .inr rfl⟩
  rcases condition with (waits | ⟨isError, network⟩) | ⟨isPending, unsent⟩
  · exact quietly (by unfold polled; rw [waits])
  · refine quietly ?_
    unfold polled
    rw [isError]
    exact if_pos network
  · have failing (error : String)
      (same : polled cubit deviceCode result = (cubit.fail error, none, [])) :
        Invariant (⟨(polled cubit deviceCode result).1,
          Interleaving.proceed calls index (polled cubit deviceCode result).2.1⟩,
        (polled cubit deviceCode result).2.2 ++
          [.answered deviceCode cubit (polled cubit deviceCode result).1] ++ log) := by
      rw [same]
      refine invariant.ends found (.inl pendingDeviceCode_fail) (fun entry member => ?_) (.inl rfl)
      exact ⟨_, mem_singleton.mp member, .inl isPending⟩
    cases status : result.status with
    | pending => exact quietly (by unfold polled; rw [status])
    | error =>
      cases network : isNetworkError (result.error.getD "Verification failed") with
      | true =>
        refine quietly ?_
        unfold polled
        rw [status]
        exact if_pos network
      | false =>
        refine failing (result.error.getD "Verification failed") ?_
        unfold polled
        rw [status]
        exact if_neg (Bool.eq_false_iff.mp network)
    | complete =>
      obtain ⟨live, verifier, given, started⟩ := invariant.pending deviceCode isPending
      cases delivered : result.code with
      | none =>
        refine failing "Verification failed - missing authorization code" ?_
        unfold polled
        rw [status, delivered]
      | some code =>
        have sends : polled cubit deviceCode result = ({ cubit with pollTimer := false },
            some (.exchanging ⟨deviceCode, code, verifier, 1⟩),
            [.sent deviceCode code verifier]) := by
          have given : cubit.pendingVerifier = some verifier := given
          unfold polled
          rw [status, delivered, given]
        rw [sends]
        refine invariant.proceeds found (.inr ⟨rfl, rfl⟩) (forall_mem_cons.mpr ⟨started,
          forall_mem_singleton.mpr fun differs => absurd isPending differs⟩) ?_ nofun ?_
        · rintro _ ⟨⟩ _ ⟨⟩
          exact started
        · intro other
          by_cases same : code = other
          · subst same
            refine .inr ⟨?_, ⟨deviceCode, verifier, mem_cons_self⟩, fun another sent member => ?_⟩
            · simp [weightOf, weight]
            · exact unsent code (mem_def.mpr delivered) _ member rfl
          · refine .inl ?_
            simp [weightOf, weight, same]

theorem Invariant.resume (invariant : Invariant (⟨cubit, calls⟩, log))
    (found : calls[index]? = some call) {reply : Reply}
    (condition : CallCondition (⟨cubit, calls⟩, log) call reply)
    (resumed : EmailVerification.resume cubit call reply = some (next, stage, entries)) :
    Invariant (⟨next, Interleaving.proceed calls index stage⟩, entries ++ log) := by
  unfold EmailVerification.resume at resumed
  split at resumed
  · simp only [Option.some.injEq, Prod.mk.injEq] at resumed
    obtain ⟨rfl, rfl, rfl⟩ := resumed
    exact invariant.polls found condition
  · cases resumed
    exact invariant.ends found (.refl cubit) (fun _ absent => by cases absent) (.inl rfl)
  · rename_i exchange
    obtain ⟨isPending, isOpen⟩ := condition
    have isOpen : cubit.isClosed = false := isOpen
    have isPending : cubit.pendingDeviceCode = some exchange.deviceCode := isPending
    simp only [exchanged, isOpen, Bool.false_eq_true, if_false, Option.some.injEq,
      Prod.mk.injEq] at resumed
    obtain ⟨rfl, rfl, rfl⟩ := resumed
    obtain ⟨live, -⟩ := invariant.pending exchange.deviceCode isPending
    refine invariant.proceeds found (.inl (by simp)) (forall_mem_cons.mpr ⟨trivial,
      forall_mem_singleton.mpr fun differs => absurd isPending differs⟩) ?_ ?_ ?_
    · rintro _ ⟨⟩ _ ⟨⟩
      exact invariant.calls _ (mem_of_getElem? found) exchange rfl
    · rintro _ ⟨⟩
      exact ⟨live, by simp⟩
    · intro code
      refine .inl ?_
      by_cases same : exchange.code = code
      · subst same
        simp [weightOf, weight]
      · simp [weightOf, weight, same]
  · cases resumed
    refine invariant.ends found (.inl pendingDeviceCode_fail) (fun entry member => ?_) (.inl rfl)
    exact ⟨_, mem_singleton.mp member, .inl condition⟩
  · simp only [Option.some.injEq, Prod.mk.injEq] at resumed
    obtain ⟨rfl, rfl, rfl⟩ := resumed
    exact invariant.exchangeThrew found condition
  · rename_i exchange
    cases resumed
    have started := invariant.calls _ (mem_of_getElem? found) exchange rfl
    refine invariant.proceeds found (.refl cubit) (forall_mem_singleton.mpr started) ?_ nofun ?_
    · rintro _ ⟨⟩ _ ⟨⟩
      exact started
    · intro code
      refine .inl ?_
      simp [weightOf, weight]
  · rename_i exchange
    cases resumed
    obtain ⟨live, -⟩ := invariant.confirming exchange (mem_of_getElem? found)
    refine invariant.proceeds found (.refl cubit) (forall_mem_singleton.mpr live) ?_ nofun ?_
    · rintro _ ⟨⟩ _ ⟨⟩
      exact invariant.calls _ (mem_of_getElem? found) exchange rfl
    · intro code
      refine .inl ?_
      simp [weightOf, weight]
  · rename_i exchange isAnonymous
    simp only [Option.some.injEq, Prod.mk.injEq] at resumed
    obtain ⟨rfl, rfl, rfl⟩ := resumed
    have outcome : KeepsPending cubit (signedIn cubit exchange isAnonymous).1 ∧
        (signedIn cubit exchange isAnonymous).2 = none := by
      unfold signedIn
      cases isAnonymous with
      | false => exact ⟨.refl cubit, rfl⟩
      | true =>
        cases isClosed : cubit.isClosed with
        | false =>
          rw [Bool.not_true, if_neg Bool.false_ne_true, if_neg Bool.false_ne_true]
          exact ⟨.inr ⟨pendingDeviceCode_emit, pendingVerifier_emit⟩, rfl⟩
        | true =>
          rw [Bool.not_true, if_neg Bool.false_ne_true, if_pos rfl,
            exchangeFailed_of_last (condition rfl isClosed)]
          exact ⟨.inl pendingDeviceCode_fail, rfl⟩
    exact invariant.ends found outcome.1 (fun _ absent => by cases absent) (.inl outcome.2)
  · rename_i exchange
    simp only [Option.some.injEq, Prod.mk.injEq] at resumed
    obtain ⟨rfl, rfl, rfl⟩ := resumed
    rw [exchangeFailed_of_last condition]
    exact invariant.ends found (.inl pendingDeviceCode_fail) (fun _ absent => by cases absent)
      (.inl rfl)
  · cases resumed

theorem Invariant.step {seen after : Machine × List Entry} {action : Action}
    (invariant : Invariant seen) (condition : Condition seen action)
    (sees : watched EmailVerification.step observe seen action = some after) :
    Invariant after := by
  obtain ⟨⟨cubit, calls⟩, log⟩ := seen
  obtain ⟨entries, stepped, recorded⟩ := watched_eq_some.mp sees
  obtain ⟨next, history⟩ := after
  obtain rfl : history = entries ++ log := recorded
  cases action with
  | startPolling deviceCode verifier email =>
    cases stepped
    exact invariant.start fun exchange member => condition _ member
  | stopPolling =>
    cases stepped
    exact invariant.stop pendingDeviceCode_stopPolling
  | emitFailure error =>
    cases stepped
    exact invariant.stop pendingDeviceCode_fail
  | timeout =>
    simp only [EmailVerification.step] at stepped
    split at stepped
    · cases stepped
      exact invariant.stop pendingDeviceCode_fail
    · cases stepped
  | close =>
    cases stepped
    exact invariant.stop rfl
  | poll isAuthenticated =>
    simp only [EmailVerification.step] at stepped
    split at stepped
    · cases stepped
      unfold EmailVerification.poll
      split
      · exact invariant.waits (.inl (by simp)) nofun
      · split
        · exact invariant.waits (.inl rfl) nofun
        · split
          · exact invariant.waits (.inl rfl) nofun
          · rename_i deviceCode _
            refine invariant.waits (.refl cubit) fun call member => ⟨deviceCode, ?_⟩
            exact mem_singleton.mp member
    · cases stepped
  | completedElsewhere deviceCode =>
    cases stepped
    have waits := @Invariant.waits cubit { cubit with completedDeviceCode := some deviceCode } calls
      log invariant (.inr ⟨rfl, rfl⟩) [] nofun
    rw [append_nil] at waits
    exact waits
  | answer index reply =>
    obtain ⟨call, found, resumed⟩ := bind_eq_some_iff.mp stepped
    obtain ⟨⟨advanced, stage, made⟩, went, same⟩ := map_eq_some_iff.mp resumed
    cases same
    exact invariant.resume found (condition call found) went

end

/-! ### Runs -/

/-- The cubit signs in the registration that it waits for in a run whose steps meet the condition.
-/
theorem own_registration_of_run {actions : List Action} {final : Machine × List Entry}
    (meets : Meets (watched step observe) Condition (initialMachine, []) actions)
    (ran : run (watched step observe) (initialMachine, []) actions = some final) :
    Own final.2 := by
  have initial : Invariant (initialMachine, []) :=
    { verifier := nofun
      undisturbed := fun _ _ _ member => absurd member not_mem_nil
      live := trivial
      pending := nofun
      calls := nofun
      confirming := nofun
      once := fun _ => Nat.zero_le 1
      sent := fun _ present => absurd present (Nat.lt_irrefl 0) }
  exact (invariant_of_meets (watched step observe)
    (fun _ _ _ invariant condition stepped => Invariant.step invariant condition stepped)
    initial meets ran).own

section

def historyAfter (actions : List Action) : Option (Machine × List Entry) :=
  run (watched step observe) (initialMachine, []) actions

/-- A registration is verified while another poll for it waits. -/
def verifies : List Action :=
  [.startPolling "first" "verifier" "user@example.com", .poll false, .poll false,
    .answer 0 (.polled { status := .pending }),
    .answer 0 (.polled { status := .complete, code := some "code" }), .answer 0 .thrown,
    .answer 0 .elapsed, .answer 0 .exchanged, .answer 0 .elapsed, .answer 0 (.signedIn false)]

theorem own_verified : ∃ final, historyAfter verifies = some final ∧ Own final.2 := by
  refine exists_of_isSome (by decide +kernel) fun final ran => ?_
  exact own_registration_of_run (by decide +kernel) ran

/-- A second registration is started while a poll for the first one waits. -/
def restarts : List Action :=
  [.startPolling "first" "one" "user@example.com", .poll false,
    .startPolling "second" "two" "user@example.com",
    .answer 0 (.polled { status := .complete, code := some "code" })]

def cancels : List Action :=
  [.startPolling "first" "one" "user@example.com", .poll false,
    .answer 0 (.polled { status := .complete, code := some "code" }), .stopPolling,
    .answer 0 .exchanged, .answer 0 .elapsed]

def overlaps : List Action :=
  [.startPolling "first" "one" "user@example.com", .poll false, .poll false,
    .answer 0 (.polled { status := .complete, code := some "code" }),
    .answer 1 (.polled { status := .complete, code := some "code" }),
    .answer 0 .exchanged, .answer 1 .exchanged]

/-- A code is sent with the verifier of another registration, a sign-in starts for a cancelled one,
and a code is exchanged twice. -/
theorem mistakes :
    (∃ final, historyAfter restarts = some final ∧ ¬Own final.2 ∧
      final.1.cubit.pendingDeviceCode = some "second" ∧ final.1.cubit.pollTimer = false) ∧
    (∃ final, historyAfter cancels = some final ∧ ¬Own final.2) ∧
    ∃ final, historyAfter overlaps = some final ∧ ¬Own final.2 := by
  refine ⟨?_, ?_, ?_⟩
  · obtain ⟨final, ran, sent, unstarted, isPending⟩ := @exists_of_any _
      (historyAfter restarts) (fun final => .sent "first" "code" "two" ∈ final.2 ∧
        .started "first" "two" ∉ final.2 ∧
          final.1.cubit.pendingDeviceCode = some "second" ∧ final.1.cubit.pollTimer = false)
      _ (by decide +kernel)
    exact ⟨final, ran, fun own => unstarted (own.verifier _ _ _ sent), isPending⟩
  · obtain ⟨final, ran, stopped⟩ := @exists_of_any _ (historyAfter cancels)
      (fun final => ¬SignsInLive final.2) _ (by decide +kernel)
    exact ⟨final, ran, fun own => stopped own.live⟩
  · obtain ⟨final, ran, twice⟩ := @exists_of_any _ (historyAfter overlaps)
      (fun final => final.2.count (.exchanged "code") = 2) _ (by decide +kernel)
    exact ⟨final, ran, fun own => absurd (own.once "code") (by rw [twice]; decide)⟩

end

end Divine.EmailVerification
