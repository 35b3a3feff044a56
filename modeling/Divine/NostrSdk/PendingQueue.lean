/-
This file settles when the queue of a relay keeps its messages.
-/

import Divine.NostrSdk.Relay
import Divine.Library.Transition

namespace Divine.NostrSdk.Relay

open List Option

variable {relay : Relay}

/-! ### The property and the condition -/

/-- No flush was aborted, and every message that was queued and not transmitted since is in the
queue. -/
structure Kept (relay : Relay) : Prop where
  owed : ∀ call ∈ relay.owed, ∃ message ∈ relay.pendingMessages, message.call = call
  aborted : relay.aborted = 0

/-- A `send` fails before its transmission. -/
def failsAtOnce (relay : Relay) (encodes : Bool) : Bool :=
  match relay.kind with
  | .base => !relay.opened
  | .isolate => !relay.opened || !encodes

/-- Calling `onConnected` starts no flush beside another, nor one whose first send fails at once. -/
def FlushesAlone (relay : Relay) (encodes : Bool) : Prop :=
  relay.pendingMessages ≠ [] → relay.flushes = [] ∧ relay.failsAtOnce encodes = false

/-- During a flush nothing is queued, no other starts, and its sends succeed. -/
def Undisturbed (relay : Relay) : RelayAction → Prop
  | .send _ queueIfFailed encodes =>
      relay.flushes = [] ∨ relay.kind = .base ∨ queueIfFailed = false ∨
        relay.failsAtOnce encodes = false
  | .add _ => relay.flushes = []
  | .sendEnds place outcome =>
      relay.flushes = [] ∨ outcome = .sent ∨
        ∀ sent, relay.sends[place]? = some sent → sent.queueIfFailed = false
  | .connectResumes place encodes =>
      relay.connects[place]? = some (.returned true) → relay.FlushesAlone encodes
  | .stateChanged state encodes =>
      state = .connected → relay.kind = .base → relay.connected ≠ .connected →
        relay.isConnecting = false → relay.FlushesAlone encodes
  | .flushSendEnds _ outcome => outcome = .sent
  | .flushResumes place encodes =>
      ∀ flush, relay.flushes[place]? = some flush → flush.index + 1 < flush.length →
        relay.failsAtOnce encodes = false
  | .connect _ | .doConnectEnds _ _ | .portReceived | .disconnect | .dispose => True

/-! ### The invariant -/

/-- A flush whose iterator is at its message and has transmitted those before it. -/
structure OnTrack (relay : Relay) (flush : Flush) : Prop where
  length : relay.pendingMessages.length = flush.length
  here : relay.pendingMessages[flush.index]? = some flush.message
  before : ∀ message ∈ relay.pendingMessages.take flush.index, message.call ∉ relay.owed
  result : ∀ result, flush.result = some result → flush.message.call ∉ relay.owed

/-- What holds of every relay in an undisturbed run. -/
structure Steady (relay : Relay) : Prop extends relay.Kept where
  single : relay.flushes = [] ∨ ∃ flush, relay.flushes = [flush] ∧ relay.OnTrack flush

theorem Steady.of_frame {next : Relay} (steady : relay.Steady)
    (pendingMessages : next.pendingMessages = relay.pendingMessages)
    (flushes : next.flushes = relay.flushes) (owed : next.owed ⊆ relay.owed)
    (aborted : next.aborted = relay.aborted) : next.Steady := by
  refine ⟨⟨fun call member => ?_, aborted.trans steady.aborted⟩, ?_⟩
  · rw [pendingMessages]
    exact steady.owed call (owed member)
  · rw [flushes]
    refine steady.single.imp_right ?_
    rintro ⟨flush, same, onTrack⟩
    refine ⟨flush, same, ?_⟩
    constructor
    · rw [pendingMessages]
      exact onTrack.length
    · rw [pendingMessages]
      exact onTrack.here
    · rw [pendingMessages]
      exact fun message member owes => onTrack.before message member (owed owes)
    · exact fun result returned owes => onTrack.result result returned (owed owes)

theorem Steady.of_idle (kept : relay.Kept) (idle : relay.flushes = []) : relay.Steady :=
  ⟨kept, .inl idle⟩

theorem Kept.queue (kept : relay.Kept) (message : QueuedMessage) : (relay.queue message).Kept := by
  refine ⟨fun call member => ?_, kept.aborted⟩
  rcases mem_cons.mp member with rfl | before
  · exact ⟨message, mem_append_right _ mem_cons_self, rfl⟩
  · obtain ⟨queued, present, same⟩ := kept.owed call before
    exact ⟨queued, mem_append_left _ present, same⟩

theorem Kept.transmitted (kept : relay.Kept) (message : QueuedMessage) :
    (relay.transmitted message).Kept :=
  ⟨fun call member => kept.owed call (mem_of_mem_filter member), kept.aborted⟩

theorem not_mem_transmitted (message : QueuedMessage) :
    message.call ∉ (relay.transmitted message).owed := by
  intro member
  exact of_decide_eq_true (mem_filter.mp member).2 rfl

/-! ### Sending -/

theorem queueIf_flushes (queueIfFailed : Bool) (message : QueuedMessage) :
    (relay.queueIf queueIfFailed message).flushes = relay.flushes := by
  cases queueIfFailed <;> rfl

section

variable (steady : relay.Steady)

include steady

theorem queueIf_steady {queueIfFailed : Bool} (message : QueuedMessage)
    (quiet : relay.flushes = [] ∨ queueIfFailed = false) :
    (relay.queueIf queueIfFailed message).Steady := by
  rcases quiet with idle | rfl
  · refine .of_idle ?_ ((queueIf_flushes queueIfFailed message).trans idle)
    cases queueIfFailed with
    | false => exact steady.toKept
    | true => exact steady.toKept.queue message
  · exact steady

theorem onError_steady : relay.onError.Steady :=
  steady.of_frame rfl rfl (List.Subset.refl _) rfl

theorem transmitted_steady (message : QueuedMessage) :
    (relay.transmitted message).Steady :=
  steady.of_frame rfl rfl (filter_subset_self _) rfl

theorem send_steady {queueIfFailed encodes : Bool} (message : QueuedMessage)
    (quiet : relay.flushes = [] ∨ relay.kind = .base ∨ queueIfFailed = false ∨
      relay.failsAtOnce encodes = false) :
    (relay.send message queueIfFailed encodes).1.Steady := by
  unfold send
  cases kind : relay.kind with
  | base => cases relay.opened <;> exact steady
  | isolate =>
    cases opened : relay.opened with
    | false =>
      refine queueIf_steady steady message (quiet.imp_right fun others => ?_)
      rcases others with base | unqueued | succeeds
      · cases kind.symm.trans base
      · exact unqueued
      · simp [failsAtOnce, kind, opened] at succeeds
    | true =>
      cases encodes with
      | true => exact transmitted_steady steady message
      | false =>
        refine onError_steady (queueIf_steady steady message (quiet.imp_right fun others => ?_))
        rcases others with base | unqueued | succeeds
        · cases kind.symm.trans base
        · exact unqueued
        · simp [failsAtOnce, kind] at succeeds

theorem finishSend_steady {sent : SendCall} {outcome : Transmission}
    (quiet : relay.flushes = [] ∨ outcome = .sent ∨ sent.queueIfFailed = false) :
    (relay.finishSend sent outcome).1.Steady := by
  cases outcome with
  | sent => exact transmitted_steady steady sent.message
  | refused =>
    exact queueIf_steady steady sent.message
      (quiet.imp_right fun others => others.resolve_left nofun)
  | threw =>
    exact onError_steady (queueIf_steady steady sent.message
      (quiet.imp_right fun others => others.resolve_left nofun))

end

theorem send_of_succeeds {encodes : Bool} (succeeds : relay.failsAtOnce encodes = false)
    (message : QueuedMessage) (queueIfFailed : Bool) :
    (relay.send message queueIfFailed encodes = (relay, none)) ∨
      relay.send message queueIfFailed encodes = (relay.transmitted message, some true) := by
  unfold failsAtOnce at succeeds
  unfold send
  cases kind : relay.kind with
  | base =>
    rw [kind] at succeeds
    refine .inl ?_
    rw [if_pos ((Bool.not_eq_false' _).mp succeeds)]
  | isolate =>
    rw [kind] at succeeds
    obtain ⟨opened, encoded⟩ := Bool.or_eq_false_iff.mp succeeds
    refine .inr ?_
    dsimp only
    rw [if_pos ((Bool.not_eq_false' _).mp opened), if_pos ((Bool.not_eq_false' _).mp encoded)]

/-! ### Flushing -/

theorem flushFrom_steady (kept : relay.Kept) (idle : relay.flushes = []) {length index : Nat}
    {encodes : Bool} (sameLength : relay.pendingMessages.length = length)
    (before : ∀ message ∈ relay.pendingMessages.take index, message.call ∉ relay.owed)
    (succeeds : index < length → relay.failsAtOnce encodes = false) :
    (relay.flushFrom length index encodes).Steady := by
  unfold flushFrom
  rw [if_neg (not_not_intro sameLength)]
  cases found : relay.pendingMessages[index]? with
  | none =>
    -- the iterator is at the end, so that nothing in the queue is owed
    have atEnd := getElem?_eq_none_iff.mp found
    rw [take_of_length_le atEnd] at before
    refine .of_idle ⟨fun call member => ?_, kept.aborted⟩ idle
    obtain ⟨message, present, rfl⟩ := kept.owed call member
    exact absurd member (before message present)
  | some message =>
    obtain ⟨inBounds, -⟩ := List.getElem?_eq_some_iff.mp found
    dsimp only
    rcases send_of_succeeds (succeeds (sameLength ▸ inBounds)) message true with begun | begun
    · rw [begun]
      refine ⟨⟨kept.owed, kept.aborted⟩, .inr ⟨⟨length, index, message, none⟩, ?_, ?_⟩⟩
      · exact congrArg (· ++ [_]) idle
      · exact ⟨sameLength, found, before, nofun⟩
    · rw [begun]
      refine ⟨⟨(kept.transmitted message).owed, kept.aborted⟩,
        .inr ⟨⟨length, index, message, some true⟩, ?_, ?_⟩⟩
      · exact congrArg (· ++ [_]) idle
      · refine ⟨sameLength, found, fun other member owes => ?_, fun _ _ =>
          not_mem_transmitted message⟩
        exact before other member (mem_of_mem_filter owes)

section

variable (steady : relay.Steady)

include steady

theorem onConnected_steady {encodes : Bool}
    (alone : relay.FlushesAlone encodes) : (relay.onConnected encodes).Steady := by
  unfold onConnected
  by_cases nothing : relay.pendingMessages = []
  · rw [if_pos nothing]
    exact steady
  · rw [if_neg nothing]
    obtain ⟨idle, succeeds⟩ := alone nothing
    refine flushFrom_steady steady.toKept idle rfl ?_ fun _ => succeeds
    exact nofun

theorem Steady.flush {place : Nat} {flush : Flush} (found : relay.flushes[place]? = some flush) :
    place = 0 ∧ relay.flushes = [flush] ∧ relay.OnTrack flush := by
  rcases steady.single with none | ⟨only, single, onTrack⟩
  · rw [none] at found
    cases found
  · rw [single] at found ⊢
    obtain ⟨inBounds, same⟩ := List.getElem?_eq_some_iff.mp found
    obtain rfl := Nat.lt_one_iff.mp inBounds
    rw [← same]
    exact ⟨rfl, rfl, onTrack⟩

/-! ### Steps -/

theorem sendMessage_steady {queueIfFailed encodes : Bool} (content : String)
    (quiet : relay.flushes = [] ∨ relay.kind = .base ∨ queueIfFailed = false ∨
      relay.failsAtOnce encodes = false) :
    (relay.sendMessage content queueIfFailed encodes).Steady :=
  (send_steady steady ⟨relay.calls, content⟩ quiet).of_frame rfl rfl (List.Subset.refl _) rfl

theorem connect_steady (alreadyConnected : Bool) :
    (relay.connect alreadyConnected).Steady := by
  unfold connect
  cases alreadyConnected with
  | true => exact steady.of_frame rfl rfl (List.Subset.refl _) rfl
  | false => cases relay.kind <;> exact steady.of_frame rfl rfl (List.Subset.refl _) rfl

theorem doConnectEnds_steady (place : Nat) (opens : Bool)
    (outcome : Connecting) : (relay.doConnectEnds place opens outcome).Steady := by
  cases outcome with
  | connected => cases opens <;> exact steady.of_frame rfl rfl (List.Subset.refl _) rfl
  | failed | threw => exact steady.of_frame rfl rfl (List.Subset.refl _) rfl

theorem connectResumes_steady {place : Nat} {result encodes : Bool}
    (alone : result = true → relay.FlushesAlone encodes) :
    (relay.connectResumes place result encodes).Steady := by
  have ended : { relay with connects := relay.connects.eraseIdx place }.Steady :=
    steady.of_frame rfl rfl (List.Subset.refl _) rfl
  cases result with
  | false => exact ended
  | true => exact onConnected_steady ended (alone rfl)

theorem stateChanged_steady {state : ConnectionState} {encodes : Bool}
    (alone : state = .connected → relay.kind = .base → relay.connected ≠ .connected →
      relay.isConnecting = false → relay.FlushesAlone encodes) :
    (relay.stateChanged state encodes).Steady := by
  cases state with
  | connected =>
    have reported : { relay with connected := .connected }.Steady :=
      steady.of_frame rfl rfl (List.Subset.refl _) rfl
    dsimp only [stateChanged]
    split
    · next flushes =>
      simp only [Bool.and_eq_true, decide_eq_true_eq, Bool.not_eq_true'] at flushes
      exact onConnected_steady reported (alone rfl flushes.1.1 flushes.1.2 flushes.2)
    · exact reported
  | connecting | disconnected => exact steady.of_frame rfl rfl (List.Subset.refl _) rfl

theorem dispose_steady : relay.dispose.Steady := by
  unfold dispose
  cases relay.kind with
  | base => exact steady.of_frame rfl rfl (List.Subset.refl _) rfl
  | isolate => exact steady

theorem flushSendEnds_steady {place length index : Nat}
    {message : QueuedMessage}
      (found : relay.flushes[place]? = some ⟨length, index, message, none⟩) :
    { relay.transmitted message with
      flushes := relay.flushes.set place ⟨length, index, message, some true⟩ }.Steady := by
  obtain ⟨rfl, single, onTrack⟩ := steady.flush found
  refine ⟨⟨(steady.toKept.transmitted message).owed, steady.aborted⟩,
    .inr ⟨⟨length, index, message, some true⟩, ?_, ?_⟩⟩
  · rw [single]
    rfl
  · refine ⟨onTrack.length, onTrack.here, fun other member owes => ?_, fun _ _ =>
      not_mem_transmitted message⟩
    exact onTrack.before other member (mem_of_mem_filter owes)

theorem flushResumes_steady {place length index : Nat}
    {message : QueuedMessage} {result encodes : Bool}
    (found : relay.flushes[place]? = some ⟨length, index, message, some result⟩)
    (succeeds : index + 1 < length → relay.failsAtOnce encodes = false) :
    ({ relay with flushes := relay.flushes.eraseIdx place }.flushFrom length (index + 1)
      encodes).Steady := by
  obtain ⟨rfl, single, onTrack⟩ := steady.flush found
  have erased : { relay with flushes := relay.flushes.eraseIdx 0 }.Kept :=
    ⟨steady.owed, steady.aborted⟩
  have idle := congrArg (eraseIdx · 0) single
  refine flushFrom_steady erased idle onTrack.length (fun other member => ?_) succeeds
  rw [take_add_one, onTrack.here] at member
  rcases mem_append.mp member with before | here
  · exact onTrack.before other before
  · rw [mem_singleton.mp here]
    exact onTrack.result result rfl

theorem relayStep_steady {action : RelayAction} {next : Relay}
    (undisturbed : relay.Undisturbed action) (stepped : relayStep relay action = some next) :
    next.Steady := by
  cases action with
  | send content queueIfFailed encodes =>
    rw [← Option.some.inj stepped]
    exact sendMessage_steady steady content undisturbed
  | add content =>
    rw [← Option.some.inj stepped]
    have kept := steady.toKept.queue ⟨relay.calls, content⟩
    exact .of_idle ⟨kept.owed, kept.aborted⟩ undisturbed
  | sendEnds place outcome =>
    obtain ⟨sent, found, ended⟩ := map_eq_some_iff.mp stepped
    rw [← ended]
    have erased : { relay with sends := relay.sends.eraseIdx place }.Steady :=
      steady.of_frame rfl rfl (List.Subset.refl _) rfl
    refine finishSend_steady erased (undisturbed.imp_right fun others => ?_)
    exact others.imp_right fun unqueued => unqueued sent found
  | connect alreadyConnected =>
    rw [← Option.some.inj stepped]
    exact connect_steady steady alreadyConnected
  | doConnectEnds place outcome =>
    dsimp only [relayStep] at stepped
    split at stepped
    · rw [← Option.some.inj stepped]
      exact doConnectEnds_steady steady place _ outcome
    · cases stepped
  | connectResumes place encodes =>
    dsimp only [relayStep] at stepped
    split at stepped
    · next result found =>
      rw [← Option.some.inj stepped]
      exact connectResumes_steady steady fun connected => undisturbed (connected ▸ found)
    · cases stepped
  | stateChanged state encodes =>
    rw [← Option.some.inj stepped]
    exact stateChanged_steady steady undisturbed
  | portReceived =>
    obtain ⟨-, received⟩ := ite_none_right_eq_some.mp stepped
    rw [← Option.some.inj received]
    exact steady.of_frame rfl rfl (List.Subset.refl _) rfl
  | disconnect =>
    rw [← Option.some.inj stepped]
    exact steady.of_frame rfl rfl (List.Subset.refl _) rfl
  | dispose =>
    rw [← Option.some.inj stepped]
    exact dispose_steady steady
  | flushSendEnds place outcome =>
    dsimp only [relayStep] at stepped
    split at stepped
    · next found =>
      rw [← Option.some.inj stepped]
      obtain rfl : outcome = .sent := undisturbed
      exact flushSendEnds_steady steady found
    · cases stepped
  | flushResumes place encodes =>
    dsimp only [relayStep] at stepped
    split at stepped
    · next found =>
      rw [← Option.some.inj stepped]
      exact flushResumes_steady steady found (undisturbed _ found)
    · cases stepped

end

/-! ### Runs -/

theorem steady_fresh (kind : RelayClass) : (fresh kind).Steady :=
  .of_idle ⟨nofun, rfl⟩ rfl

/-- Every undisturbed run keeps the queued messages. -/
theorem run_kept (kind : RelayClass) (actions : List RelayAction) (reached : Relay)
    (undisturbed : Transition.Meets relayStep Undisturbed (fresh kind) actions)
    (ran : Transition.run relayStep (fresh kind) actions = some reached) : reached.Kept :=
  (Transition.invariant_of_meets relayStep
    (fun _ _ _ steady meets stepped => relayStep_steady steady meets stepped)
    (steady_fresh kind) undisturbed ran).toKept

/-- Two messages whose sends failed are flushed when the relay connects. -/
theorem run_kept_sample : ∃ reached,
    Transition.run relayStep (fresh .base)
      [.connect false, .send "REQ" true true, .sendEnds 0 .refused, .send "EVENT" true true,
        .sendEnds 0 .threw, .doConnectEnds 0 .connected, .connectResumes 0 true,
        .flushSendEnds 0 .sent, .flushResumes 0 true] = some reached ∧
      reached.owed = [1] ∧ reached.Kept := by
  refine ⟨_, rfl, rfl, run_kept .base [.connect false, .send "REQ" true true, .sendEnds 0 .refused,
    .send "EVENT" true true, .sendEnds 0 .threw, .doConnectEnds 0 .connected,
    .connectResumes 0 true, .flushSendEnds 0 .sent, .flushResumes 0 true] _ ?_ rfl⟩
  refine Transition.Meets.cons _ trivial rfl ?_
  refine Transition.Meets.cons _ (.inl rfl) rfl ?_
  refine Transition.Meets.cons _ (.inl rfl) rfl ?_
  refine Transition.Meets.cons _ (.inl rfl) rfl ?_
  refine Transition.Meets.cons _ (.inl rfl) rfl ?_
  refine Transition.Meets.cons _ trivial rfl ?_
  refine Transition.Meets.cons _ (fun _ _ => ⟨rfl, rfl⟩) rfl ?_
  refine Transition.Meets.cons _ rfl rfl ?_
  refine Transition.Meets.cons _ ?_ rfl trivial
  exact fun _ _ _ => rfl

/-- A flush whose send fails aborts, and so does one that a failing send overlaps or that outlives
the manager. -/
theorem flush_loses :
    (∃ reached, Transition.run relayStep (fresh .base)
        [.connect false, .send "REQ" true true, .sendEnds 0 .refused, .doConnectEnds 0 .connected,
          .connectResumes 0 true, .flushSendEnds 0 .refused, .flushResumes 0 true] = some reached ∧
      ¬reached.Kept) ∧
    (∃ reached, Transition.run relayStep (fresh .base)
        [.connect false, .send "REQ" true true, .sendEnds 0 .refused, .send "EVENT" true true,
          .doConnectEnds 0 .connected, .connectResumes 0 true, .sendEnds 0 .refused,
          .flushSendEnds 0 .sent, .flushResumes 0 true] = some reached ∧
      ¬reached.Kept) ∧
    ∃ reached, Transition.run relayStep (fresh .base)
        [.connect false, .send "REQ" true true, .sendEnds 0 .refused, .doConnectEnds 0 .connected,
          .dispose, .connectResumes 0 true, .flushResumes 0 true] = some reached ∧
      reached.owed = [0] ∧ reached.pendingMessages = [] := by
  refine ⟨⟨_, rfl, ?_⟩, ⟨_, rfl, ?_⟩, ⟨_, rfl, rfl, rfl⟩⟩
  · exact fun kept => Nat.one_ne_zero kept.aborted
  · exact fun kept => Nat.one_ne_zero kept.aborted

end Divine.NostrSdk.Relay
