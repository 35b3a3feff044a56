/-
This file settles when a manager has one live channel.
-/

import Divine.NostrSdk.WebSocket
import Divine.Library.Transition

namespace Divine.NostrSdk.WebSocketConnectionManager

open List Option

variable {config : WebSocketConfig} {manager : WebSocketConnectionManager}

/-! ### The invariant -/

def Live (manager : WebSocketConnectionManager) (channel : Nat) : Prop :=
  channel ∈ manager.listened ∧ channel ∉ manager.closedChannels

/-- No disconnect or reconnect awaits the close of a channel. -/
def Quiet (manager : WebSocketConnectionManager) : Prop :=
  ∀ operation ∈ manager.operations, operation.closes = false

/-- What holds of every manager in an orderly run. -/
structure Single (manager : WebSocketConnectionManager) : Prop where
  listened : ∀ channel, channel ∈ manager.listened ↔ manager.channelSubscription = some channel
  subscribed : ∀ channel, manager.channelSubscription = some channel →
    manager.channel = some channel ∧ manager.state = .connected ∧ manager.Quiet ∧
      channel ∉ manager.closedChannels ∧ channel < manager.created
  closedChannels : ∀ channel ∈ manager.closedChannels, channel < manager.created
  held : ∀ channel, manager.channel = some channel → channel < manager.created
  connected : manager.state = .connected → manager.Quiet →
    ∃ channel, manager.channelSubscription = some channel
  connecting : manager.state ≠ .connecting
  closing : ∀ channel reopens, Operation.closing channel reopens ∈ manager.operations →
    manager.channel = none ∨ manager.channel = some channel

section

variable (single : manager.Single)

include single

theorem Single.live_iff (channel : Nat) :
    manager.Live channel ↔ manager.channelSubscription = some channel := by
  constructor
  · rintro ⟨listened, -⟩
    exact (single.listened channel).mp listened
  · intro subscribed
    exact ⟨(single.listened channel).mpr subscribed, (single.subscribed channel subscribed).2.2.2.1⟩

theorem Single.subscription_of_state (state : manager.state ≠ .connected) :
    manager.channelSubscription = none := by
  cases subscription : manager.channelSubscription with
  | none => rfl
  | some channel => exact absurd (single.subscribed channel subscription).2.1 state

theorem Single.subscription_of_closing (closing : ¬manager.Quiet) :
    manager.channelSubscription = none := by
  cases subscription : manager.channelSubscription with
  | none => rfl
  | some channel => exact absurd (single.subscribed channel subscription).2.2.1 closing

theorem Single.listened_of_none (unsubscribed : manager.channelSubscription = none)
    (channel : Nat) :
    channel ∉ manager.listened := by
  rw [single.listened, unsubscribed]
  exact nofun

theorem Single.cancelled (channel : Nat) :
    channel ∉ manager.cancelSubscription.listened := by
  unfold cancelSubscription
  cases subscription : manager.channelSubscription with
  | none => exact single.listened_of_none subscription channel
  | some held =>
    intro member
    obtain ⟨before, different⟩ := mem_filter.mp member
    have same := (single.listened channel).mp before
    rw [subscription] at same
    exact of_decide_eq_true different (Option.some.inj same).symm

end

/-! ### Opening and closing -/

/-- A manager that is neither subscribed nor connected is single once its channels are right. -/
theorem Single.of_disconnected {next : WebSocketConnectionManager}
    (listened : ∀ channel, channel ∉ next.listened) (subscription : next.channelSubscription = none)
    (closedChannels : ∀ channel ∈ next.closedChannels, channel < next.created)
    (held : ∀ channel, next.channel = some channel → channel < next.created)
    (state : next.state = .disconnected)
    (closing : ∀ channel reopens, Operation.closing channel reopens ∈ next.operations →
      next.channel = none ∨ next.channel = some channel) : next.Single := by
  refine ⟨fun channel => ?_, fun channel subscribed => ?_, closedChannels, held,
    fun connected => ?_, ?_, closing⟩
  · rw [subscription]
    exact ⟨fun member => (listened channel member).elim, nofun⟩
  · rw [subscription] at subscribed
    cases subscribed
  · rw [state] at connected
    cases connected
  · rw [state]
    exact nofun

theorem Single.of_closing {next : WebSocketConnectionManager}
    (listened : ∀ channel, channel ∉ next.listened) (subscription : next.channelSubscription = none)
    (closedChannels : ∀ channel ∈ next.closedChannels, channel < next.created)
    (held : ∀ channel, next.channel = some channel → channel < next.created)
    (state : next.state ≠ .connecting) (busy : ¬next.Quiet)
    (closing : ∀ channel reopens, Operation.closing channel reopens ∈ next.operations →
      next.channel = none ∨ next.channel = some channel) : next.Single := by
  refine ⟨fun channel => ?_, fun channel subscribed => ?_, closedChannels, held,
    fun _ quiet => (busy quiet).elim, state, closing⟩
  · rw [subscription]
    exact ⟨fun member => (listened channel member).elim, nofun⟩
  · rw [subscription] at subscribed
    cases subscribed

theorem Quiet.not_closing (quiet : manager.Quiet) {channel : Nat} {reopens : Bool} :
    Operation.closing channel reopens ∉ manager.operations := fun member =>
  Bool.noConfusion (quiet _ member)

theorem doConnect_single (listened : ∀ channel, channel ∉ manager.listened)
    (subscription : manager.channelSubscription = none)
    (closedChannels : ∀ channel ∈ manager.closedChannels, channel < manager.created)
    (held : ∀ channel, manager.channel = some channel → channel < manager.created)
    (quiet : manager.Quiet) (creates : Bool) : (manager.doConnect config creates).1.Single := by
  cases creates with
  | true =>
    refine ⟨fun channel => ?_, fun channel subscribed => ?_, fun channel member => ?_,
      fun channel same => ?_, fun _ _ => ⟨manager.created, rfl⟩, nofun,
      fun channel reopens member => (quiet.not_closing member).elim⟩
    · constructor
      · intro member
        rcases mem_cons.mp member with rfl | before
        · rfl
        · exact (listened channel before).elim
      · intro subscribed
        rw [← Option.some.inj subscribed]
        exact mem_cons_self
    · rw [← Option.some.inj subscribed]
      exact ⟨rfl, rfl, quiet, fun member => Nat.lt_irrefl _ (closedChannels _ member),
        Nat.lt_succ_self _⟩
    · exact Nat.lt_succ_of_lt (closedChannels channel member)
    · rw [← Option.some.inj same]
      exact Nat.lt_succ_self _
  | false =>
    exact .of_disconnected listened subscription closedChannels held rfl
      fun channel reopens member => (quiet.not_closing member).elim

theorem handleDisconnect_single (single : manager.Single) : manager.handleDisconnect.Single :=
  .of_disconnected single.cancelled rfl single.closedChannels nofun rfl fun _ _ _ => .inl rfl

theorem quiet_iff : manager.Quiet ↔
    ∀ operation : Operation, operation.closes = true → operation ∉ manager.operations := by
  constructor
  · intro quiet operation closes member
    rw [quiet operation member] at closes
    cases closes
  · intro none operation member
    by_contra closes
    exact none operation (Bool.not_eq_false _ ▸ closes) member

section

variable (single : manager.Single)

include single

theorem Single.congr {next : WebSocketConnectionManager} (created : next.created = manager.created)
    (listened : next.listened = manager.listened)
    (closedChannels : next.closedChannels = manager.closedChannels)
    (channel : next.channel = manager.channel)
    (subscription : next.channelSubscription = manager.channelSubscription)
    (state : next.state = manager.state)
    (awaited : ∀ operation : Operation, operation.closes = true →
      (operation ∈ next.operations ↔ operation ∈ manager.operations)) : next.Single := by
  have quiet : next.Quiet ↔ manager.Quiet := by
    rw [quiet_iff, quiet_iff]
    exact forall₂_congr fun operation closes => not_congr (awaited operation closes)
  obtain ⟨listens, subscribed, closes, held, connected, connecting, closing⟩ := single
  constructor
  · rw [listened, subscription]
    exact listens
  · rw [subscription, channel, state, quiet, closedChannels, created]
    exact subscribed
  · rw [closedChannels, created]
    exact closes
  · rw [channel, created]
    exact held
  · rw [state, quiet, subscription]
    exact connected
  · rw [state]
    exact connecting
  · intro other reopens member
    rw [channel]
    exact closing other reopens ((awaited _ rfl).mp member)

theorem suspend_single {operation : Operation}
    (closes : operation.closes = false) : (manager.suspend operation).Single := by
  refine single.congr rfl rfl rfl rfl rfl rfl fun other awaited => ?_
  constructor
  · intro member
    rcases mem_append.mp member with before | added
    · exact before
    · rw [mem_singleton.mp added, closes] at awaited
      cases awaited
  · exact mem_append_left _

theorem erase_single {place : Nat} {operation : Operation}
    (found : manager.operations[place]? = some operation) (closes : operation.closes = false) :
    { manager with operations := manager.operations.eraseIdx place }.Single := by
  refine single.congr rfl rfl rfl rfl rfl rfl fun other awaited => ?_
  constructor
  · exact mem_of_mem_eraseIdx
  · intro member
    obtain ⟨index, here⟩ := mem_iff_getElem?.mp member
    refine mem_eraseIdx_iff_getElem?.mpr ⟨index, ?_, here⟩
    rintro rfl
    rw [Option.some.inj (found.symm.trans here), awaited] at closes
    cases closes

theorem closeChannel_single (reopens : Bool) :
    (manager.closeChannel reopens).Single := by
  unfold closeChannel
  cases holds : manager.channel with
  | none =>
    refine .of_closing single.cancelled rfl single.closedChannels single.held single.connecting
      ?_ ?_
    · intro quiet
      exact Bool.noConfusion (quiet (.closed reopens) (mem_append_right _ mem_cons_self))
    · exact fun _ _ _ => .inl holds
  | some held =>
    refine .of_closing single.cancelled rfl ?_ single.held single.connecting ?_ ?_
    · intro channel member
      rcases mem_cons.mp member with rfl | before
      · exact single.held channel holds
      · exact single.closedChannels channel before
    · intro quiet
      exact Bool.noConfusion
        (quiet (.closing held reopens) (mem_append_right _ mem_cons_self))
    · intro channel other member
      rcases mem_append.mp member with before | added
      · exact single.closing channel other before
      · injection mem_singleton.mp added with same
        rw [same]
        exact .inr holds

/-! ### Operations that open no channel -/

theorem doSend_single (message : String) (sinkTakes : Bool) :
    (manager.doSend message sinkTakes).Single := by
  unfold doSend
  split
  · exact single
  · split
    · exact single.congr rfl rfl rfl rfl rfl rfl fun _ _ => Iff.rfl
    · exact handleDisconnect_single single

theorem sendConnected_single (message : String) (sinkTakes : Bool) :
    (manager.sendConnected message sinkTakes).Single := by
  unfold sendConnected
  split
  · exact suspend_single single rfl
  · exact doSend_single single message sinkTakes

theorem tryReconnect_single (message : String) :
    (manager.tryReconnect config message).Single := by
  unfold tryReconnect
  split
  · split
    · exact suspend_single single rfl
    · have counted : { manager with reconnectAttempts := manager.reconnectAttempts + 1 }.Single :=
        single.congr rfl rfl rfl rfl rfl rfl fun _ _ => Iff.rfl
      exact suspend_single counted rfl
  · exact suspend_single single rfl

theorem send_single (message : String) (sinkTakes : Bool) :
    (manager.send config message sinkTakes).Single := by
  unfold send
  split
  · exact tryReconnect_single single message
  · exact sendConnected_single single message sinkTakes

theorem onHeartbeat_single : (manager.onHeartbeat config).Single := by
  unfold onHeartbeat
  split
  · exact handleDisconnect_single single
  · exact single

theorem onStreamDone_single {channel : Nat}
    (listened : channel ∈ manager.listened) : (manager.onStreamDone channel).Single := by
  have subscribed := (single.listened channel).mp listened
  refine .of_disconnected (fun other member => ?_) rfl (fun other member => ?_) nofun rfl
    fun _ _ _ => .inl rfl
  · have kept : other ∈ manager.cancelSubscription.listened := by
      simp only [onStreamDone, handleDisconnect, cancelSubscription, subscribed,
        mem_filter] at member ⊢
      exact ⟨member.1.1, member.2⟩
    exact single.cancelled other kept
  · rcases mem_cons.mp member with rfl | before
    · exact (single.subscribed _ subscribed).2.2.2.2
    · exact single.closedChannels other before

end

/-! ### Orderly steps -/

/-- A channel is opened only while nothing else awaits the close of one or opens one. -/
def Orderly (manager : WebSocketConnectionManager) : ManagerAction → Prop
  | .connect _ => manager.state = .disconnected → manager.Quiet
  | .resume place _ =>
      match manager.operations[place]? with
      | some (.backoff _ _) =>
          manager.shouldReconnect = true → manager.state = .disconnected ∧ manager.Quiet
      | some (.closed true) =>
          ∀ operation ∈ manager.operations.eraseIdx place, operation.closes = false
      | _ => True
  | _ => True

theorem connect_single (single : manager.Single) {creates : Bool}
    (orderly : manager.Orderly (.connect creates)) : (manager.connect config creates).Single := by
  unfold connect
  split
  · rename_i disconnected
    have subscription := single.subscription_of_state (by rw [disconnected]; exact nofun)
    have willing : { manager with shouldReconnect := true }.Single :=
      single.congr rfl rfl rfl rfl rfl rfl fun _ _ => Iff.rfl
    exact doConnect_single (willing.listened_of_none subscription) subscription
      willing.closedChannels willing.held (orderly disconnected) creates
  · exact single

theorem resume_single (single : manager.Single) {place : Nat} {answers : Answers}
    {operation : Operation} (found : manager.operations[place]? = some operation)
    (orderly : manager.Orderly (.resume place answers)) :
    ({ manager with operations := manager.operations.eraseIdx place }.resume config answers
      operation).Single := by
  have busy : operation.closes = true → manager.channelSubscription = none := by
    intro closes
    refine single.subscription_of_closing fun quiet => ?_
    rw [quiet operation (mem_of_getElem? found)] at closes
    cases closes
  have kept (channel : Nat) (reopens : Bool)
      (member : Operation.closing channel reopens ∈ manager.operations.eraseIdx place) :
      manager.channel = none ∨ manager.channel = some channel :=
    single.closing channel reopens (mem_of_mem_eraseIdx member)
  dsimp only [Orderly] at orderly
  rw [found] at orderly
  cases operation with
  | backoff message endsAt =>
    have rest := erase_single single found rfl
    dsimp only [resume]
    split
    · rename_i reconnects
      obtain ⟨disconnected, quiet⟩ := orderly reconnects
      have subscription := single.subscription_of_state (by rw [disconnected]; exact nofun)
      exact suspend_single (doConnect_single (rest.listened_of_none subscription) subscription
        rest.closedChannels rest.held
        (fun other member => quiet other (mem_of_mem_eraseIdx member)) answers.creates) rfl
    · exact suspend_single rest rfl
  | attempted message connected =>
    have rest := erase_single single found rfl
    cases connected with
    | true => exact suspend_single rest rfl
    | false => exact tryReconnect_single rest message
  | reconnected message connected =>
    have rest := erase_single single found rfl
    cases connected with
    | true => exact sendConnected_single rest message answers.sinkTakes
    | false => exact rest
  | waiting message => exact suspend_single (erase_single single found rfl) rfl
  | waited message connected =>
    have rest := erase_single single found rfl
    cases connected with
    | true => exact doSend_single rest message answers.sinkTakes
    | false => exact rest
  | closing channel reopens =>
    refine .of_closing (single.listened_of_none (busy rfl)) (busy rfl) single.closedChannels nofun
      single.connecting ?_ fun _ _ _ => .inl rfl
    intro quiet
    exact Bool.noConfusion (quiet (.closed reopens) (mem_append_right _ mem_cons_self))
  | closed reopens =>
    have closed : { manager with
        operations := manager.operations.eraseIdx place, state := .disconnected }.Single :=
      .of_disconnected (single.listened_of_none (busy rfl)) (busy rfl) single.closedChannels
        single.held rfl kept
    cases reopens with
    | true =>
      exact doConnect_single (closed.listened_of_none (busy rfl)) (busy rfl) closed.closedChannels
        closed.held orderly answers.creates
    | false => exact closed

theorem managerStep_single {action : ManagerAction} {next : WebSocketConnectionManager}
    (single : manager.Single) (orderly : manager.Orderly action)
    (stepped : managerStep config manager action = some next) : next.Single := by
  cases action with
  | connect creates =>
    rw [← Option.some.inj stepped]
    exact connect_single single orderly
  | send message sinkTakes =>
    rw [← Option.some.inj stepped]
    exact send_single single message sinkTakes
  | disconnect =>
    rw [← Option.some.inj stepped]
    have changed : { manager with shouldReconnect := false, heartbeatTimer := false }.Single :=
      single.congr rfl rfl rfl rfl rfl rfl fun _ _ => Iff.rfl
    exact closeChannel_single changed false
  | reconnect =>
    rw [← Option.some.inj stepped]
    have changed : { manager with reconnectAttempts := 0, shouldReconnect := true }.Single :=
      single.congr rfl rfl rfl rfl rfl rfl fun _ _ => Iff.rfl
    exact closeChannel_single changed true
  | resume place answers =>
    dsimp only [managerStep] at stepped
    cases found : manager.operations[place]? with
    | none =>
      rw [found] at stepped
      cases stepped
    | some operation =>
      rw [found] at stepped
      obtain ⟨-, resumed⟩ := ite_none_right_eq_some.mp stepped
      rw [← Option.some.inj resumed]
      exact resume_single single found orderly
  | heartbeat =>
    obtain ⟨-, ticked⟩ := ite_none_right_eq_some.mp stepped
    rw [← Option.some.inj ticked]
    exact onHeartbeat_single single
  | message channel text =>
    obtain ⟨-, heard⟩ := ite_none_right_eq_some.mp stepped
    rw [← Option.some.inj heard]
    exact single.congr rfl rfl rfl rfl rfl rfl fun _ _ => Iff.rfl
  | streamError channel =>
    obtain ⟨-, failed⟩ := ite_none_right_eq_some.mp stepped
    rw [← Option.some.inj failed]
    exact handleDisconnect_single single
  | streamDone channel =>
    obtain ⟨listened, ended⟩ := ite_none_right_eq_some.mp stepped
    rw [← Option.some.inj ended]
    exact onStreamDone_single single listened
  | advance duration =>
    rw [← Option.some.inj stepped]
    exact single.congr rfl rfl rfl rfl rfl rfl fun _ _ => Iff.rfl

/-! ### Runs -/

def ManagerAction.source : ManagerAction → Option Nat
  | .message channel _ | .streamError channel | .streamDone channel => some channel
  | _ => none

/-- The one live channel is held, all remote events are of it, and a close drops no other. -/
structure OneSocket (config : WebSocketConfig) (manager : WebSocketConnectionManager) : Prop where
  held : ∀ channel, manager.Live channel → manager.channel = some channel
  connected : (∃ channel, manager.Live channel) ↔ manager.state = .connected ∧ manager.Quiet
  remote : ∀ action channel next, action.source = some channel →
    managerStep config manager action = some next → manager.Live channel
  closing : ∀ channel reopens, Operation.closing channel reopens ∈ manager.operations →
    manager.channel = none ∨ manager.channel = some channel

theorem Single.oneSocket (single : manager.Single) : manager.OneSocket config := by
  refine ⟨fun channel live => ?_, ⟨?_, ?_⟩, fun action channel next source stepped => ?_,
    single.closing⟩
  · exact (single.subscribed channel ((single.live_iff channel).mp live)).1
  · rintro ⟨channel, live⟩
    obtain ⟨-, connected, quiet, -⟩ := single.subscribed channel ((single.live_iff channel).mp live)
    exact ⟨connected, quiet⟩
  · rintro ⟨connected, quiet⟩
    obtain ⟨channel, subscribed⟩ := single.connected connected quiet
    exact ⟨channel, (single.live_iff channel).mpr subscribed⟩
  · have listened : channel ∈ manager.listened := by
      cases action with
      | message _ _ | streamError _ | streamDone _ =>
        obtain ⟨member, -⟩ := ite_none_right_eq_some.mp stepped
        rw [← Option.some.inj source]
        exact member
      | _ => cases source
    exact (single.live_iff channel).mpr ((single.listened channel).mp listened)

theorem single_fresh : fresh.Single :=
  .of_disconnected nofun rfl nofun nofun rfl nofun

/-- Every orderly run keeps to one socket. -/
theorem run_oneSocket (config : WebSocketConfig) (actions : List ManagerAction)
    (reached : WebSocketConnectionManager)
    (orderly : Transition.Meets (managerStep config) Orderly fresh actions)
    (ran : Transition.run (managerStep config) fresh actions = some reached) :
    reached.OneSocket config :=
  (Transition.invariant_of_meets (managerStep config)
    (fun _ _ _ single meets stepped => managerStep_single single meets stepped)
    single_fresh orderly ran).oneSocket

/-- A reconnection that waits for the close of the channel it replaces. -/
theorem run_oneSocket_sample : ∃ reached,
    Transition.run (managerStep .defaultConfig) fresh
      [.connect true, .message 0 "notice", .reconnect, .resume 0 ⟨true, true, true⟩,
        .resume 0 ⟨true, true, true⟩] = some reached ∧
      reached.Live 1 ∧ reached.OneSocket .defaultConfig := by
  refine ⟨_, rfl, ⟨mem_cons_self, nofun⟩,
    run_oneSocket .defaultConfig [.connect true, .message 0 "notice", .reconnect,
      .resume 0 ⟨true, true, true⟩, .resume 0 ⟨true, true, true⟩] _ ?_ rfl⟩
  refine Transition.Meets.cons _ (fun _ => nofun) rfl ?_
  refine Transition.Meets.cons _ trivial rfl ?_
  refine Transition.Meets.cons _ trivial rfl ?_
  refine Transition.Meets.cons _ trivial rfl ?_
  exact Transition.Meets.cons _ nofun rfl trivial

/-- Two sends each open a channel, a manager that disconnects is connected without one, and the
second reconnection drops that of the first. -/
theorem sockets_overlap :
    (∃ reached, Transition.run (managerStep .defaultConfig) fresh
        [.send "first" true, .send "second" true, .advance 4000, .resume 0 ⟨true, true, true⟩,
          .resume 0 ⟨true, true, true⟩] = some reached ∧
      reached.Live 0 ∧ reached.Live 1 ∧ reached.channel = some 1) ∧
    (∃ reached, Transition.run (managerStep .defaultConfig) fresh
        [.connect true, .disconnect] = some reached ∧
      reached.state = .connected ∧ ¬∃ channel, reached.Live channel) ∧
    ∃ reached, Transition.run (managerStep .defaultConfig) fresh
        [.connect true, .reconnect, .reconnect, .resume 0 ⟨true, true, true⟩,
          .resume 1 ⟨true, true, true⟩, .resume 0 ⟨true, true, true⟩] = some reached ∧
      reached.Live 1 ∧ reached.channel = none := by
  refine ⟨⟨_, rfl, ?_, ?_, rfl⟩, ⟨_, rfl, rfl, ?_⟩, ⟨_, rfl, ?_, rfl⟩⟩
  · exact ⟨mem_cons_of_mem _ mem_cons_self, nofun⟩
  · exact ⟨mem_cons_self, nofun⟩
  · rintro ⟨channel, listened, -⟩
    cases listened
  · exact ⟨mem_cons_self, by decide⟩

end Divine.NostrSdk.WebSocketConnectionManager
