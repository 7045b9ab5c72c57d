import ForMqttClient.SystemSteps

/-!
# Connections and reconnections

How many `TaskNetwork`s are in use at a time, and whose `NetworkEvent`s the hub
acts on. The events carry no identity, and one of the ways out of `Connected`
tells the old `TaskNetwork` nothing, so both questions have conditions.
-/

namespace Connections

open MqttData TaskHub HubSteps Tasks System SystemSteps GuardedRuns

/-! ## At most one connection -/

def closingState (state : NetworkState) : Bool := state = .ToDisconnect || state = .Disconnected

/-- The `TaskNetwork` has ended or has taken its `Disconnect`. -/
def closing (w : World) (n : Nat) : Bool :=
  w.networks[n]?.any (fun network => closingState network.state)

/-- A `Disconnect` waits in the queue of the `TaskNetwork`. -/
def DisconnectQueued (w : World) (n : Nat) : Prop :=
  ∃ e ∈ w.bus, e.receiver = .network n ∧ e.event = .disconnect

def Settled (w : World) (n : Nat) : Prop := closing w n = true ∨ DisconnectQueued w n

instance (w : World) (n : Nat) : Decidable (DisconnectQueued w n) :=
  inferInstanceAs (Decidable (∃ e ∈ w.bus, _ ∧ _))

instance (w : World) (n : Nat) : Decidable (Settled w n) := inferInstanceAs (Decidable (_ ∨ _))

/-- The event makes `run` or `run_to_connect` start over without a `Disconnect`. -/
def startsOver (hub : Hub) : NetworkEvent → Bool
  | .Connected _ => false
  | .ConnectedErr _ => hub.position = .connecting
  | .ConnectFail _ => hub.position = .connecting && hub.options.autoReconnect
  | .BrokerDisconnect _ => hub.options.autoReconnect

/-- The `TaskNetwork` started last is settled. -/
def latestSettled (w : World) : Bool :=
  w.networks.length = 0 || decide (Settled w (w.networks.length - 1))

/-- Whenever the hub starts over without a `Disconnect`, the `TaskNetwork` that
it started last is settled. -/
def startsOverSettled (w : World) : Action → Bool
  | .hub (.network j) | .hub (.connecting j) =>
    match w.receive .hubNetwork j with
    | some (⟨_, _, .networkEvent event, _⟩, _) => !startsOver w.hub event || latestSettled w
    | _ => true
  | _ => true

section Settling

variable {w w' : World} {action : Action} {n : Nat}

theorem closing_iff : closing w n = true ↔
    ∃ network, w.networks[n]? = some network ∧ closingState network.state = true := by
  rw [closing, Option.any_eq_true]

theorem closing_of_prefix (h : w.networks <+: w'.networks) (hclosing : closing w n = true) :
    closing w' n = true := by
  obtain ⟨network, hget, hstate⟩ := closing_iff.mp hclosing
  obtain ⟨hlt, _⟩ := List.getElem?_eq_some_iff.mp hget
  obtain ⟨more, happend⟩ := h
  refine closing_iff.mpr ⟨network, ?_, hstate⟩
  rw [← happend, List.getElem?_append_left hlt, hget]

theorem closing_of_set {m : Nat} {network network' : Network}
    (hget : w.networks[m]? = some network)
    (hset : w'.networks = w.networks.set m network')
    (hkeep : closingState network.state = true → closingState network'.state = true)
    (hclosing : closing w n = true) :
    closing w' n = true := by
  obtain ⟨found, hfound, hstate⟩ := closing_iff.mp hclosing
  obtain ⟨hlt, _⟩ := List.getElem?_eq_some_iff.mp hfound
  by_cases hmn : m = n
  · subst hmn
    rw [hget] at hfound
    obtain rfl := Option.some.inj hfound
    refine closing_iff.mpr ⟨network', ?_, hkeep hstate⟩
    rw [hset, List.getElem?_set_self hlt]
  · refine closing_iff.mpr ⟨found, ?_, hstate⟩
    rw [hset, List.getElem?_set_ne hmn, hfound]

theorem closing_of_networkMoved {m : Nat} {network : Network} {action : NetworkAction}
    (hget : w.networks[m]? = some network) (h : NetworkMoved w m network action w')
    (hclosing : closing w n = true) : closing w' n = true := by
  cases h with
  | connected hstate => exact closing_of_set hget rfl (by rw [hstate]; nofun) hclosing
  | connectFail hstate => exact closing_of_set hget rfl (fun _ => rfl) hclosing
  | @read packet message rest hstate hfrom =>
    cases packet <;>
      exact closing_of_set hget rfl id hclosing
  | readErr hstate => exact closing_of_set hget rfl (fun _ => rfl) hclosing
  | takeDisconnect hstate htake => exact closing_of_set hget rfl (fun _ => rfl) hclosing
  | write hstate htake => exact closing_of_set hget rfl id hclosing
  | writeErr hstate htake => exact closing_of_set hget rfl (fun _ => rfl) hclosing
  | writeDisconnect hstate => exact closing_of_set hget rfl (fun _ => rfl) hclosing
  | writeDisconnectErr hstate => exact closing_of_set hget rfl (fun _ => rfl) hclosing

theorem closing_of_moved (h : Moved w action w') (hclosing : closing w n = true) :
    closing w' n = true := by
  cases h with
  | hub h =>
    cases h with
    | @intro input message taken hub outputs htakes hmove =>
      have same : taken.networks = w.networks := by cases htakes <;> rfl
      have grown := (applyOutputs_grown { taken with hub := hub } message outputs).networks
      exact closing_of_prefix (same ▸ grown) hclosing
  | task hget h => cases h <;> exact hclosing
  | ping hget h => cases h <;> exact hclosing
  | network hget h => exact closing_of_networkMoved hget h hclosing
  | brokerRecv hget hto => exact closing_of_set hget rfl id hclosing
  | brokerSend hget => exact closing_of_set hget rfl id hclosing
  | _ => exact hclosing

/-- A `TaskNetwork` that is settled stays so: the `Disconnect` leaves its queue
only by being taken. -/
theorem settled_of_moved (h : Moved w action w') (hsettled : Settled w n) : Settled w' n := by
  rcases hsettled with hclosing | ⟨e, he, hreceiver, hevent⟩
  · exact .inl (closing_of_moved h hclosing)
  · rcases mem_bus_or_taken h he with hmem | ⟨j, rest, htaking, htake⟩
    · exact .inr ⟨e, hmem, hreceiver, hevent⟩
    · obtain ⟨sender, receiver, event, message⟩ := e
      cases hreceiver
      cases hevent
      cases htaking
      cases h with
      | network hget h =>
        have hlt := (List.getElem?_eq_some_iff.mp hget).1
        cases h with
        | takeDisconnect hstate htake' =>
          exact .inl (closing_iff.mpr ⟨_, List.getElem?_set_self hlt, rfl⟩)
        | write hstate htake' => rw [htake] at htake'; cases htake'
        | writeErr hstate htake' => rw [htake] at htake'; cases htake'

/-- Dispatching `Disconnect` settles every `TaskNetwork`. -/
theorem settled_of_disconnect (hn : n < w.networks.length) :
    Settled (w.dispatch .hub .disconnect 0) n := by
  by_cases hlive : w.networkLive n = true
  · refine .inr ⟨⟨.hub, .network n, .disconnect, 0⟩, ?_, rfl, rfl⟩
    apply List.mem_append_right
    exact List.mem_map.mpr ⟨.network n, mem_subscribers_disconnect.mpr ⟨n, ⟨hn, hlive⟩, rfl⟩, rfl⟩
  · refine .inl (closing_iff.mpr ⟨w.networks[n], List.getElem?_eq_getElem hn, ?_⟩)
    have hget : w.networks[n]? = some w.networks[n] := List.getElem?_eq_getElem hn
    have ended : w.networks[n].state = .Disconnected := by
      simpa [World.networkLive, hget, Network.live] using hlive
    rw [ended]
    rfl

end Settling

/-- All `TaskNetwork`s but the last are settled, and when the hub is about to
start another one, the last is too. -/
structure Tidy (w : World) : Prop where
  older : ∀ n, n + 1 < w.networks.length → Settled w n
  idle : w.hub.state = .ToConnect → w.hub.position = .loop →
    ∀ n < w.networks.length, Settled w n

section Runs

variable {w w' : World} {action : Action}

theorem Tidy.all (hI : Tidy w) (hlatest : latestSettled w = true) :
    ∀ n < w.networks.length, Settled w n := by
  intro n hn
  by_cases hlast : n + 1 = w.networks.length
  · simp only [latestSettled, Bool.or_eq_true, decide_eq_true_eq] at hlatest
    rcases hlatest with hzero | hsettled
    · omega
    · rwa [show n = w.networks.length - 1 by omega]
  · exact hI.older n (by omega)

/-- A step that starts nothing keeps the law, if it brings the hub to the start
of an attempt only with every `TaskNetwork` settled. -/
theorem Tidy.carry (hI : Tidy w) (h : Moved w action w')
    (hlength : w'.networks.length = w.networks.length)
    (hidle : w'.hub.state = .ToConnect → w'.hub.position = .loop →
      (w.hub.state = .ToConnect ∧ w.hub.position = .loop) ∨
        ∀ n < w.networks.length, Settled w n) : Tidy w' := by
  constructor
  · intro n hn
    rw [hlength] at hn
    exact settled_of_moved h (hI.older n hn)
  · intro hstate hpos n hn
    rw [hlength] at hn
    rcases hidle hstate hpos with ⟨hstate', hpos'⟩ | hall
    · exact settled_of_moved h (hI.idle hstate' hpos' n hn)
    · exact settled_of_moved h (hall n hn)

/-- What the guard says when the hub takes a `NetworkEvent`. -/
theorem startsOver_latest {a : HubAction} {j : Nat} {sender : Worker} {event : NetworkEvent}
    {message : Nat} {rest : List Envelope} (ha : a = .network j ∨ a = .connecting j)
    (htake : PairFifo.take Envelope.channel w.bus j =
      some (⟨sender, .hubNetwork, .networkEvent event, message⟩, rest)) :
    startsOverSettled w (.hub a) = true ↔ (startsOver w.hub event = true → latestSettled w = true) := by
  rcases ha with rfl | rfl <;>
    simp [startsOverSettled, receive_of_take htake, Bool.or_eq_true, imp_iff_not_or]

/-- The hub comes to the start of an attempt from its place there, by a `Disconnect`, or
by a `NetworkEvent` that makes it start over. -/
theorem outset_of_move {keepAliveId : Nat} {hub hub' : Hub} {input : HubInput}
    {outputs : List Output} (h : Move keepAliveId hub input hub' outputs)
    (hstate : hub'.state = .ToConnect) (hpos : hub'.position = .loop) :
    (hub.state = .ToConnect ∧ hub.position = .loop) ∨ outputs = [.disconnect] ∨
      ∃ event, (input = .network event ∨ input = .connecting event) ∧
        startsOver hub event = true := by
  cases h with
  | load hdraw => exact .inl ⟨hstate, hpos⟩
  | disconnect hat hnext => exact .inr (.inl rfl)
  | brokerDisconnect hat =>
    refine .inr (.inr ⟨_, .inl rfl, ?_⟩)
    change hub.options.autoReconnect = true
    by_contra hauto
    simp [hauto] at hstate
  | turnErr hat => exact .inr (.inr ⟨_, .inr rfl, by simp [startsOver, hat.position]⟩)
  | turnFail hat hauto => exact .inr (.inr ⟨_, .inr rfl, by simp [startsOver, hat.position, hauto]⟩)
  | turnDisconnect hat hauto => exact .inr (.inr ⟨_, .inr rfl, hauto⟩)
  | startNetwork hat => cases hpos
  | _ =>
    -- the hub has left the attempt, or was and stays connected
    first
    | cases hstate
    | cases ‹At hub _ _›.state.symm.trans hstate

theorem tidy_of_start (hI : Tidy w) (h : Moved w action w')
    (hat : At w.hub .ToConnect .loop) (hnetworks : w'.networks = w.networks ++ [.init])
    (hpos : w'.hub.position = .connecting) : Tidy w' := by
  constructor
  · intro n hn
    rw [hnetworks, List.length_append, List.length_singleton] at hn
    exact settled_of_moved h (hI.idle hat.state hat.position n (by omega))
  · intro _ hloop
    cases hpos.symm.trans hloop

theorem tidy_of_disconnect {taken : World} {hub : Hub} {message : Nat} {a : HubAction}
    (hI : Tidy w)
    (h : Moved w (.hub a) (World.applyOutputs message { taken with hub := hub } [.disconnect]))
    (hnetworks : taken.networks = w.networks) :
    Tidy (World.applyOutputs message { taken with hub := hub } [.disconnect]) := by
  constructor
  · intro n hn
    exact settled_of_moved h (hI.older n (hnetworks ▸ hn))
  · intro _ _ n hn
    exact settled_of_disconnect hn

/-- The guard lets the hub start over only where every `TaskNetwork` is settled. -/
theorem settled_of_startsOver (hI : Tidy w) {a : HubAction}
    (hok : startsOverSettled w (.hub a) = true) {input : HubInput} {message : Nat} {taken : World}
    (htakes : Takes w a input message taken) {event : NetworkEvent}
    (hinput : input = .network event ∨ input = .connecting event)
    (hover : startsOver w.hub event = true) : ∀ n < w.networks.length, Settled w n := by
  rcases hinput with rfl | rfl
  · cases htakes with
    | network htake => exact hI.all ((startsOver_latest (.inl rfl) htake).mp hok hover)
  · cases htakes with
    | connecting htake => exact hI.all ((startsOver_latest (.inr rfl) htake).mp hok hover)

theorem tidy_of_hub {a : HubAction} (hok : startsOverSettled w (.hub a) = true)
    (h : HubMoved w a w') (hI : Tidy w) : Tidy w' := by
  have moved : Moved w (.hub a) w' := .hub h
  have networks := networks_of_hub h
  cases h with
  | @intro input message taken hub outputs htakes hmove =>
    have hhub := (applyOutputs_grown { taken with hub := hub } message outputs).hub
    have same : taken.networks = w.networks := by cases htakes <;> rfl
    rcases networks with hkept | ⟨hadded, hat, hconnecting⟩
    · by_cases hdisconnect : outputs = [.disconnect]
      · subst hdisconnect
        exact tidy_of_disconnect hI moved same
      · refine hI.carry moved (congrArg List.length hkept) ?_
        rw [hhub]
        intro hstate hpos
        rcases outset_of_move hmove hstate hpos with hidle | hout | ⟨event, hinput, hover⟩
        · exact .inl hidle
        · exact absurd hout hdisconnect
        · exact .inr (settled_of_startsOver hI hok htakes hinput hover)
    · exact tidy_of_start hI moved hat hadded hconnecting

theorem tidy_of_moved (hok : startsOverSettled w action = true) (h : Moved w action w')
    (hI : Tidy w) : Tidy w' := by
  rcases hub_or_not h with ⟨a, rfl, hmoved⟩ | notHub
  · exact tidy_of_hub hok hmoved hI
  · have hub := (hub_of_moved h notHub).1
    exact hI.carry h (networks_length_of_moved h notHub) (fun hstate hpos => .inl (hub ▸ ⟨hstate, hpos⟩))

theorem reachable_tidy {options : MqttOptions} {protocol : Protocol}
    (h : Reachable World.step (fun w a => startsOverSettled w a = true)
      (.init options protocol) w) : Tidy w := by
  refine h.invariant ⟨?_, ?_⟩ ?_
  · intro n hn
    cases hn
  · intro _ _ n hn
    cases hn
  · intro w action w' _ ih hok hstep
    exact tidy_of_moved hok (moved_of_step hstep) ih

/-- A `TaskNetwork` is started only where all earlier ones are settled. -/
theorem settled_before_start (h : Moved w action w')
    (hgrown : w.networks.length < w'.networks.length) (hI : Tidy w) :
    ∀ n < w.networks.length, Settled w n := by
  rcases hub_or_not h with ⟨a, rfl, hmoved⟩ | notHub
  · cases hmoved with
    | @intro input message taken hub outputs htakes hmove =>
      have networks : taken.networks.length = w.networks.length := by cases htakes <;> rfl
      cases hmove with
      | startNetwork hat => exact hI.idle hat.state hat.position
      | _ => exact absurd (networks ▸ hgrown) (Nat.lt_irrefl _)
  · rw [networks_length_of_moved h notHub] at hgrown
    exact absurd hgrown (Nat.lt_irrefl _)

theorem startsOverSettled_of_not_hub (hhub : ∀ a, action ≠ .hub a) :
    startsOverSettled w action = true := by
  cases action with
  | hub a => exact absurd rfl (hhub a)
  | _ => rfl

/-- At the start of an attempt the hub can start a `TaskNetwork` at once. -/
theorem connect_enabled (hat : At w.hub .ToConnect .loop) :
    ∃ w', w.step (.hub (.connect 0)) = some w' ∧ w.networks.length < w'.networks.length := by
  have hstep : w.hub.step w.keepAliveId (.connect []) =
      some ⟨{ w.hub with position := .connecting }, [.startNetwork], .ok ()⟩ := by
    simp [Hub.step, hat.draw, hat.state, hat.position, Hub.runToConnect,
      Hub.tryDealClientCommandWhenToConnect]
  refine ⟨World.applyOutputs 0 { w with hub := { w.hub with position := .connecting } }
    [.startNetwork], ?_, ?_⟩
  · simp [World.step, World.stepHub, World.runHub, hstep]
  · simp [World.applyOutputs, World.applyOutput]

/-- The outputs of a step that starts over put no `Disconnect` on the bus. -/
theorem settled_of_rest {n : Nat} {j : Nat} {envelope : Envelope} {rest new : List Envelope}
    (htake : PairFifo.take Envelope.channel w.bus j = some (envelope, rest))
    (hnetworks : w'.networks = w.networks) (hbus : w'.bus = rest ++ new)
    (hnew : ∀ e ∈ new, e.event ≠ .disconnect) (h : Settled w' n) : Settled w n := by
  rcases h with hclosing | ⟨e, he, hreceiver, hevent⟩
  · left
    rwa [closing, ← hnetworks]
  · right
    rw [hbus] at he
    rcases List.mem_append.mp he with he | he
    · exact ⟨e, PairFifo.mem_rest_of_take htake he, hreceiver, hevent⟩
    · exact absurd hevent (hnew e he)

theorem latest_unsettled (h : ¬ latestSettled w = true) :
    ∃ n < w.networks.length, ¬ Settled w n := by
  simp only [latestSettled, Bool.or_eq_true, decide_eq_true_eq, not_or] at h
  exact ⟨w.networks.length - 1, by omega, h.2⟩

/-- A step outside the guard brings the hub to where it starts another
`TaskNetwork` next to one that is not settled. -/
theorem start_unsettled {a : HubAction} (hok : ¬ startsOverSettled w (.hub a) = true)
    (h : HubMoved w a w') :
    At w'.hub .ToConnect .loop ∧ ∃ n < w'.networks.length, ¬ Settled w' n := by
  cases h with
  | @intro input message taken hub outputs htakes hmove =>
    have startedOver {j : Nat} {sender : Worker} {event : NetworkEvent} {message : Nat}
        {rest : List Envelope} (ha : a = .network j ∨ a = .connecting j)
        (htake : PairFifo.take Envelope.channel w.bus j =
          some (⟨sender, .hubNetwork, .networkEvent event, message⟩, rest)) :
        startsOver w.hub event = true ∧ ∃ n < w.networks.length, ¬ Settled w n := by
      have := mt (startsOver_latest ha htake).mpr hok
      exact ⟨(Classical.not_imp.mp this).1, latest_unsettled (Classical.not_imp.mp this).2⟩
    cases htakes with
    | network htake =>
      obtain ⟨hover, n, hn, hunsettled⟩ := startedOver (.inl rfl) htake
      cases hmove with
      | brokerDisconnect hat =>
        have hauto : w.hub.options.autoReconnect = true := hover
        refine ⟨⟨hat.draw, if_pos hauto, hat.position⟩, n, hn, ?_⟩
        exact mt (settled_of_rest htake rfl rfl (by simp)) hunsettled
      | connectedErr hat => simp [startsOver, hat.position] at hover
      | lateConnected hat => simp [startsOver] at hover
      | lateFail hat => simp [startsOver, hat.position] at hover
    | connecting htake =>
      obtain ⟨hover, n, hn, hunsettled⟩ := startedOver (.inr rfl) htake
      cases hmove with
      | connected hat => simp [startsOver] at hover
      | turnErr hat =>
        refine ⟨⟨hat.draw, hat.state, rfl⟩, n, hn, ?_⟩
        exact mt (settled_of_rest htake rfl (List.append_nil _).symm (by simp)) hunsettled
      | turnFail hat hauto =>
        refine ⟨⟨hat.draw, hat.state, rfl⟩, n, hn, ?_⟩
        exact mt (settled_of_rest htake rfl rfl (by simp)) hunsettled
      | turnDisconnect hat hauto =>
        refine ⟨⟨hat.draw, hat.state, rfl⟩, n, hn, ?_⟩
        exact mt (settled_of_rest htake rfl rfl (by simp)) hunsettled
      | giveUpFail hat hauto => simp [startsOver, hauto] at hover
      | giveUpDisconnect hat hauto => simp [startsOver, hauto] at hover
    | _ => exact absurd rfl hok

end Runs

/-- Taken now, the event changes the state of the hub or turns its loop. -/
def heeds (hub : Hub) : NetworkEvent → Bool
  | .Connected _ | .ConnectFail _ => hub.state = .ToConnect && hub.position = .connecting
  | .ConnectedErr _ | .BrokerDisconnect _ =>
    hub.state = .ToConnect && hub.position = .connecting || hub.state = .Connected

/-- What the action makes a `TaskNetwork` report of itself. -/
def report (network : Network) : NetworkAction → Option NetworkEvent
  | .connected sessionPresent => some (.Connected sessionPresent)
  | .connectFail reason => some (.ConnectFail reason)
  | .read =>
    match network.fromBroker with
    | (.Disconnect text, _) :: _ => some (.BrokerDisconnect text)
    | _ => none
  | .readErr msg => some (.ConnectedErr msg)
  | .take _ writeErr => writeErr.map .ConnectedErr
  | .writeDisconnect writeErr => writeErr.map .ConnectedErr

def isNetworkEvent (envelope : Envelope) : Bool :=
  match envelope.event with
  | .networkEvent _ => true
  | _ => false

/-- No attempt starts while a `NetworkEvent` waits, and a `TaskNetwork` that
is not the last reports nothing that the hub heeds at that moment. -/
def reportsInTime (w : World) : Action → Bool
  | .hub (.connect seen) => !(w.commands.take seen).isEmpty || !w.bus.any isNetworkEvent
  | .network n action =>
    match w.networks[n]? with
    | some network =>
      match report network action with
      | some event => n + 1 = w.networks.length || !heeds w.hub event
      | none => true
    | none => true
  | _ => true

/-- Every waiting `NetworkEvent` that the hub would heed is from the
`TaskNetwork` that it started last. -/
def Attributed (w : World) : Prop :=
  ∀ e ∈ w.bus, ∀ event, e.event = .networkEvent event → heeds w.hub event = true →
    ∃ n, e.sender = .network n ∧ n + 1 = w.networks.length

section Attribution

variable {w w' : World} {action : Action}

theorem report_of_reports {network : Network} {action : NetworkAction} {event : NetworkEvent}
    (h : Reports network action event) : report network action = some event := by
  cases h with
  | brokerDisconnect hstate hfrom => simp [report, hfrom]
  | _ => rfl

/-- The only event that an action can add is the report of a `TaskNetwork`. -/
theorem new_networkEvent (h : Moved w action w') {e : Envelope} (he : e ∈ w'.bus)
    {event : NetworkEvent} (hevent : e.event = .networkEvent event) :
    e ∈ w.bus ∨ ∃ n network a, action = .network n a ∧ w.networks[n]? = some network ∧
      report network a = some event ∧ e.sender = .network n := by
  rcases mem_bus_of_moved h he with hmem | hnew
  · exact .inl hmem
  · cases hnew with
    | networkEvent hget hreports =>
      cases hevent
      exact .inr ⟨_, _, _, rfl, hget, report_of_reports hreports, rfl⟩
    | _ => cases hevent

theorem heeds_connecting {hub : Hub} (hat : At hub .ToConnect .connecting)
    (event : NetworkEvent) : heeds hub event = true := by
  cases event <;> simp [heeds, hat.state, hat.position]

/-- Outside the start of an attempt a step of the hub makes it heed nothing
that it did not heed before. -/
theorem heeds_of_hub {a : HubAction} (h : HubMoved w a w') {event : NetworkEvent}
    (hheeds : heeds w'.hub event = true) :
    (heeds w.hub event = true ∧ w'.networks.length = w.networks.length) ∨
      ∃ seen, a = .connect seen ∧ w.commands.take seen = [] := by
  cases h with
  | @intro input message taken hub outputs htakes hmove =>
    have networks : taken.networks.length = w.networks.length := by cases htakes <;> rfl
    have grown := applyOutputs_grown { taken with hub := hub } message outputs
    rw [grown.hub] at hheeds
    cases hmove with
    | startNetwork hat =>
      cases htakes with
      | connect hseen hcommands => exact .inr ⟨_, rfl, hcommands⟩
    | connected hat => exact .inl ⟨heeds_connecting hat event, networks⟩
    | turnErr hat => exact .inl ⟨heeds_connecting hat event, networks⟩
    | turnFail hat _ => exact .inl ⟨heeds_connecting hat event, networks⟩
    | turnDisconnect hat _ => exact .inl ⟨heeds_connecting hat event, networks⟩
    | brokerDisconnect hat =>
      refine .inl ⟨?_, networks⟩
      cases event <;> revert hheeds <;> cases w.hub.options.autoReconnect <;>
        simp [heeds, hat.state, hat.position]
    | disconnect hat hnext =>
      refine .inl ⟨?_, networks⟩
      cases event <;> rcases hnext with rfl | rfl <;> simp [heeds, hat.position] at hheeds
    | resendEntry hat hentry =>
      refine .inl ⟨?_, networks⟩
      cases event <;> simp [heeds, hat.state] at hheeds ⊢
    | resendEnd hat hnone =>
      refine .inl ⟨?_, networks⟩
      cases event <;> simp [heeds, hat.state] at hheeds ⊢
    | _ =>
      refine .inl ⟨?_, networks⟩
      first
        | exact hheeds
        | cases event <;> simp [heeds] at hheeds

theorem attributed_of_moved (hok : reportsInTime w action = true) (h : Moved w action w')
    (hI : Attributed w) : Attributed w' := by
  intro e he event hevent hheeds
  rcases new_networkEvent h he hevent with hmem | ⟨n, network, a, rfl, hget, hreport, hsender⟩
  · rcases hub_or_not h with ⟨a, rfl, hmoved⟩ | notHub
    · rcases heeds_of_hub hmoved hheeds with ⟨hheeds', hlength⟩ | ⟨seen, rfl, hnone⟩
      · rw [hlength]
        exact hI e hmem event hevent hheeds'
      · -- an attempt starts, so nothing was waiting
        simp only [reportsInTime, hnone, List.isEmpty_nil, Bool.not_true, Bool.false_or,
          Bool.not_eq_true', List.any_eq_false] at hok
        exact absurd (by rw [isNetworkEvent, hevent]) (hok e hmem)
    · rw [(hub_of_moved h notHub).1] at hheeds
      rw [networks_length_of_moved h notHub]
      exact hI e hmem event hevent hheeds
  · rw [(hub_of_moved h nofun).1] at hheeds
    rw [networks_length_of_moved h nofun]
    simp only [reportsInTime, hget, hreport, hheeds, Bool.not_true, Bool.or_false,
      decide_eq_true_eq] at hok
    exact ⟨n, hsender, hok⟩

theorem reachable_attributed {options : MqttOptions} {protocol : Protocol}
    (h : Reachable World.step (fun w a => reportsInTime w a = true)
      (.init options protocol) w) : Attributed w := by
  refine h.invariant ?_ ?_
  · intro e he
    cases he
  · intro w action w' _ ih hok hstep
    exact attributed_of_moved hok (moved_of_step hstep) ih

/-- A `NetworkEvent` that changes the hub's state or turns its loop is one that
the hub heeds. -/
theorem heeds_of_change {a : HubAction} {j : Nat} {sender : Worker} {event : NetworkEvent}
    {message : Nat} {rest : List Envelope} (h : HubMoved w a w')
    (ha : a = .network j ∨ a = .connecting j)
    (htake : PairFifo.take Envelope.channel w.bus j =
      some (⟨sender, .hubNetwork, .networkEvent event, message⟩, rest))
    (hchange : w'.hub.state ≠ w.hub.state ∨ w'.hub.position ≠ w.hub.position) :
    heeds w.hub event = true := by
  cases h with
  | @intro input message taken hub outputs htakes hmove =>
    have grown := applyOutputs_grown { taken with hub := hub } message outputs
    rw [grown.hub] at hchange
    rcases ha with rfl | rfl
    · cases htakes with
      | network htake' =>
        rw [htake] at htake'
        cases htake'
        cases hmove with
        | connectedErr hat => simp [heeds, hat.state]
        | brokerDisconnect hat => simp [heeds, hat.state]
        | lateConnected hat => exact absurd hchange (by simp)
        | lateFail hat => exact absurd hchange (by simp)
    · cases htakes with
      | connecting htake' =>
        rw [htake] at htake'
        cases htake'
        cases hmove with
        | connected hat => exact heeds_connecting hat _
        | turnErr hat => exact heeds_connecting hat _
        | turnFail hat _ => exact heeds_connecting hat _
        | turnDisconnect hat _ => exact heeds_connecting hat _
        | giveUpFail hat _ => exact heeds_connecting hat _
        | giveUpDisconnect hat _ => exact heeds_connecting hat _

end Attribution

/-- In every run without late reports, a `NetworkEvent` that changes the hub's
state or turns the loop of `run_to_connect` was emitted by the `TaskNetwork`
that the hub started last. -/
theorem events_from_last_network {options : MqttOptions} {protocol : Protocol} {w : World}
    (h : Reachable World.step (fun w a => reportsInTime w a = true)
      (.init options protocol) w) :
    ∀ a j sender event message rest w', (a = .network j ∨ a = .connecting j) →
      PairFifo.take Envelope.channel w.bus j =
        some (⟨sender, .hubNetwork, .networkEvent event, message⟩, rest) →
      w.step (.hub a) = some w' →
      w'.hub.state ≠ w.hub.state ∨ w'.hub.position ≠ w.hub.position →
      ∃ n, sender = .network n ∧ n + 1 = w.networks.length := by
  intro a j sender event message rest w' ha htake hstep hchange
  have heeded := heeds_of_change (hubMoved_of_step hstep) ha htake hchange
  exact reachable_attributed h _ (PairFifo.mem_of_take htake) event rfl heeded

/-- The first `TaskNetwork` reads end of file when the hub already waits for the
second one, and its late `ConnectedErr` turns the loop. -/
theorem loop_turned_by_first_network :
    ∃ w, Reachable World.step free (.init ⟨60, true⟩ .V5) w ∧
      ((PairFifo.take Envelope.channel w.bus 2).any (fun taken => taken.1.sender = .network 0) ∧
        w.networks.length = 2 ∧
        (w.step (.hub (.connecting 2))).any (fun w' => w'.hub.position ≠ w.hub.position)) :=
  exists_of_guardedRun
    [.hub (.connect 0), .network 0 (.connected false), .hub (.connecting 0), .hub .load,
      .hub .resend, .broker 0 (.send (.Disconnect "ServerBusy") 0), .network 0 .read,
      .hub (.network 1), .hub (.connect 0), .network 0 (.readErr "read 0 byte from network")]
    (by decide +kernel)

/-- The law on a run whose second `TaskNetwork` connects. -/
theorem events_from_last_network_after_reconnect :
    ∃ w, guardedRun World.step (fun w a => reportsInTime w a = true) (.init ⟨60, true⟩ .V4)
        [.hub (.connect 0), .network 0 (.connected false), .hub (.connecting 0), .hub .load,
          .hub .resend, .network 0 (.readErr "read 0 byte from network"), .hub (.network 1),
          .hub .disconnect, .hub (.connect 0), .network 1 (.connected true)] = some w ∧
      ∀ a j sender event message rest w', (a = .network j ∨ a = .connecting j) →
        PairFifo.take Envelope.channel w.bus j =
          some (⟨sender, .hubNetwork, .networkEvent event, message⟩, rest) →
        w.step (.hub a) = some w' →
        w'.hub.state ≠ w.hub.state ∨ w'.hub.position ≠ w.hub.position →
        ∃ n, sender = .network n ∧ n + 1 = w.networks.length :=
  end_of_guardedRun _ (by decide +kernel) (fun _ h => events_from_last_network h)

end Connections
