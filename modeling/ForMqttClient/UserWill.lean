import ForMqttClient.Connections

/-!
# The end of the client

A command of the user ends the hub for good, whether it is taken before an
attempt or while connected. Without `auto_reconnect` the hub makes one attempt:
the branch of `run_to_connect` that tries again after a `ConnectedErr` is never
taken, because the only `TaskNetwork` reports how its handshake ended first.
-/

namespace UserWill

open MqttData TaskHub HubSteps Tasks System SystemSteps GuardedRuns Connections

/-! ## The end of the hub's task -/

/-- What the hub's task waits for fits its state, and outside `Connected` it
draws no token. -/
def Standing (hub : Hub) : Prop :=
  match hub.state with
  | .ToConnect => hub.drawing = false ∧ (hub.position = .loop ∨ hub.position = .connecting)
  | .Connected => hub.position ≠ .connecting
  | .ToDisconnect _ => hub.drawing = false ∧ hub.position = .loop
  | .Disconnected => hub.drawing = false

section Standings

variable {hub : Hub} {keepAliveId : Nat}

theorem standing_of_move {hub' : Hub} {input : HubInput} {outputs : List Output}
    (h : Move keepAliveId hub input hub' outputs) (hI : Standing hub) : Standing hub' := by
  have resting {state : HubState} (hat : At hub state .loop) (state' : HubState) :
      Standing { hub with state := state' } := by
    cases state' <;> simp [Standing, hat.draw, hat.position]
  cases h with
  | load hdraw =>
    unfold Standing at hI ⊢
    cases hstate : hub.state <;> simp_all
  | brokerDisconnect hat =>
    cases hauto : hub.options.autoReconnect with
    | true => exact resting hat .ToConnect
    | false => exact resting hat .Disconnected
  | disconnect hat hnext => exact resting hat _
  | commandsStop hat => exact resting hat _
  | commandDrop hat => exact resting hat _
  | commandViolence hat => exact resting hat _
  | connectedErr hat => exact resting hat _
  | pingFail hat => exact resting hat _
  | startNetwork hat => simp [Standing, hat.state, hat.draw]
  | connected hat => simp [Standing]
  | turnErr hat => simp [Standing, hat.state, hat.draw]
  | turnFail hat _ => simp [Standing, hat.state, hat.draw]
  | turnDisconnect hat _ => simp [Standing, hat.state, hat.draw]
  | giveUpFail hat _ => simp [Standing, hat.draw]
  | giveUpDisconnect hat _ => simp [Standing, hat.draw]
  | resendEntry hat _ => simp [Standing, hat.state]
  | resendEnd hat _ => simp [Standing, hat.state]
  | accept hat _ _ _ => simp [Standing, hat.state, hat.position]
  | recoverDone hat _ _ _ _ => simp [Standing, hat.state, hat.position]
  | recoverRel hat _ _ => simp [Standing, hat.state, hat.position]
  | pingSuccess hat => simp [Standing, hat.state, hat.position]
  | rxAccept hat _ _ => simp [Standing, hat.state, hat.position]
  | affirmRxId hat => simp [Standing, hat.state, hat.position]
  | affirmRxPublish hat _ => simp [Standing, hat.state, hat.position]
  | _ => exact hI

/-- The loop of `connect` returns in `Disconnected`, and only there. -/
theorem ended_iff (hI : Standing hub) :
    hub.state = .Disconnected ↔ ∀ input, hub.step keepAliveId input = none := by
  unfold Standing at hI
  constructor
  · intro hstate input
    rw [hstate] at hI
    cases input <;> simp [Hub.step, hI, hstate]
  · intro hnone
    cases hstate : hub.state with
    | Disconnected => rfl
    | ToDisconnect reason =>
      rw [hstate] at hI
      have := hnone .disconnect
      simp [Hub.step, hI, hstate] at this
    | ToConnect =>
      rw [hstate] at hI
      obtain ⟨hdraw, hpos | hpos⟩ := hI
      · have := hnone (.connect [])
        simp [Hub.step, hdraw, hpos, hstate] at this
      · have := hnone (.connecting (.Connected true))
        simp [Hub.step, hdraw, hpos, hstate] at this
    | Connected =>
      rw [hstate] at hI
      cases hdraw : hub.drawing with
      | true =>
        have := hnone .load
        simp [Hub.step, hdraw] at this
      | false =>
        cases hpos : hub.position with
        | connecting => exact absurd hpos hI
        | loop =>
          have := hnone (.hubMsg .PingFail)
          simp [Hub.step, hdraw, hpos, hstate] at this
        | resending next =>
          have := hnone .resend
          simp [Hub.step, hdraw, hpos, hstate] at this

end Standings

theorem standing_of_moved {w w' : World} {action : Action} (moved : Moved w action w')
    (hI : Standing w.hub) : Standing w'.hub := by
  rcases hub_or_not moved with ⟨a, rfl, hmoved⟩ | notHub
  · cases hmoved with
    | @intro input message taken hub outputs htakes hmove =>
      rw [(applyOutputs_grown { taken with hub := hub } message outputs).hub]
      exact standing_of_move hmove hI
  · rwa [(hub_of_moved moved notHub).1]

theorem reachable_standing {options : MqttOptions} {protocol : Protocol} {w : World}
    (h : Reachable World.step free (.init options protocol) w) : Standing w.hub := by
  have start : Standing (World.init options protocol).hub := ⟨rfl, .inl rfl⟩
  refine h.invariant (I := fun w => Standing w.hub) start ?_
  intro w action w' _ ih _ hstep
  exact standing_of_moved (moved_of_step hstep) ih

/-! ## The commands -/

/-- The action hands at least one client command to the hub. -/
def takesCommand (w : World) : HubAction → Bool
  | .connect seen => !(w.commands.take seen).isEmpty
  | .command _ => true
  | _ => false

/-- Only `Disconnected` can follow. -/
def leaving (state : HubState) : Bool :=
  state = .ToDisconnect .ClientCommand || state = .Disconnected

section Leaving

variable {w w' : World} {action : Action}

/-- The `ToDisconnect` arm of `run`, as a step. -/
theorem disconnect_spec (h : w.stepHub .disconnect = some w') :
    ∃ reason, w.hub.state = .ToDisconnect reason ∧ w'.hub = (w.hub.runToDisconnect reason).hub := by
  obtain ⟨outcome, hstep, hhub⟩ := hub_of_runHub h
  obtain ⟨reason, hat⟩ : Awaits w.hub .disconnect := (move_of_step hstep).awaits
  refine ⟨reason, hat.state, ?_⟩
  simp only [Hub.step, hat.draw, hat.state, hat.position, Bool.false_eq_true, if_false,
    Option.some.injEq] at hstep
  rw [hhub, ← hstep]

/-- A command leads out, in whichever of its two places it is taken. -/
theorem leaving_of_command {a : HubAction} (h : HubMoved w a w')
    (hcommand : takesCommand w a = true) :
    leaving w'.hub.state = true ∧ w'.networks.length = w.networks.length := by
  cases h with
  | @intro input message taken hub outputs htakes hmove =>
    have networks : taken.networks.length = w.networks.length := by cases htakes <;> rfl
    have grown := applyOutputs_grown { taken with hub := hub } message outputs
    rw [grown.hub]
    cases htakes with
    | connect hseen hcommands =>
      cases hmove with
      | commandsStop hat => exact ⟨rfl, networks⟩
      | startNetwork hat => simp [takesCommand, hcommands] at hcommand
    | command htake =>
      cases hmove with
      | commandDrop hat => exact ⟨rfl, networks⟩
      | commandViolence hat => exact ⟨rfl, networks⟩
    | _ => cases hcommand

/-- The next step of a hub that leaves is its last, and starts no `TaskNetwork`. -/
theorem last_step {a : HubAction} (hstanding : Standing w.hub)
    (hleaving : leaving w.hub.state = true) (h : w.stepHub a = some w') :
    w'.hub.state = .Disconnected ∧ w'.networks.length = w.networks.length := by
  have moved := hubMoved_of_step h
  cases moved with
  | @intro input message taken hub outputs htakes hmove =>
    have hawaits := hmove.awaits
    cases input with
    | disconnect =>
      cases htakes
      obtain ⟨reason, hstate, hhub⟩ := disconnect_spec h
      obtain rfl : reason = .ClientCommand := by
        simpa [leaving, hstate] using hleaving
      cases hmove with
      | disconnect hat hnext =>
        rw [hhub]
        exact ⟨rfl, rfl⟩
    | load =>
      have hdraw : w.hub.drawing = true := hawaits
      unfold Standing at hstanding
      cases hstate : w.hub.state <;> simp [leaving, hstate, hdraw] at hleaving hstanding
    | resend =>
      obtain ⟨next, hat⟩ := hawaits
      simp [leaving, hat.state] at hleaving
    | connect commands => simp [leaving, At.state hawaits] at hleaving
    | connecting event => simp [leaving, At.state hawaits] at hleaving
    | command command => simp [leaving, At.state hawaits] at hleaving
    | network event => simp [leaving, At.state hawaits] at hleaving
    | clientData data => simp [leaving, At.state hawaits] at hleaving
    | hubMsg msg => simp [leaving, At.state hawaits] at hleaving

/-- Leaving is for good. -/
theorem leaving_of_run {v : World} (hstanding : Standing w.hub)
    (hleaving : leaving w.hub.state = true) (h : Reachable World.step free w v) :
    Standing v.hub ∧ leaving v.hub.state = true ∧ v.networks.length = w.networks.length := by
  refine h.invariant (I := fun v => Standing v.hub ∧ leaving v.hub.state = true ∧
    v.networks.length = w.networks.length) ⟨hstanding, hleaving, rfl⟩ ?_
  intro v action v' _ ih _ hstep
  obtain ⟨hstanding, hleaving, hlength⟩ := ih
  have moved := moved_of_step hstep
  refine ⟨standing_of_moved moved hstanding, ?_⟩
  rcases hub_or_not moved with ⟨a, rfl, _⟩ | notHub
  · obtain ⟨hstate, hsame⟩ := last_step hstanding hleaving hstep
    exact ⟨by rw [hstate]; rfl, hsame.trans hlength⟩
  · rw [(hub_of_moved moved notHub).1]
    exact ⟨hleaving, (networks_length_of_moved moved notHub).trans hlength⟩

theorem disconnected_of_run {v : World} (hstanding : Standing w.hub)
    (hstate : w.hub.state = .Disconnected) (h : Reachable World.step free w v) :
    v.hub.state = .Disconnected := by
  have run : Standing v.hub ∧ v.hub.state = .Disconnected := by
    refine h.invariant (I := fun v => Standing v.hub ∧ v.hub.state = .Disconnected)
      ⟨hstanding, hstate⟩ ?_
    intro v action v' _ ih _ hstep
    obtain ⟨hstanding, hstate⟩ := ih
    have moved := moved_of_step hstep
    refine ⟨standing_of_moved moved hstanding, ?_⟩
    rcases hub_or_not moved with ⟨a, rfl, _⟩ | notHub
    · exact (last_step hstanding (by rw [hstate]; rfl) hstep).1
    · rwa [(hub_of_moved moved notHub).1]
  exact run.2

end Leaving

/-! ## One attempt -/

def outcomeEvent : BusEvent → Bool
  | .networkEvent (.Connected _) | .networkEvent (.ConnectFail _) => true
  | _ => false

/-- The reports of the first `TaskNetwork` that wait for the hub. -/
def reports (w : World) : List Envelope :=
  PairFifo.channel Envelope.channel (.network 0, .hubNetwork) w.bus

/-- The `TaskNetwork` has yet to end its handshake and has reported nothing, or
the oldest of its reports is the outcome. -/
def OutcomeFirst (w : World) (network : Network) : Prop :=
  network.state = .ToConnect ∧ reports w = [] ∨
    ∃ first rest, reports w = first :: rest ∧ outcomeEvent first.event = true

inductive Attempt (w : World) : Prop where
  | fresh (hat : w.hub.state = .ToConnect ∧ w.hub.position = .loop) (hnone : w.networks = [])
  | trying (hat : w.hub.state = .ToConnect ∧ w.hub.position = .connecting) (network : Network)
      (hone : w.networks = [network]) (hfirst : OutcomeFirst w network)
  | past (hstate : w.hub.state ≠ .ToConnect) (hle : w.networks.length ≤ 1)

/-- What waits for the hub here comes from a `TaskNetwork` that was started. -/
def Known (w : World) : Prop :=
  ∀ e ∈ w.bus, e.receiver = .hubNetwork → ∃ n, n < w.networks.length ∧ e.sender = .network n

/-- Without `auto_reconnect` the hub is before, in or past its only attempt. -/
structure Once (w : World) : Prop where
  auto : w.hub.options.autoReconnect = false
  known : Known w
  attempt : Attempt w

section Attempts

variable {w w' : World} {action : Action}

theorem options_of_moved (h : Moved w action w') : w'.hub.options = w.hub.options := by
  rcases hub_or_not h with ⟨a, rfl, hmoved⟩ | notHub
  · cases hmoved with
    | @intro input message taken hub outputs htakes hmove =>
      have grown := applyOutputs_grown { taken with hub := hub } message outputs
      rw [grown.hub]
      cases hmove <;> rfl
  · rw [(hub_of_moved h notHub).1]

theorem known_of_moved (h : Moved w action w') (hI : Known w) : Known w' := by
  intro e he hreceiver
  have hle := networks_length_le h
  rcases mem_bus_of_moved h he with hmem | hnew
  · obtain ⟨n, hn, hsender⟩ := hI e hmem hreceiver
    exact ⟨n, by omega, hsender⟩
  · cases hnew with
    | networkEvent hget hreports =>
      have hlt := (List.getElem?_eq_some_iff.mp hget).1
      exact ⟨_, by omega, rfl⟩
    | _ => cases hreceiver

/-- Outside the hub nobody takes a report. -/
theorem reports_grow (h : Moved w action w') (hhub : ∀ a, action ≠ .hub a) :
    ∃ more, reports w' = reports w ++ more := by
  cases busMoved h with
  | keep new hbus hnew =>
    refine ⟨PairFifo.channel Envelope.channel (.network 0, .hubNetwork) new, ?_⟩
    rw [reports, hbus, PairFifo.channel_append]
    rfl
  | @take j envelope rest new htaking htake hbus hnew =>
    refine ⟨PairFifo.channel Envelope.channel (.network 0, .hubNetwork) new, ?_⟩
    have other : envelope.channel ≠ (.network 0, .hubNetwork) := by
      intro heq
      have hreceiver : envelope.receiver = .hubNetwork := congrArg Prod.snd heq
      rw [hreceiver] at htaking
      cases htaking <;> exact hhub _ rfl
    rw [reports, hbus, PairFifo.channel_append, ← PairFifo.channel_take_of_ne htake other]
    rfl

/-- Only the first `TaskNetwork` adds to its reports. -/
theorem reports_of_other (h : Moved w action w') (hhub : ∀ a, action ≠ .hub a)
    (hnetwork : ∀ a, action ≠ .network 0 a) : reports w' = reports w := by
  refine channel_of_moved h ?_ ?_
  · intro e he heq
    have hspeaker : speaker action = .network 0 :=
      (sender_of_emission he).symm.trans (congrArg Prod.fst heq)
    cases action with
    | network n a =>
      cases hspeaker
      exact hnetwork a rfl
    | _ => cases hspeaker
  · intro j htaking
    cases htaking <;> exact hhub _ rfl

/-- The first report of a `TaskNetwork` is the outcome of its handshake. -/
theorem outcomeFirst_of_network {network : Network} {a : NetworkAction}
    (h : NetworkMoved w 0 network a w') (hstate : network.state = .ToConnect)
    (hquiet : reports w = []) :
    ∃ first rest, reports w' = first :: rest ∧ outcomeEvent first.event = true := by
  have said (event : NetworkEvent) (hbus : w'.bus = w.bus ++
      [⟨.network 0, .hubNetwork, .networkEvent event, 0⟩])
      (houtcome : outcomeEvent (.networkEvent event) = true) :
      ∃ first rest, reports w' = first :: rest ∧ outcomeEvent first.event = true := by
    refine ⟨⟨.network 0, .hubNetwork, .networkEvent event, 0⟩, [], ?_, houtcome⟩
    have hreports : reports w' = reports w ++ [⟨.network 0, .hubNetwork, .networkEvent event, 0⟩] := by
      rw [reports, hbus, PairFifo.channel_append]
      rfl
    rw [hreports, hquiet]
    rfl
  cases h with
  | @connected sessionPresent _ => exact said (.Connected sessionPresent) rfl rfl
  | @connectFail reason _ => exact said (.ConnectFail reason) rfl rfl
  | read hstate' _ => cases hstate.symm.trans hstate'
  | readErr hstate' => cases hstate.symm.trans hstate'
  | takeDisconnect hstate' _ => cases hstate.symm.trans hstate'
  | write hstate' _ => cases hstate.symm.trans hstate'
  | writeErr hstate' _ => cases hstate.symm.trans hstate'
  | writeDisconnect hstate' => cases hstate.symm.trans hstate'
  | writeDisconnectErr hstate' => cases hstate.symm.trans hstate'

/-- The only `TaskNetwork`, named after a step outside the hub. -/
theorem one_network (h : Moved w action w') (hhub : ∀ a, action ≠ .hub a) {network : Network}
    (hone : w.networks = [network]) : ∃ network', w'.networks = [network'] := by
  apply List.length_eq_one_iff.mp
  rw [networks_length_of_moved h hhub, hone]
  rfl

theorem only_network {network found : Network} {n : Nat} (hone : w.networks = [network])
    (hget : w.networks[n]? = some found) : n = 0 ∧ found = network := by
  rw [hone] at hget
  obtain ⟨hlt, hfound⟩ := List.getElem?_eq_some_iff.mp hget
  obtain rfl : n = 0 := Nat.lt_one_iff.mp hlt
  exact ⟨rfl, hfound.symm⟩

theorem trying_of_outside (h : Moved w action w') (hhub : ∀ a, action ≠ .hub a)
    {network : Network} (hone : w.networks = [network]) (hfirst : OutcomeFirst w network) :
    ∃ network', w'.networks = [network'] ∧ OutcomeFirst w' network' := by
  rcases hfirst with ⟨hstate, hquiet⟩ | ⟨first, rest, hreports, houtcome⟩
  · have same (hnetworks : w'.networks = w.networks) (hother : ∀ a, action ≠ .network 0 a) :
        ∃ network', w'.networks = [network'] ∧ OutcomeFirst w' network' :=
      ⟨network, hnetworks.trans hone, .inl ⟨hstate, (reports_of_other h hhub hother).trans hquiet⟩⟩
    cases h with
    | hub h => exact absurd rfl (hhub _)
    | task hget hmoved => exact same (by cases hmoved <;> rfl) (by simp)
    | ping hget hmoved => exact same (by cases hmoved <;> rfl) (by simp)
    | @network n found a w' hget hmoved =>
      obtain ⟨network', hnetwork'⟩ := one_network (.network hget hmoved) hhub hone
      obtain ⟨rfl, rfl⟩ := only_network hone hget
      exact ⟨network', hnetwork', .inr (outcomeFirst_of_network hmoved hstate hquiet)⟩
    | @brokerRecv n found packet rest hget hto =>
      obtain ⟨rfl, rfl⟩ := only_network hone hget
      exact ⟨_, congrArg (List.set · 0 _) hone, .inl ⟨hstate, hquiet⟩⟩
    | @brokerSend n found packet message hget =>
      obtain ⟨rfl, rfl⟩ := only_network hone hget
      exact ⟨_, congrArg (List.set · 0 _) hone, .inl ⟨hstate, hquiet⟩⟩
    | _ => exact same rfl (by simp)
  · obtain ⟨network', hnetwork'⟩ := one_network h hhub hone
    obtain ⟨more, hmore⟩ := reports_grow h hhub
    refine ⟨network', hnetwork', .inr ⟨first, rest ++ more, ?_, houtcome⟩⟩
    rw [hmore, hreports]
    rfl

theorem attempt_of_outside (h : Moved w action w') (hhub : ∀ a, action ≠ .hub a)
    (hI : Attempt w) : Attempt w' := by
  have hub := (hub_of_moved h hhub).1
  have length := networks_length_of_moved h hhub
  cases hI with
  | fresh hat hnone =>
    refine .fresh (by rwa [hub]) (List.eq_nil_of_length_eq_zero ?_)
    rw [length, hnone]
    rfl
  | trying hat network hone hfirst =>
    obtain ⟨network', hone', hfirst'⟩ := trying_of_outside h hhub hone hfirst
    exact .trying (by rwa [hub]) network' hone' hfirst'
  | past hstate hle =>
    exact .past (by rwa [hub]) (by rwa [length])

/-- A report that the hub takes while it waits is the outcome. -/
theorem outcome_of_take (hI : Once w) {network : Network} (hone : w.networks = [network])
    (hfirst : OutcomeFirst w network) {j message : Nat} {sender : Worker} {event : NetworkEvent}
    {rest : List Envelope} (htake : PairFifo.take Envelope.channel w.bus j =
      some (⟨sender, .hubNetwork, .networkEvent event, message⟩, rest)) :
    outcomeEvent (.networkEvent event) = true := by
  obtain ⟨n, hn, hsender⟩ := hI.known _ (PairFifo.mem_of_take htake) rfl
  rw [hone] at hn
  obtain rfl : n = 0 := Nat.lt_one_iff.mp hn
  cases hsender
  have head := PairFifo.channel_take htake
  rcases hfirst with ⟨_, hquiet⟩ | ⟨first, tail, hreports, houtcome⟩
  · cases hquiet.symm.trans head
  · obtain ⟨rfl, _⟩ := List.cons.inj (hreports.symm.trans head)
    exact houtcome

/-- Past the attempt the hub never comes back to `ToConnect`. -/
theorem past_of_hub {a : HubAction} (h : w.stepHub a = some w')
    (hauto : w.hub.options.autoReconnect = false) (hstate : w.hub.state ≠ .ToConnect) :
    w'.hub.state ≠ .ToConnect := by
  cases hubMoved_of_step h with
  | @intro input message taken hub outputs htakes hmove =>
    have hawaits := hmove.awaits
    have grown := applyOutputs_grown { taken with hub := hub } message outputs
    cases input with
    | connect commands => exact absurd (At.state hawaits) hstate
    | connecting event => exact absurd (At.state hawaits) hstate
    | disconnect =>
      cases htakes
      obtain ⟨reason, _, hhub⟩ := disconnect_spec h
      rw [hhub]
      cases reason <;> simp [Hub.runToDisconnect, hauto]
    | load =>
      rw [grown.hub]
      cases hmove
      exact hstate
    | resend =>
      rw [grown.hub]
      cases hmove <;> exact hstate
    | command command =>
      rw [grown.hub]
      cases hmove <;> simp
    | network event =>
      rw [grown.hub]
      cases hmove <;> first | exact hstate | simp [hauto]
    | clientData data =>
      rw [grown.hub]
      cases hmove <;> exact hstate
    | hubMsg msg =>
      rw [grown.hub]
      cases hmove <;> first | exact hstate | simp

theorem reports_nil (hI : Known w) (hnone : w.networks = []) : reports w = [] := by
  rw [reports, PairFifo.channel, List.filter_eq_nil_iff]
  intro e he hchannel
  obtain ⟨n, hn, _⟩ := hI e he (congrArg Prod.snd (of_decide_eq_true hchannel))
  rw [hnone] at hn
  cases hn

/-- Before the attempt the hub can stop, or make the attempt. -/
theorem fresh_of_hub {a : HubAction} (h : HubMoved w a w') (hI : Known w)
    (hat : w.hub.state = .ToConnect ∧ w.hub.position = .loop) (hnone : w.networks = []) :
    Attempt w' := by
  cases h with
  | @intro input message taken hub outputs htakes hmove =>
    have before : taken.networks = [] := by cases htakes <;> exact hnone
    have grown := applyOutputs_grown { taken with hub := hub } message outputs
    have hawaits := hmove.awaits
    have not_connected {position : RunPosition} (hat' : At w.hub .Connected position) :
        Attempt (World.applyOutputs message { taken with hub := hub } outputs) := by
      cases hat.1.symm.trans hat'.state
    cases input with
    | load =>
      cases hmove
      exact .fresh hat before
    | connect commands =>
      cases hmove with
      | commandsStop hat' =>
        exact .past (by simp [grown.hub])
          (Nat.le_trans (Nat.le_of_eq (congrArg List.length before)) (Nat.zero_le 1))
      | startNetwork hat' =>
        cases htakes with
        | connect hseen hcommands =>
          have hquiet := reports_nil hI hnone
          exact .trying ⟨hat.1, rfl⟩ .init (congrArg (· ++ [Network.init]) before)
            (.inl ⟨rfl, hquiet⟩)
    | connecting event => cases hat.2.symm.trans (At.position hawaits)
    | disconnect =>
      obtain ⟨reason, hat'⟩ := hawaits
      cases hat.1.symm.trans hat'.state
    | resend =>
      obtain ⟨next, hat'⟩ := hawaits
      exact not_connected hat'
    | command command => exact not_connected hawaits
    | network event => exact not_connected hawaits
    | clientData data => exact not_connected hawaits
    | hubMsg msg => exact not_connected hawaits

/-- In the attempt the hub waits for the outcome, and is past the attempt with it. -/
theorem trying_of_hub {a : HubAction} (h : HubMoved w a w') (hI : Once w)
    (hat : w.hub.state = .ToConnect ∧ w.hub.position = .connecting) {network : Network}
    (hone : w.networks = [network]) (hfirst : OutcomeFirst w network) : Attempt w' := by
  cases h with
  | @intro input message taken hub outputs htakes hmove =>
    have before : taken.networks = [network] := by cases htakes <;> exact hone
    have grown := applyOutputs_grown { taken with hub := hub } message outputs
    have hawaits := hmove.awaits
    have not_connected {position : RunPosition} (hat' : At w.hub .Connected position) :
        Attempt (World.applyOutputs message { taken with hub := hub } outputs) := by
      cases hat.1.symm.trans hat'.state
    cases input with
    | load =>
      cases htakes
      cases hmove
      exact .trying hat network hone hfirst
    | connecting event =>
      cases htakes with
      | connecting htake =>
        have houtcome := outcome_of_take hI hone hfirst htake
        have one : [network].length ≤ 1 := Nat.le_refl 1
        cases hmove with
        | connected hat' => exact .past (by simp [grown.hub]) (by rw [← hone] at one; exact one)
        | turnErr hat' => cases houtcome
        | turnFail hat' hauto => cases hI.auto.symm.trans hauto
        | turnDisconnect hat' hauto => cases houtcome
        | giveUpFail hat' hauto => exact .past (by simp [grown.hub]) (by rw [← hone] at one; exact one)
        | giveUpDisconnect hat' hauto => cases houtcome
    | connect commands => cases hat.2.symm.trans (At.position hawaits)
    | disconnect =>
      obtain ⟨reason, hat'⟩ := hawaits
      cases hat.1.symm.trans hat'.state
    | resend =>
      obtain ⟨next, hat'⟩ := hawaits
      exact not_connected hat'
    | command command => exact not_connected hawaits
    | network event => exact not_connected hawaits
    | clientData data => exact not_connected hawaits
    | hubMsg msg => exact not_connected hawaits

theorem attempt_of_hub {a : HubAction} (h : w.stepHub a = some w') (hI : Once w) :
    Attempt w' := by
  have moved := hubMoved_of_step h
  cases hI.attempt with
  | fresh hat hnone => exact fresh_of_hub moved hI.known hat hnone
  | trying hat network hone hfirst => exact trying_of_hub moved hI hat hone hfirst
  | past hstate hle =>
    refine .past (past_of_hub h hI.auto hstate) ?_
    rcases networks_of_hub moved with hsame | ⟨_, hat, _⟩
    · rwa [hsame]
    · exact absurd hat.state hstate

theorem networks_le_of_once (hI : Once w) : w.networks.length ≤ 1 := by
  cases hI.attempt with
  | fresh hat hnone =>
    rw [hnone]
    exact Nat.zero_le 1
  | trying hat network hone hfirst =>
    rw [hone]
    exact Nat.le_refl 1
  | past hstate hle => exact hle

end Attempts

theorem once_of_step {w w' : World} {action : Action} (h : w.step action = some w') (hI : Once w) :
    Once w' := by
  have moved := moved_of_step h
  refine ⟨?_, known_of_moved moved hI.known, ?_⟩
  · rw [options_of_moved moved]
    exact hI.auto
  · rcases hub_or_not moved with ⟨a, rfl, _⟩ | notHub
    · exact attempt_of_hub h hI
    · exact attempt_of_outside moved notHub hI.attempt

theorem reachable_once {options : MqttOptions} {protocol : Protocol} {w : World}
    (hauto : options.autoReconnect = false)
    (h : Reachable World.step free (.init options protocol) w) : Once w := by
  refine h.invariant ⟨hauto, ?_, .fresh ⟨rfl, rfl⟩ rfl⟩ ?_
  · intro e he
    cases he
  · intro w action w' _ ih _ hstep
    exact once_of_step hstep ih

/-- In every run: (a) after a client command that the hub has processed in either
place, it starts no `TaskNetwork`, and its only further step ends in
`Disconnected`; (b) without `auto_reconnect` there is at most one `TaskNetwork`;
(c) the hub's task ends in `Disconnected`, only there, and for good. -/
theorem never_reconnects_against_will {options : MqttOptions} {protocol : Protocol} {w : World}
    (h : Reachable World.step free (.init options protocol) w) :
    (∀ a w', takesCommand w a = true → w.step (.hub a) = some w' →
      ∀ v, Reachable World.step free w' v →
        leaving v.hub.state = true ∧ v.networks.length = w.networks.length ∧
          ∀ a' v', v.step (.hub a') = some v' → v'.hub.state = .Disconnected) ∧
    (options.autoReconnect = false → w.networks.length ≤ 1) ∧
    (w.hub.state = .Disconnected ↔ ∀ input, w.hub.step w.keepAliveId input = none) ∧
    (w.hub.state = .Disconnected →
      ∀ v, Reachable World.step free w v → v.hub.state = .Disconnected) := by
  have standing := reachable_standing h
  refine ⟨?_, ?_, ended_iff standing, fun hstate v hrun => disconnected_of_run standing hstate hrun⟩
  · intro a w' hcommand hstep v hrun
    have standing' := standing_of_moved (moved_of_step hstep) standing
    obtain ⟨hleaving, hsame⟩ := leaving_of_command (hubMoved_of_step hstep) hcommand
    obtain ⟨hstanding, hleaving', hlength⟩ := leaving_of_run standing' hleaving hrun
    exact ⟨hleaving', hlength.trans hsame, fun a' v' h' => (last_step hstanding hleaving' h').1⟩
  · intro hauto
    exact networks_le_of_once (reachable_once hauto h)

/-- The law where the user leaves a connection whose `TaskNetwork` has reported
an error, so that the hub would have connected again. -/
theorem never_reconnects_against_will_after_error :
    ∃ w, guardedRun World.step free (.init ⟨60, true⟩ .V5)
        [.hub (.connect 0), .network 0 (.connected false), .hub (.connecting 0), .hub .load,
          .hub .resend, .network 0 (.readErr "read 0 byte from network"),
          .command .DisconnectAndDrop] = some w ∧
      ∀ a w', takesCommand w a = true → w.step (.hub a) = some w' →
        ∀ v, Reachable World.step free w' v →
          leaving v.hub.state = true ∧ v.networks.length = w.networks.length ∧
            ∀ a' v', v.step (.hub a') = some v' → v'.hub.state = .Disconnected :=
  end_of_guardedRun _ (by decide +kernel) (fun _ h => (never_reconnects_against_will h).1)

end UserWill
