import ForMqttClient.UserWill

/-!
# The client can always come up again

With `auto_reconnect`, and as long as no command of the user is on its way, no
run leads the hub into a corner: from wherever it stands the hub alone, with
handshakes that succeed, gets back to its loop behind a finished resend.
-/

namespace Reconnects

open MqttData TaskHub HubSteps Tasks System SystemSteps GuardedRuns UserWill

/-- Neither the user nor the broker nor a task acts, and of its queues the hub takes
only the outcome of an attempt; it sees the commands that wait, and handshakes succeed. -/
def Alone (w : World) : Action → Prop
  | .hub (.connect seen) => seen = w.commands.length
  | .hub (.recv _) | .hub (.command _) | .hub (.network _) => False
  | .hub _ => True
  | .network _ (.connected _) => True
  | _ => False

/-! ## What the hub waits for -/

/-- The hub waits for an attempt that is under way, or its queue is not empty. -/
def Expecting (w : World) : Prop :=
  (∃ (n : Nat) (network : Network), w.networks[n]? = some network ∧ network.state = .ToConnect) ∨
    ∃ e ∈ w.bus, e.receiver = .hubNetwork

structure Ready (w : World) : Prop where
  standing : Standing w.hub
  known : Known w
  reported : ∀ e ∈ w.bus, e.receiver = .hubNetwork → ∃ event, e.event = .networkEvent event
  expecting : w.hub.position = .connecting → Expecting w
  auto : w.hub.options.autoReconnect = true

section Invariant

variable {w w' : World} {action : Action}

/-- A handshake that ends puts its outcome on the bus. -/
theorem expecting_of_network {n : Nat} {network : Network} {a : NetworkAction}
    (h : NetworkMoved w n network a w') (hstate : network.state = .ToConnect) : Expecting w' := by
  have outcome (event : NetworkEvent) (hbus : w'.bus = w.bus ++
      [⟨.network n, .hubNetwork, .networkEvent event, 0⟩]) : Expecting w' :=
    .inr ⟨⟨.network n, .hubNetwork, .networkEvent event, 0⟩, by simp [hbus], rfl⟩
  cases h with
  | @connected sessionPresent _ => exact outcome (.Connected sessionPresent) rfl
  | @connectFail reason _ => exact outcome (.ConnectFail reason) rfl
  | read hstate' _ => cases hstate.symm.trans hstate'
  | readErr hstate' => cases hstate.symm.trans hstate'
  | takeDisconnect hstate' _ => cases hstate.symm.trans hstate'
  | write hstate' _ => cases hstate.symm.trans hstate'
  | writeErr hstate' _ => cases hstate.symm.trans hstate'
  | writeDisconnect hstate' => cases hstate.symm.trans hstate'
  | writeDisconnectErr hstate' => cases hstate.symm.trans hstate'

/-- An action of another party does not touch network task `n`, or only its streams. -/
theorem network_of_other (h : Moved w action w') (hhub : ∀ a, action ≠ .hub a) {n : Nat}
    (hother : ∀ a, action ≠ .network n a) {network : Network}
    (hget : w.networks[n]? = some network) :
    ∃ network', w'.networks[n]? = some network' ∧ network'.state = network.state := by
  have same (hnetworks : w'.networks = w.networks) :
      ∃ network', w'.networks[n]? = some network' ∧ network'.state = network.state :=
    ⟨network, hnetworks ▸ hget, rfl⟩
  have replaced {m : Nat} {before after : Network} (hbefore : w.networks[m]? = some before)
      (hnetworks : w'.networks = w.networks.set m after) (hstate : m = n → after.state = before.state) :
      ∃ network', w'.networks[n]? = some network' ∧ network'.state = network.state := by
    rw [hnetworks]
    by_cases hmn : m = n
    · subst hmn
      cases hbefore.symm.trans hget
      exact ⟨after, List.getElem?_set_self (List.getElem?_eq_some_iff.mp hget).1, hstate rfl⟩
    · rw [List.getElem?_set_ne hmn]
      exact ⟨network, hget, rfl⟩
  cases h with
  | hub h => exact absurd rfl (hhub _)
  | task hget' h => cases h <;> exact same rfl
  | ping hget' h => cases h <;> exact same rfl
  | @network m before a w' hget' h =>
    have hmn : m ≠ n := by
      rintro rfl
      exact hother a rfl
    cases h with
    | @read packet message rest hstate hfrom =>
      cases packet <;> exact replaced hget' rfl (absurd · hmn)
    | _ => exact replaced hget' rfl (absurd · hmn)
  | brokerRecv hget' hto => exact replaced hget' rfl (fun _ => rfl)
  | brokerSend hget' => exact replaced hget' rfl (fun _ => rfl)
  | _ => exact same rfl

theorem expecting_of_outside (h : Moved w action w') (hhub : ∀ a, action ≠ .hub a)
    (hI : Expecting w) : Expecting w' := by
  rcases hI with ⟨n, network, hget, hstate⟩ | ⟨e, he, hreceiver⟩
  · by_cases hnetwork : ∃ a, action = .network n a
    · obtain ⟨a, rfl⟩ := hnetwork
      cases h with
      | network hget' hmoved =>
        cases hget.symm.trans hget'
        exact expecting_of_network hmoved hstate
    · have hother : ∀ a, action ≠ .network n a := fun a heq => hnetwork ⟨a, heq⟩
      obtain ⟨network', hget', hstate'⟩ := network_of_other h hhub hother hget
      exact .inl ⟨n, network', hget', hstate'.trans hstate⟩
  · rcases mem_bus_or_taken h he with he' | ⟨j, rest, htaking, _⟩
    · exact .inr ⟨e, he', hreceiver⟩
    · rw [hreceiver] at htaking
      cases htaking <;> exact absurd rfl (hhub _)

theorem expecting_of_hub {a : HubAction} (h : HubMoved w a w') (hI : Ready w)
    (hposition : w'.hub.position = .connecting) : Expecting w' := by
  cases h with
  | @intro input message taken hub outputs htakes hmove =>
    rw [(applyOutputs_grown { taken with hub := hub } message outputs).hub] at hposition
    have away {state : HubState} (hat : At w.hub state .loop) : w.hub.position ≠ .connecting := by
      rw [hat.position]
      exact nofun
    cases hmove with
    | load hdraw =>
      cases htakes
      exact hI.expecting hposition
    | startNetwork hat =>
      refine .inl ⟨taken.networks.length, .init, ?_, rfl⟩
      exact List.getElem?_concat_length
    | _ =>
      first
      | cases hposition
      | exact absurd hposition (away ‹_›)

theorem reported_of_moved (h : Moved w action w') (hI : Ready w) :
    ∀ e ∈ w'.bus, e.receiver = .hubNetwork → ∃ event, e.event = .networkEvent event := by
  intro e he hreceiver
  rcases mem_bus_of_moved h he with hmem | hnew
  · exact hI.reported e hmem hreceiver
  · cases hnew with
    | networkEvent hget hreports => exact ⟨_, rfl⟩
    | _ => cases hreceiver

theorem ready_of_moved (h : Moved w action w') (hI : Ready w) : Ready w' where
  standing := standing_of_moved h hI.standing
  known := known_of_moved h hI.known
  reported := reported_of_moved h hI
  expecting := by
    intro hposition
    rcases hub_or_not h with ⟨a, rfl, hmoved⟩ | notHub
    · exact expecting_of_hub hmoved hI hposition
    · rw [(hub_of_moved h notHub).1] at hposition
      exact expecting_of_outside h notHub (hI.expecting hposition)
  auto := by
    rw [options_of_moved h]
    exact hI.auto

theorem ready_init {options : MqttOptions} {protocol : Protocol}
    (hauto : options.autoReconnect = true) : Ready (.init options protocol) := by
  refine ⟨⟨rfl, .inl rfl⟩, ?_, ?_, ?_, hauto⟩
  · exact fun e he => absurd he List.not_mem_nil
  · exact fun e he => absurd he List.not_mem_nil
  · intro hposition
    cases hposition

theorem reachable_ready {options : MqttOptions} {protocol : Protocol}
    (hauto : options.autoReconnect = true)
    (h : Reachable World.step free (.init options protocol) w) : Ready w := by
  refine h.invariant (ready_init hauto) ?_
  intro w action w' _ ih _ hstep
  exact ready_of_moved (moved_of_step hstep) ih

theorem ready_of_reach (hI : Ready w) (h : Reachable World.step Alone w w') : Ready w' := by
  refine h.invariant hI ?_
  intro w action w' _ ih _ hstep
  exact ready_of_moved (moved_of_step hstep) ih

/-- Only the user puts a command on the bus. -/
theorem quiet_of_reach (hquiet : w.commands = []) (h : Reachable World.step Alone w w') :
    w'.commands = [] := by
  refine h.invariant (I := fun v => v.commands = []) hquiet ?_
  intro v action v' _ ih hok hstep
  rw [World.commands, List.filterMap_eq_nil_iff] at ih ⊢
  intro e he
  rcases mem_bus_of_moved (moved_of_step hstep) he with hmem | hnew
  · exact ih e hmem
  · cases hnew with
    | command => cases hok
    | _ => rfl

end Invariant

/-! ## The way back -/

section Way

variable {w : World}

def Looping (w : World) : Prop := At w.hub .Connected .loop

/-- The resend loop was left with the entries from `next` on started, and nothing else done. -/
structure Resumed (w : World) (next : Nat) (v : World) : Prop where
  looping : Looping v
  entries : v.hub.clientData = w.hub.clientData
  tasks : v.tasks = w.tasks ++
    (w.hub.clientData.drop next).map (fun entry => Task.init entry.toAcknowledge)
  networks : v.networks = w.networks
  bus : v.bus = w.bus

/-- The resend loop comes to its end. -/
theorem canReach_of_resending {left : Nat} : ∀ {w : World} {next : Nat},
    At w.hub .Connected (.resending next) → w.hub.clientData.length - next = left →
    CanReach World.step Alone (Resumed w next) w := by
  induction left with
  | zero =>
    intro w next hat hleft
    have hnone : w.hub.clientData[next]? = none := List.getElem?_eq_none_iff.mpr (by omega)
    have hstep : w.hub.step w.keepAliveId .resend =
        some ⟨{ w.hub with position := .loop }, [], .ok ()⟩ := by
      simp [Hub.step, hat.draw, hat.state, hat.position, Hub.resend, hnone]
    have tasks : w.tasks = w.tasks ++
        (w.hub.clientData.drop next).map (fun entry => Task.init entry.toAcknowledge) := by
      rw [List.drop_eq_nil_of_le (by omega), List.map_nil, List.append_nil]
    have done : Resumed w next { w with hub := { w.hub with position := .loop } } :=
      ⟨⟨hat.draw, hat.state, rfl⟩, rfl, tasks, rfl, rfl⟩
    exact (CanReach.now done).after (a := .hub .resend) trivial (runHub_of_outcome hstep 0)
  | succ left ih =>
    intro w next hat hleft
    have hlt : next < w.hub.clientData.length := by omega
    have hentry := List.getElem?_eq_getElem hlt
    have hstep : w.hub.step w.keepAliveId .resend =
        some ⟨{ w.hub with position := .resending (next + 1) },
          [.start w.hub.clientData[next].toAcknowledge], .ok ()⟩ := by
      simp [Hub.step, hat.draw, hat.state, hat.position, Hub.resend, hentry]
    have fewer : w.hub.clientData.length - (next + 1) = left := by omega
    obtain ⟨v, hreach, resumed⟩ := ih (w := World.applyOutputs 0
        { w with hub := { w.hub with position := .resending (next + 1) } }
        [.start w.hub.clientData[next].toAcknowledge]) ⟨hat.draw, hat.state, rfl⟩ fewer
    have tasks : v.tasks = w.tasks ++
        (w.hub.clientData.drop next).map (fun entry => Task.init entry.toAcknowledge) := by
      rw [List.drop_eq_getElem_cons hlt, List.map_cons]
      exact resumed.tasks.trans (List.append_assoc _ _ _)
    have done : Resumed w next v :=
      ⟨resumed.looping, resumed.entries, tasks, resumed.networks, resumed.bus⟩
    exact CanReach.after (a := .hub .resend) ⟨v, hreach, done⟩ trivial (runHub_of_outcome hstep 0)

theorem step_load (hdraw : w.hub.drawing = true) : w.step (.hub .load) =
    some { w with
      hub := { w.hub with drawing := false }, timers := w.timers ++ [some w.keepAliveId] } := by
  have hstep : w.hub.step w.keepAliveId .load =
      some ⟨{ w.hub with drawing := false }, [.sleep w.keepAliveId], .ok ()⟩ := by
    simp [Hub.step, hdraw]
  exact runHub_of_outcome hstep 0

/-- Connected, the hub gets to its loop. -/
theorem canReach_of_connected (hI : Standing w.hub) (hstate : w.hub.state = .Connected) :
    CanReach World.step Alone Looping w := by
  have settled {v : World} (hposition : v.hub.position ≠ .connecting)
      (hdraw : v.hub.drawing = false) (hstate : v.hub.state = .Connected) :
      CanReach World.step Alone Looping v := by
    cases hpos : v.hub.position with
    | loop => exact .now ⟨hdraw, hstate, hpos⟩
    | connecting => exact absurd hpos hposition
    | resending next =>
      exact (canReach_of_resending ⟨hdraw, hstate, hpos⟩ rfl).mono (fun _ _ => id)
        (fun _ resumed => resumed.looping)
  have hposition : w.hub.position ≠ .connecting := by
    unfold Standing at hI
    rwa [hstate] at hI
  cases hdraw : w.hub.drawing with
  | false => exact settled hposition hdraw hstate
  | true =>
    have rest : CanReach World.step Alone Looping
        { w with
          hub := { w.hub with drawing := false }, timers := w.timers ++ [some w.keepAliveId] } :=
      settled hposition rfl hstate
    exact rest.after (a := .hub .load) trivial (step_load hdraw)

/-- The hub takes a report while it waits for one. -/
theorem step_connecting (hat : At w.hub .ToConnect .connecting) {j message : Nat} {sender : Worker}
    {event : NetworkEvent} {rest : List Envelope}
    (htake : PairFifo.take Envelope.channel w.bus j =
      some (⟨sender, .hubNetwork, .networkEvent event, message⟩, rest)) :
    w.step (.hub (.connecting j)) = some (World.applyOutputs 0
      { w with bus := rest, hub := (w.hub.runToConnectEvent event).hub }
      (w.hub.runToConnectEvent event).outputs) := by
  have hstep : Hub.step w.keepAliveId w.hub (.connecting event) =
      some (w.hub.runToConnectEvent event) := by
    simp [Hub.step, hat.draw, hat.state, hat.position]
  simp only [World.step, World.stepHub, receive_of_take htake]
  exact runHub_of_outcome (w := { w with bus := rest }) hstep 0

/-- The handshake of an attempt under way succeeds. -/
theorem step_connected {n : Nat} {network : Network} (hget : w.networks[n]? = some network)
    (hstate : network.state = .ToConnect) : w.step (.network n (.connected true)) =
      some ((w.dispatch (.network n) (.networkEvent (.Connected true)) 0).setNetwork n
        { network with state := .Connected }) := by
  simp only [World.step, hget, World.stepNetwork, hstate]

/-- The hub makes a new attempt. -/
theorem step_connect (hat : At w.hub .ToConnect .loop) : w.step (.hub (.connect 0)) =
    some { w with
      hub := { w.hub with position := .connecting }, networks := w.networks ++ [.init] } := by
  have hstep : w.hub.step w.keepAliveId (.connect []) =
      some ⟨{ w.hub with position := .connecting }, [.startNetwork], .ok ()⟩ := by
    simp [Hub.step, hat.draw, hat.state, hat.position, Hub.runToConnect,
      Hub.tryDealClientCommandWhenToConnect]
  have seen : w.step (.hub (.connect 0)) = w.runHub (.connect []) 0 := by
    simp [World.step, World.stepHub]
  exact seen.trans (runHub_of_outcome hstep 0)

/-- A new attempt has just succeeded, and nothing else has happened. -/
structure Attempted (w v : World) : Prop where
  draw : v.hub.drawing = true
  state : v.hub.state = .Connected
  position : v.hub.position = .resending 0
  entries : v.hub.clientData = w.hub.clientData
  tasks : v.tasks = w.tasks
  networks : v.networks = w.networks ++ [⟨.Connected, [], []⟩]
  bus : ∀ e ∈ v.bus, e ∈ w.bus ∨ e.sender = .hub

/-- A new attempt can succeed: no report of an older one is in its channel. -/
theorem canReach_of_attempt (hI : Known w) (hquiet : w.commands = [])
    (hat : At w.hub .ToConnect .loop) : CanReach World.step Alone (Attempted w) w := by
  have connect := step_connect hat
  obtain ⟨w₁, hw₁⟩ : ∃ v, v = { w with
    hub := { w.hub with position := .connecting }, networks := w.networks ++ [Network.init] } :=
    ⟨_, rfl⟩
  rw [← hw₁] at connect
  have fresh : w₁.networks[w.networks.length]? = some Network.init := by
    rw [hw₁]
    exact List.getElem?_concat_length
  have connected := step_connected fresh rfl
  have alone : ∀ e ∈ w₁.bus, e.channel ≠ (.network w.networks.length, .hubNetwork) := by
    intro e he hchannel
    rw [hw₁] at he
    obtain ⟨n, hn, hsender⟩ := hI e he (congrArg Prod.snd hchannel)
    cases hsender.symm.trans (congrArg Prod.fst hchannel)
    exact Nat.lt_irrefl _ hn
  have htake := PairFifo.take_snoc (m := Envelope.mk (.network w.networks.length) .hubNetwork
    (.networkEvent (.Connected true)) 0) alone
  have at₁ : At w₁.hub .ToConnect .connecting := by
    rw [hw₁]
    exact ⟨hat.draw, hat.state, rfl⟩
  have took := step_connecting (w := (w₁.dispatch (.network w.networks.length)
    (.networkEvent (.Connected true)) 0).setNetwork w.networks.length
      { Network.init with state := .Connected }) at₁ htake
  have none : 0 = w.commands.length := by rw [hquiet]; rfl
  have first : Reachable World.step Alone w w₁ := .next (a := .hub (.connect 0)) .start none connect
  have second : Reachable World.step Alone w _ :=
    .next (a := .network w.networks.length (.connected true)) first trivial connected
  refine ⟨_, .next (a := .hub (.connecting w₁.bus.length)) second trivial took, ?_⟩
  rw [hw₁]
  refine ⟨rfl, rfl, rfl, rfl, rfl, ?_, ?_⟩
  · exact (List.set_append_right _ _ (Nat.le_refl _)).trans (by simp [Network.init])
  · intro e he
    rcases List.mem_append.mp he with hold | hnew
    · exact .inl hold
    · exact .inr (congrArg Envelope.sender (List.mem_singleton.mp hnew))

/-- An attempt under way ends, well or not. -/
theorem canReach_of_connecting (hI : Ready w) (hat : At w.hub .ToConnect .connecting) :
    CanReach World.step Alone
      (fun v => v.hub.state = .Connected ∨ At v.hub .ToConnect .loop) w := by
  have taken {v : World} (hI : Ready v) (hat : At v.hub .ToConnect .connecting) {e : Envelope}
      (he : e ∈ v.bus) (hreceiver : e.receiver = .hubNetwork) : CanReach World.step Alone
        (fun v => v.hub.state = .Connected ∨ At v.hub .ToConnect .loop) v := by
    obtain ⟨j, ⟨sender, receiver, content, message⟩, rest, htake, hchannel⟩ :
        ∃ j e' rest, PairFifo.take Envelope.channel v.bus j = some (e', rest) ∧
          e'.channel = e.channel := PairFifo.exists_take he
    obtain rfl : receiver = .hubNetwork := (congrArg Prod.snd hchannel).trans hreceiver
    obtain ⟨event, rfl⟩ : ∃ event, content = .networkEvent event :=
      hI.reported _ (PairFifo.mem_of_take htake) rfl
    have took := step_connecting hat htake
    refine ⟨_, .next (a := .hub (.connecting j)) .start trivial took, ?_⟩
    · simp only [(applyOutputs_grown _ _ _).hub]
      cases event with
      | Connected sessionPresent => exact .inl rfl
      | ConnectedErr msg => exact .inr ⟨hat.draw, hat.state, rfl⟩
      | ConnectFail reason =>
        right
        simp only [Hub.runToConnectEvent, Hub.connectAgain, hI.auto, if_true]
        exact ⟨hat.draw, hat.state, rfl⟩
      | BrokerDisconnect packet =>
        right
        simp only [Hub.runToConnectEvent, Hub.connectAgain, hI.auto, if_true]
        exact ⟨hat.draw, hat.state, rfl⟩
  rcases hI.expecting hat.position with ⟨n, network, hget, hstate⟩ | ⟨e, he, hreceiver⟩
  · have connected := step_connected hget hstate
    have rest := taken (ready_of_moved (moved_of_step connected) hI) hat
      (List.mem_append_right _ List.mem_cons_self) rfl
    exact rest.after (a := .network n (.connected true)) trivial connected
  · exact taken hI hat he hreceiver

theorem canReach_of_disconnect {reason : ToDisconnectReason} (hI : Ready w)
    (hat : At w.hub (.ToDisconnect reason) .loop) (hwill : reason ≠ .ClientCommand) :
    CanReach World.step Alone (fun v => At v.hub .ToConnect .loop) w := by
  have hstep : w.hub.step w.keepAliveId .disconnect =
      some ⟨{ w.hub with state := .ToConnect }, [.disconnect], .ok ()⟩ := by
    have hauto := hI.auto
    cases reason <;> simp_all [Hub.step, hat.draw, hat.state, hat.position, Hub.runToDisconnect]
  have there : CanReach World.step Alone (fun v => At v.hub .ToConnect .loop)
      (World.applyOutputs 0 { w with hub := { w.hub with state := .ToConnect } } [.disconnect]) :=
    .now ⟨hat.draw, rfl, hat.position⟩
  exact there.after (a := .hub .disconnect) trivial (runHub_of_outcome hstep 0)

/-- From `ToConnect`, wherever the hub stands there. -/
theorem canReach_of_toConnect (hI : Ready w) (hquiet : w.commands = [])
    (hstate : w.hub.state = .ToConnect) : CanReach World.step Alone Looping w := by
  have up {v : World} (hv : Ready v) (hup : v.hub.state = .Connected) :
      CanReach World.step Alone Looping v := canReach_of_connected hv.standing hup
  have attempt {v : World} (hv : Ready v) (hquiet : v.commands = [])
      (hat : At v.hub .ToConnect .loop) : CanReach World.step Alone Looping v :=
    (canReach_of_attempt hv.known hquiet hat).bind
      (fun _ hreach attempted => up (ready_of_reach hv hreach) attempted.state)
  have hstanding := hI.standing
  unfold Standing at hstanding
  rw [hstate] at hstanding
  obtain ⟨hdraw, hloop | hconnecting⟩ := hstanding
  · exact attempt hI hquiet ⟨hdraw, hstate, hloop⟩
  · refine (canReach_of_connecting hI ⟨hdraw, hstate, hconnecting⟩).bind ?_
    rintro v hreach (hup | hat)
    · exact up (ready_of_reach hI hreach) hup
    · exact attempt (ready_of_reach hI hreach) (quiet_of_reach hquiet hreach) hat

theorem canReach_loop (hI : Ready w) (hquiet : w.commands = [])
    (hwill : leaving w.hub.state = false) : CanReach World.step Alone Looping w := by
  cases hstate : w.hub.state with
  | ToConnect => exact canReach_of_toConnect hI hquiet hstate
  | Connected => exact canReach_of_connected hI.standing hstate
  | Disconnected =>
    rw [hstate] at hwill
    cases hwill
  | ToDisconnect reason =>
    have hstanding := hI.standing
    unfold Standing at hstanding
    rw [hstate] at hstanding
    have hreason : reason ≠ .ClientCommand := by
      rintro rfl
      rw [hstate] at hwill
      cases hwill
    refine (canReach_of_disconnect hI ⟨hstanding.1, hstate, hstanding.2⟩ hreason).bind ?_
    intro v hreach hat
    exact canReach_of_toConnect (ready_of_reach hI hreach) (quiet_of_reach hquiet hreach) hat.state

end Way

end Reconnects
