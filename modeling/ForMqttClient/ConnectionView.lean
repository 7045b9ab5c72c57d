import ForMqttClient.Tally
import ForMqttClient.UserWill

/-!
# The connection as the user sees it

The user learns of the connection from three events. What they say fits the
state of the hub: it is `Connected` only when the last of them was a
`ConnectSuccess`, and on its way to a new attempt the last of them was not. So
the events alternate, and no attempt is reported twice.
-/

namespace ConnectionView

open MqttData TaskHub HubSteps Tasks System SystemSteps GuardedRuns UserWill Tally

/-! ## Up and down -/

/-- What an event tells the user of the connection. -/
def told : Event → Option Bool
  | .user (.ConnectSuccess _) => some true
  | .user (.ConnectFail _) | .user (.ConnectedErr _) => some false
  | _ => none

/-- What the user was told last. -/
def view (log : List Event) : Option Bool := log.findSome? told

/-- What the user knows fits the state of the hub. -/
def Fits (log : List Event) : HubState → Prop
  | .ToConnect => view log ≠ some true
  | .Connected => view log = some true
  | .ToDisconnect reason => view log = some true ↔ reason = .ClientCommand
  | .Disconnected => True

/-- The outcome of an attempt comes while the user holds the client for
disconnected. Four of the events are never sent. -/
def Legal : Event → List Event → Prop
  | .user (.ConnectSuccess _), older | .user (.ConnectFail _), older => view older ≠ some true
  | .user (.PublishFail _), _ | .user (.SubscribeFail _), _ => False
  | .user (.UnsubscribeFail _), _ | .user .Disconnected, _ => False
  | _, _ => True

structure Knows (w : World) : Prop where
  fits : Fits w.log w.hub.state
  legal : Throughout Legal w.log

section Views

variable {w w' : World} {action : Action}

theorem view_append {events : List Event} (silent : ∀ event ∈ events, told event = none)
    (log : List Event) : view (events ++ log) = view log := by
  rw [view, List.findSome?_append, List.findSome?_eq_none_iff.mpr silent, Option.none_or, ← view]

theorem silent_of_outside {event : Event} (h : Outside event) :
    told event = none ∧ ∀ older, Legal event older := by
  cases h with
  | @user msg ack => cases msg <;> exact ⟨rfl, fun _ => trivial⟩
  | _ => exact ⟨rfl, fun _ => trivial⟩

theorem fits_append {events log : List Event} (silent : ∀ event ∈ events, told event = none)
    {state : HubState} (hfits : Fits log state) : Fits (events ++ log) state := by
  cases state <;> simp only [Fits, view_append silent] at hfits ⊢ <;> exact hfits

theorem knows_of_outside (h : Moved w action w') (hhub : ∀ a, action ≠ .hub a) (hI : Knows w) :
    Knows w' := by
  obtain ⟨events, hlog, hevents⟩ := log_outside h hhub
  refine ⟨?_, ?_⟩
  · rw [hlog, (hub_of_moved h hhub).1]
    exact fits_append (fun event hmem => (silent_of_outside (hevents event hmem)).1) hI.fits
  · rw [hlog]
    exact hI.legal.append fun event hmem => (silent_of_outside (hevents event hmem)).2

/-- Taking an input tells the user nothing. -/
theorem knows_of_takes {a : HubAction} {input : HubInput} {message : Nat} {taken : World}
    (htakes : Takes w a input message taken) (hI : Knows w) : Knows taken := by
  have recorded (event : Event) (hsilent : told event = none) (hlegal : Legal event w.log) :
      Fits (event :: w.log) w.hub.state ∧ Throughout Legal (event :: w.log) := by
    have silent : ∀ event' ∈ [event], told event' = none := by
      intro event' hmem
      rw [List.mem_singleton.mp hmem]
      exact hsilent
    exact ⟨fits_append silent hI.fits, hlegal, hI.legal⟩
  cases htakes with
  | @clientData j sender data _ rest htake =>
    obtain ⟨hfits, hlegal⟩ := recorded (.requested data) rfl trivial
    exact ⟨hfits, hlegal⟩
  | @hubMsg j sender msg _ rest htake =>
    obtain ⟨hfits, hlegal⟩ := recorded (.hubTook sender msg) rfl trivial
    exact ⟨hfits, hlegal⟩
  | _ => exact ⟨hI.fits, hI.legal⟩

theorem hub_of_takes {a : HubAction} {input : HubInput} {message : Nat} {taken : World}
    (htakes : Takes w a input message taken) : taken.hub = w.hub := by
  cases htakes <;> rfl

/-- Only a loss of the connection leads to a new attempt. -/
theorem fits_disconnect {hub : Hub} {log : List Event} {reason : ToDisconnectReason}
    (hfits : Fits log (.ToDisconnect reason)) :
    Fits log (hub.runToDisconnect reason).hub.state := by
  cases reason with
  | ClientCommand => trivial
  | PingFail =>
    have down : view log ≠ some true := fun hup => by cases hfits.mp hup
    cases hauto : hub.options.autoReconnect <;> simp [Hub.runToDisconnect, hauto, Fits, down]
  | NetworkErr msg =>
    have down : view log ≠ some true := fun hup => by cases hfits.mp hup
    cases hauto : hub.options.autoReconnect <;> simp [Hub.runToDisconnect, hauto, Fits, down]

theorem knows_of_hub {a : HubAction} (h : w.stepHub a = some w') (hI : Knows w) : Knows w' := by
  cases hubMoved_of_step h with
  | @intro input message taken hub outputs htakes hmove =>
    obtain ⟨hfits, hlegal⟩ := knows_of_takes htakes hI
    rw [hub_of_takes htakes] at hfits
    have stays (state : HubState) (hstate : w.hub.state = state) : Fits taken.log state := by
      rwa [← hstate]
    cases hmove with
    | connected hat => exact ⟨rfl, stays _ hat.state, hlegal⟩
    | turnFail hat hauto =>
      refine ⟨?_, stays _ hat.state, hlegal⟩
      change Fits _ w.hub.state
      rw [hat.state]
      exact nofun
    | turnDisconnect hat hauto =>
      refine ⟨?_, trivial, hlegal⟩
      change Fits _ w.hub.state
      rw [hat.state]
      exact nofun
    | giveUpFail hat hauto => exact ⟨trivial, stays _ hat.state, hlegal⟩
    | giveUpDisconnect hat hauto => exact ⟨trivial, trivial, hlegal⟩
    | commandsStop hat => exact ⟨trivial, hlegal⟩
    | commandViolence hat => exact ⟨trivial, hlegal⟩
    | commandDrop hat => exact ⟨iff_of_true (stays _ hat.state) rfl, hlegal⟩
    | connectedErr hat => exact ⟨iff_of_false nofun nofun, trivial, hlegal⟩
    | pingFail hat => exact ⟨iff_of_false nofun nofun, trivial, hlegal⟩
    | brokerDisconnect hat =>
      refine ⟨?_, trivial, hlegal⟩
      change Fits _ (if w.hub.options.autoReconnect then HubState.ToConnect else .Disconnected)
      cases w.hub.options.autoReconnect with
      | true => exact nofun
      | false => trivial
    | @disconnect reason next hat hnext =>
      cases htakes
      obtain ⟨reason', hstate, hhub⟩ := disconnect_spec h
      cases hat.state.symm.trans hstate
      refine ⟨?_, hlegal⟩
      change Fits w.log next
      have hnext' : next = (w.hub.runToDisconnect reason).hub.state := congrArg Hub.state hhub
      rw [hnext']
      exact fits_disconnect (stays _ hstate)
    | load hdraw => exact ⟨hfits, hlegal⟩
    | startNetwork hat => exact ⟨hfits, hlegal⟩
    | turnErr hat => exact ⟨hfits, hlegal⟩
    | resendEnd hat hnone => exact ⟨hfits, hlegal⟩
    | accept hat hid hpop hfresh => exact ⟨hfits, trivial, trivial, hlegal⟩
    | rxAccept hat hfree hspec => exact ⟨hfits, trivial, trivial, hlegal⟩
    | _ => first | exact ⟨hfits, hlegal⟩ | exact ⟨hfits, trivial, hlegal⟩

end Views

/-! ## Outcomes of attempts -/

def tellsOutcome : Event → Bool
  | .user (.ConnectSuccess _) | .user (.ConnectFail _) => true
  | _ => false

/-- The outcomes that the user was told. -/
def outcomes (log : List Event) : Nat := log.countP tellsOutcome

/-- The outcomes that wait for the hub. -/
def queuedOutcomes (bus : List Envelope) : Nat := bus.countP (fun e => outcomeEvent e.event)

/-- The handshake is still to come. -/
def connecting (network : Network) : Nat := if network.state = .ToConnect then 1 else 0

/-- Each `TaskNetwork` has one outcome: ahead of it, on its way, told or dropped. -/
def OneOutcome (w : World) : Prop :=
  outcomes w.log + queuedOutcomes w.bus + tally connecting w.networks ≤ w.networks.length

section Outcomes

variable {w w' : World} {action : Action}

theorem queuedOutcomes_append (bus : List Envelope) {new : List Envelope}
    (hnew : ∀ e ∈ new, outcomeEvent e.event = false) :
    queuedOutcomes (bus ++ new) = queuedOutcomes bus := by
  have none : new.countP (fun e => outcomeEvent e.event) = 0 :=
    List.countP_eq_zero.mpr fun e he => by simp [hnew e he]
  rw [queuedOutcomes, List.countP_append, none, Nat.add_zero, ← queuedOutcomes]

theorem queuedOutcomes_take {j : Nat} {envelope : Envelope} {rest : List Envelope}
    (htake : PairFifo.take Envelope.channel w.bus j = some (envelope, rest)) :
    queuedOutcomes w.bus =
      queuedOutcomes rest + if outcomeEvent envelope.event = true then 1 else 0 := by
  rw [queuedOutcomes, (PairFifo.perm_of_take htake).countP_eq, List.countP_cons, ← queuedOutcomes]

theorem outcomes_append {events : List Event} (silent : ∀ event ∈ events, tellsOutcome event = false)
    (log : List Event) : outcomes (events ++ log) = outcomes log := by
  have none : events.countP tellsOutcome = 0 :=
    List.countP_eq_zero.mpr fun event h => by simp [silent event h]
  rw [outcomes, List.countP_append, none, Nat.zero_add, ← outcomes]

/-- The end of a handshake, the only step that reports an outcome. -/
inductive Outcomes : Action → Prop where
  | connected {n : Nat} {sessionPresent : Bool} : Outcomes (.network n (.connected sessionPresent))
  | connectFail {n : Nat} {reason : ToConnectError} : Outcomes (.network n (.connectFail reason))

theorem quiet_of_emission {e : Envelope} (h : Emission w action e) (hquiet : ¬ Outcomes action) :
    outcomeEvent e.event = false := by
  cases h with
  | networkEvent hget hreports =>
    cases hreports with
    | connected hstate => exact absurd .connected hquiet
    | connectFail hstate => exact absurd .connectFail hquiet
    | _ => rfl
  | _ => rfl

theorem queuedOutcomes_le (h : Moved w action w') (hquiet : ¬ Outcomes action) :
    queuedOutcomes w'.bus ≤ queuedOutcomes w.bus := by
  cases busMoved h with
  | keep new hbus hnew =>
    have same := queuedOutcomes_append w.bus fun e he => quiet_of_emission (hnew e he) hquiet
    exact Nat.le_of_eq (by rw [hbus, same])
  | @take j envelope rest new htaking htake hbus hnew =>
    rw [hbus, queuedOutcomes_append rest fun e he => quiet_of_emission (hnew e he) hquiet,
      queuedOutcomes_take htake]
    exact Nat.le_add_right _ _

/-- No `TaskNetwork` goes back to its handshake. -/
theorem connecting_le (h : Moved w action w') (hhub : ∀ a, action ≠ .hub a) :
    tally connecting w'.networks ≤ tally connecting w.networks := by
  have settled {n : Nat} {network network' : Network} (hget : w.networks[n]? = some network)
      (hle : connecting network' ≤ connecting network) :
      tally connecting (w.networks.set n network') ≤ tally connecting w.networks :=
    tally_set_le hget hle
  cases h with
  | hub h => exact absurd rfl (hhub _)
  | task hget h => cases h <;> exact Nat.le_refl _
  | ping hget h => cases h <;> exact Nat.le_refl _
  | network hget h =>
    cases h with
    | @read packet message rest hstate hfrom =>
      cases packet <;> exact settled hget (Nat.le_refl _)
    | writeDisconnect hstate => exact settled hget (Nat.zero_le _)
    | write hstate htake => exact settled hget (Nat.le_refl _)
    | _ => exact settled hget (Nat.zero_le _)
  | brokerRecv hget hto => exact settled hget (Nat.le_refl _)
  | brokerSend hget => exact settled hget (Nat.le_refl _)
  | _ => exact Nat.le_refl _

theorem outcomes_of_outside (h : Moved w action w') (hhub : ∀ a, action ≠ .hub a) :
    outcomes w'.log = outcomes w.log := by
  obtain ⟨events, hlog, hevents⟩ := log_outside h hhub
  rw [hlog]
  refine outcomes_append (fun event hmem => ?_) w.log
  cases hevents event hmem with
  | @user msg ack => cases msg <;> rfl
  | _ => rfl

theorem queuedOutcomes_snoc (bus : List Envelope) {e : Envelope}
    (houtcome : outcomeEvent e.event = true) :
    queuedOutcomes (bus ++ [e]) = queuedOutcomes bus + 1 := by
  rw [queuedOutcomes, List.countP_append, List.countP_singleton, if_pos houtcome, ← queuedOutcomes]

/-- The end of a handshake turns it into a report on its way. -/
theorem oneOutcome_of_outcome {n : Nat} {network : Network} {a : NetworkAction}
    (hget : w.networks[n]? = some network) (h : NetworkMoved w n network a w')
    (houtcome : Outcomes (.network n a)) :
    queuedOutcomes w'.bus + tally connecting w'.networks =
      queuedOutcomes w.bus + tally connecting w.networks := by
  have ended (network' : Network) (hstate : network.state = .ToConnect)
      (hstate' : network'.state ≠ .ToConnect) :
      tally connecting (w.networks.set n network') + 1 = tally connecting w.networks := by
    have trade := tally_set (f := connecting) (b := network') hget
    rwa [connecting, if_pos hstate, connecting, if_neg hstate', Nat.add_zero] at trade
  cases houtcome with
  | @connected n sessionPresent =>
    cases h with
    | connected hstate =>
      have queued := queuedOutcomes_snoc w.bus
        (e := ⟨.network n, .hubNetwork, .networkEvent (.Connected sessionPresent), 0⟩) rfl
      have settled := ended { network with state := .Connected } hstate nofun
      calc _ = queuedOutcomes w.bus + 1 +
              tally connecting (w.networks.set n { network with state := .Connected }) := by
            rw [← queued]; rfl
        _ = _ := by omega
  | @connectFail n reason =>
    cases h with
    | connectFail hstate =>
      have queued := queuedOutcomes_snoc w.bus
        (e := ⟨.network n, .hubNetwork, .networkEvent (.ConnectFail reason), 0⟩) rfl
      have settled := ended { network with state := .Disconnected } hstate nofun
      calc _ = queuedOutcomes w.bus + 1 +
              tally connecting (w.networks.set n { network with state := .Disconnected }) := by
            rw [← queued]; rfl
        _ = _ := by omega

theorem queuedOutcomes_of_takes {a : HubAction} {input : HubInput} {message : Nat} {taken : World}
    (htakes : Takes w a input message taken) :
    queuedOutcomes taken.bus ≤ queuedOutcomes w.bus := by
  cases htakes with
  | connecting htake => exact Nat.le.intro (queuedOutcomes_take htake).symm
  | command htake => exact Nat.le.intro (queuedOutcomes_take htake).symm
  | network htake => exact Nat.le.intro (queuedOutcomes_take htake).symm
  | clientData htake => exact Nat.le.intro (queuedOutcomes_take htake).symm
  | hubMsg htake => exact Nat.le.intro (queuedOutcomes_take htake).symm
  | _ => exact Nat.le_refl _

theorem outcome_of_takes {a : HubAction} {event : NetworkEvent} {message : Nat} {taken : World}
    (htakes : Takes w a (.connecting event) message taken) (outcome : MqttEvent)
    (houtcome : outcomeEvent (.networkEvent event) = true)
    (htells : tellsOutcome (.user outcome) = true) :
    outcomes (.user outcome :: taken.log) + queuedOutcomes taken.bus =
      outcomes w.log + queuedOutcomes w.bus := by
  cases htakes with
  | @connecting j sender event message rest htake =>
    have queued := queuedOutcomes_take htake
    rw [if_pos houtcome] at queued
    have one : outcomes (.user outcome :: w.log) = outcomes w.log + 1 :=
      List.countP_cons_of_pos htells
    change outcomes (.user outcome :: w.log) + queuedOutcomes rest = _
    omega

/-- The hub tells the outcome that it takes, or drops it. -/
theorem oneOutcome_of_hub {a : HubAction} (h : HubMoved w a w') :
    outcomes w'.log + queuedOutcomes w'.bus ≤ outcomes w.log + queuedOutcomes w.bus := by
  cases h with
  | @intro input message taken hub outputs htakes hmove =>
    obtain ⟨new, hbus, hnew⟩ := applyOutputs_bus a w { taken with hub := hub } message outputs
    have bus : queuedOutcomes (World.applyOutputs message { taken with hub := hub } outputs).bus =
        queuedOutcomes taken.bus := by
      rw [hbus]
      exact queuedOutcomes_append taken.bus fun e he => quiet_of_emission (hnew e he) nofun
    rw [bus]
    have silent (hnone : ∀ event, .dispatch event ∈ outputs → tellsOutcome (.user event) = false) :
        outcomes (World.applyOutputs message { taken with hub := hub } outputs).log +
          queuedOutcomes taken.bus ≤ outcomes w.log + queuedOutcomes w.bus := by
      obtain ⟨events, hlog, hevents⟩ := log_of_takes htakes hub outputs
      rw [hlog, outcomes_append fun event hmem => ?_]
      · exact Nat.add_le_add_left (queuedOutcomes_of_takes htakes) _
      · cases hevents event hmem with
        | user houtput => exact hnone _ houtput
        | _ => rfl
    cases hmove with
    | @connected sessionPresent hat =>
      exact Nat.le_of_eq (outcome_of_takes htakes (.ConnectSuccess sessionPresent) rfl rfl)
    | @turnFail reason hat hauto =>
      exact Nat.le_of_eq (outcome_of_takes htakes (.ConnectFail reason) rfl rfl)
    | @giveUpFail reason hat hauto =>
      exact Nat.le_of_eq (outcome_of_takes htakes (.ConnectFail reason) rfl rfl)
    | _ => exact silent (by simp [tellsOutcome])

theorem oneOutcome_of_moved (h : Moved w action w') (hI : OneOutcome w) : OneOutcome w' := by
  unfold OneOutcome at hI ⊢
  rcases hub_or_not h with ⟨a, rfl, hmoved⟩ | notHub
  · have told := oneOutcome_of_hub hmoved
    rcases networks_of_hub hmoved with hsame | ⟨hadded, _⟩
    · rw [hsame]
      omega
    · rw [hadded, tally_append, tally_singleton, List.length_append]
      change _ + (_ + 1) ≤ _ + 1
      omega
  · rw [outcomes_of_outside h notHub, networks_length_of_moved h notHub]
    by_cases houtcome : Outcomes action
    · cases h with
      | network hget hmoved =>
        have moved := oneOutcome_of_outcome hget hmoved houtcome
        omega
      | _ => cases houtcome
    · have bus := queuedOutcomes_le h houtcome
      have networks := connecting_le h notHub
      omega

end Outcomes

theorem knows_of_moved {w w' : World} {action : Action} (hstep : w.step action = some w')
    (hI : Knows w) : Knows w' := by
  rcases hub_or_not (moved_of_step hstep) with ⟨a, rfl, _⟩ | notHub
  · exact knows_of_hub hstep hI
  · exact knows_of_outside (moved_of_step hstep) notHub hI

theorem knows_init (options : MqttOptions) (protocol : Protocol) :
    Knows (.init options protocol) := by
  refine ⟨?_, trivial⟩
  intro hup
  cases hup

theorem reachable_knows {options : MqttOptions} {protocol : Protocol} {w : World}
    (h : Reachable World.step free (.init options protocol) w) : Knows w ∧ OneOutcome w := by
  refine h.invariant (I := fun w => Knows w ∧ OneOutcome w)
    ⟨knows_init options protocol, Nat.le_refl 0⟩ ?_
  intro w action w' _ ih _ hstep
  exact ⟨knows_of_moved hstep ih.1, oneOutcome_of_moved (moved_of_step hstep) ih.2⟩

/-- In every run: (a) what the user was told last fits the state of the hub; (b)
the outcome of an attempt is told only while the user holds the client for
disconnected, so a second `ConnectSuccess` comes only after the loss of the first
connection was told; (c) the events of failed requests and of the end are never
sent; (d) no attempt is reported twice. -/
theorem user_knows_connection {options : MqttOptions} {protocol : Protocol} {w : World}
    (h : Reachable World.step free (.init options protocol) w) :
    Fits w.log w.hub.state ∧
    (∀ newer event older, w.log = newer ++ .user event :: older →
      (tellsOutcome (.user event) = true → view older ≠ some true) ∧
      (∀ reason, event ≠ .PublishFail reason ∧ event ≠ .SubscribeFail reason ∧
        event ≠ .UnsubscribeFail reason) ∧ event ≠ .Disconnected) ∧
    outcomes w.log ≤ w.networks.length := by
  obtain ⟨hknows, houtcome⟩ := reachable_knows h
  refine ⟨hknows.fits, ?_, ?_⟩
  · intro newer event older hlog
    have hlegal : Legal (.user event) older := (hlog ▸ hknows.legal).split
    refine ⟨?_, ?_, ?_⟩
    · intro htells
      cases event with
      | ConnectSuccess sessionPresent => exact hlegal
      | ConnectFail reason => exact hlegal
      | _ => cases htells
    · intro reason
      refine ⟨?_, ?_, ?_⟩ <;> rintro rfl <;> exact hlegal
    · rintro rfl
      exact hlegal
  · unfold OneOutcome at houtcome
    omega

/-- The law where a read fails on the first connection and the second has come up. -/
theorem user_knows_reconnection :
    ∃ w, guardedRun World.step free (.init ⟨60, true⟩ .V5)
        [.hub (.connect 0), .network 0 (.connected false), .hub (.connecting 0), .hub .load,
          .hub .resend, .network 0 (.readErr "read 0 byte from network"), .hub (.network 1),
          .hub .disconnect, .hub (.connect 0), .network 1 (.connected true)] = some w ∧
      Fits w.log w.hub.state ∧ outcomes w.log ≤ w.networks.length :=
  end_of_guardedRun _ (by decide +kernel)
    (fun _ h => ⟨(user_knows_connection h).1, (user_knows_connection h).2.2⟩)

end ConnectionView
