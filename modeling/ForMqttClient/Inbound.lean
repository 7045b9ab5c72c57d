import ForMqttClient.TaskRuns

/-!
# From the broker to the user

A PUBLISH passes the stream of its connection, the queue of the hub and, above
QoS 0, the session state before the user sees it. For each connection what the
hub has taken, what waits for it and what is unread are together exactly what
the broker has sent, in that order, whatever ends or reconnects meanwhile.
-/

namespace Inbound

open MqttData TaskHub HubSteps Tasks System SystemSteps TaskRuns GuardedRuns PairFifo

/-! ## One connection -/

/-- The PUBLISH that the broker sent on connection `n` by an event. -/
def sentBy (n : Nat) : Event → Option Publish
  | .brokerSent m (.Publish publish) _ => if m = n then some publish else none
  | _ => none

/-- The PUBLISH of connection `n` that the hub took by an event. -/
def tookBy (n : Nat) : Event → Option Publish
  | .hubTook (.network m) (.RxPublish publish) => if m = n then some publish else none
  | _ => none

/-- What the broker sent on connection `n`, oldest first. -/
def sentOn (n : Nat) (log : List Event) : List Publish := log.reverse.filterMap (sentBy n)

/-- What the hub took of connection `n`, oldest first. -/
def tookFrom (n : Nat) (log : List Event) : List Publish := log.reverse.filterMap (tookBy n)

def received : Envelope → Option Publish
  | ⟨_, _, .hubMsg (.RxPublish publish), _⟩ => some publish
  | _ => none

/-- What of connection `n` waits for the hub, oldest first. -/
def waiting (n : Nat) (bus : List Envelope) : List Publish :=
  (PairFifo.channel Envelope.channel (.network n, .hub) bus).filterMap received

def carried : Packet × Nat → Option Publish
  | (.Publish publish, _) => some publish
  | _ => none

/-- What the network task of connection `n` has not read yet. -/
def unread (n : Nat) (networks : List Network) : List Publish :=
  networks[n]?.elim [] (fun network => network.fromBroker.filterMap carried)

/-- Nothing is lost, doubled or overtaken between the broker and the hub. -/
def InOrder (n : Nat) (w : World) : Prop :=
  tookFrom n w.log ++ waiting n w.bus ++ unread n w.networks = sentOn n w.log

section Connection

variable {w w' : World} {action : Action} {n : Nat}

theorem sentOn_append (events log : List Event) :
    sentOn n (events ++ log) = sentOn n log ++ events.reverse.filterMap (sentBy n) := by
  rw [sentOn, List.reverse_append, List.filterMap_append, ← sentOn]

theorem tookFrom_append (events log : List Event) :
    tookFrom n (events ++ log) = tookFrom n log ++ events.reverse.filterMap (tookBy n) := by
  rw [tookFrom, List.reverse_append, List.filterMap_append, ← tookFrom]

/-- Events that have nothing to do with connection `n`. -/
def Silent (n : Nat) (events : List Event) : Prop :=
  ∀ event ∈ events, sentBy n event = none ∧ tookBy n event = none

theorem sentOn_silent {events : List Event} (silent : Silent n events) (log : List Event) :
    sentOn n (events ++ log) = sentOn n log := by
  have none : events.reverse.filterMap (sentBy n) = [] :=
    List.filterMap_eq_nil_iff.mpr fun event h => (silent event (List.mem_reverse.mp h)).1
  rw [sentOn_append, none, List.append_nil]

theorem tookFrom_silent {events : List Event} (silent : Silent n events) (log : List Event) :
    tookFrom n (events ++ log) = tookFrom n log := by
  have none : events.reverse.filterMap (tookBy n) = [] :=
    List.filterMap_eq_nil_iff.mpr fun event h => (silent event (List.mem_reverse.mp h)).2
  rw [tookFrom_append, none, List.append_nil]

theorem waiting_append_of_ne (bus : List Envelope) {new : List Envelope}
    (hnew : ∀ e ∈ new, e.channel ≠ (.network n, .hub)) :
    waiting n (bus ++ new) = waiting n bus := by
  rw [waiting, PairFifo.channel_append_of_ne bus hnew, ← waiting]

theorem waiting_dispatch (bus : List Envelope) (publish : Publish) (message : Nat) :
    waiting n (bus ++ [⟨.network n, .hub, .hubMsg (.RxPublish publish), message⟩]) =
      waiting n bus ++ [publish] := by
  simp [waiting, PairFifo.channel, Envelope.channel, received]

theorem waiting_take_of_ne {j : Nat} {envelope : Envelope} {rest : List Envelope}
    (htake : PairFifo.take Envelope.channel w.bus j = some (envelope, rest))
    (hne : envelope.channel ≠ (.network n, .hub)) : waiting n rest = waiting n w.bus := by
  rw [waiting, waiting, PairFifo.channel_take_of_ne htake hne]

theorem waiting_take {j message : Nat} {event : BusEvent} {rest : List Envelope}
    (htake : PairFifo.take Envelope.channel w.bus j =
      some (⟨.network n, .hub, event, message⟩, rest)) :
    waiting n w.bus =
      (received ⟨.network n, .hub, event, message⟩).toList ++ waiting n rest := by
  have head : PairFifo.channel Envelope.channel (.network n, .hub) w.bus =
      ⟨.network n, .hub, event, message⟩ ::
        PairFifo.channel Envelope.channel (.network n, .hub) rest :=
    PairFifo.channel_take htake
  rw [waiting, head, waiting, List.filterMap_cons]
  cases received ⟨.network n, .hub, event, message⟩ <;> rfl

/-- Only the network task itself puts a PUBLISH of connection `n` into the queue
of the hub. -/
theorem channel_of_emission {e : Envelope} (h : Emission w action e)
    (haction : action ≠ .network n .read) : e.channel ≠ (.network n, .hub) := by
  intro heq
  have hreceiver : e.receiver = .hub := congrArg Prod.snd heq
  cases h with
  | rxPublish hget hfrom =>
    cases heq
    exact haction rfl
  | mqtt => cases hreceiver
  | data => cases hreceiver
  | _ => cases heq

theorem waiting_of_other (h : Moved w action w') (hhub : ∀ a, action ≠ .hub a)
    (hread : action ≠ .network n .read) : waiting n w'.bus = waiting n w.bus := by
  rw [waiting, waiting, channel_of_moved h (fun e he => channel_of_emission he hread) ?_]
  intro j htaking
  cases htaking
  exact hhub _ rfl

/-- What the outputs of the hub record has nothing to do with a connection. -/
theorem silent_outputs (w : World) (message : Nat) (outputs : List Output) :
    ∃ events, (World.applyOutputs message w outputs).log = events ++ w.log ∧ Silent n events := by
  induction outputs generalizing w with
  | nil => exact ⟨[], rfl, fun _ h => absurd h List.not_mem_nil⟩
  | cons output rest ih =>
    obtain ⟨events, hlog, hsilent⟩ := ih (World.applyOutput message w output)
    have head : ∃ first, (World.applyOutput message w output).log = first ++ w.log ∧
        Silent n first := by
      have one (event : Event) (hevent : sentBy n event = none ∧ tookBy n event = none) :
          Silent n [event] := fun _ h => List.mem_singleton.mp h ▸ hevent
      cases output with
      | dispatch event => exact ⟨[_], rfl, one _ ⟨rfl, rfl⟩⟩
      | start spec => exact ⟨[_], rfl, one _ ⟨rfl, rfl⟩⟩
      | startPing => exact ⟨[_], rfl, one _ ⟨rfl, rfl⟩⟩
      | accepted entry => exact ⟨[_], rfl, one _ ⟨rfl, rfl⟩⟩
      | rxAccepted publish => exact ⟨[_], rfl, one _ ⟨rfl, rfl⟩⟩
      | rxDup publish => exact ⟨[_], rfl, one _ ⟨rfl, rfl⟩⟩
      | _ => exact ⟨[], rfl, fun _ h => absurd h List.not_mem_nil⟩
    obtain ⟨first, hfirst, hall⟩ := head
    refine ⟨events ++ first, ?_, ?_⟩
    · rw [List.append_assoc, ← hfirst]
      exact hlog
    · intro event hevent
      rcases List.mem_append.mp hevent with h | h
      · exact hsilent event h
      · exact hall event h

theorem unread_append (networks : List Network) :
    unread n (networks ++ [.init]) = unread n networks := by
  rw [unread, unread]
  by_cases hn : n < networks.length
  · rw [List.getElem?_append_left hn]
  · rw [List.getElem?_append_right (by omega), List.getElem?_eq_none (Nat.le_of_not_lt hn)]
    cases n - networks.length with
    | zero => rfl
    | succ k => rfl

theorem unread_set {k : Nat} {networks : List Network} {network network' : Network}
    (hget : networks[k]? = some network) (hsame : network'.fromBroker = network.fromBroker) :
    unread n (networks.set k network') = unread n networks := by
  rw [unread, unread]
  by_cases hkn : k = n
  · subst hkn
    rw [List.getElem?_set_self (List.getElem?_eq_some_iff.mp hget).1, hget, Option.elim_some,
      Option.elim_some, hsame]
  · rw [List.getElem?_set_ne hkn]

theorem unread_of_hub {a : HubAction} (h : HubMoved w a w') :
    unread n w'.networks = unread n w.networks := by
  rcases networks_of_hub h with hsame | ⟨hadded, _⟩
  · rw [hsame]
  · rw [hadded, unread_append]

/-- What the hub takes of connection `n` moves from its queue into the history. -/
theorem took_of_hub {a : HubAction} (h : HubMoved w a w') :
    tookFrom n w'.log ++ waiting n w'.bus = tookFrom n w.log ++ waiting n w.bus ∧
      sentOn n w'.log = sentOn n w.log := by
  cases h with
  | @intro input message taken hub outputs htakes hmove =>
    obtain ⟨events, hlog, hsilent⟩ :=
      silent_outputs (n := n) { taken with hub := hub } message outputs
    have hbus : waiting n (World.applyOutputs message { taken with hub := hub } outputs).bus =
        waiting n taken.bus := by
      rw [waiting, channel_applyOutputs rfl, ← waiting]
    rw [hbus, hlog, tookFrom_silent hsilent, sentOn_silent hsilent]
    change tookFrom n taken.log ++ _ = _ ∧ sentOn n taken.log = _
    have other {j message : Nat} {sender receiver : Worker} {event : BusEvent}
        {rest : List Envelope} (htake : PairFifo.take Envelope.channel w.bus j =
          some (⟨sender, receiver, event, message⟩, rest)) (hne : receiver ≠ .hub) :
        waiting n rest = waiting n w.bus :=
      waiting_take_of_ne htake (fun heq => hne (congrArg Prod.snd heq))
    cases htakes with
    | connecting htake => exact ⟨congrArg _ (other htake (by simp)), rfl⟩
    | network htake => exact ⟨congrArg _ (other htake (by simp)), rfl⟩
    | command htake => exact ⟨congrArg _ (other htake (by simp)), rfl⟩
    | @clientData j sender data message rest htake =>
      have request : Silent n [.requested data] :=
        fun _ h => List.mem_singleton.mp h ▸ ⟨rfl, rfl⟩
      refine ⟨?_, sentOn_silent request w.log⟩
      have kept : waiting n rest = waiting n w.bus := by
        by_cases hsender : sender = .network n
        · subst hsender
          exact (waiting_take htake).symm
        · exact waiting_take_of_ne htake (fun heq => hsender (congrArg Prod.fst heq))
      change tookFrom n ([.requested data] ++ w.log) ++ waiting n rest = _
      rw [tookFrom_silent request, kept]
    | @hubMsg j sender msg message rest htake =>
      have nothingSent : sentOn n ([.hubTook sender msg] ++ w.log) = sentOn n w.log := by
        rw [sentOn_append]
        exact List.append_nil _
      refine ⟨?_, nothingSent⟩
      change tookFrom n ([.hubTook sender msg] ++ w.log) ++ waiting n rest = _
      rw [tookFrom_append]
      by_cases hsender : sender = .network n
      · subst hsender
        rw [waiting_take htake, List.append_assoc]
        cases msg with
        | RxPublish publish => simp [tookBy, received]
        | _ => simp [tookBy, received]
      · have nothing : [Event.hubTook sender msg].reverse.filterMap (tookBy n) = [] := by
          cases sender with
          | network m =>
            have hmn : m ≠ n := fun heq => hsender (heq ▸ rfl)
            cases msg <;> simp [tookBy, hmn]
          | _ => simp [tookBy]
        have kept : waiting n rest = waiting n w.bus :=
          waiting_take_of_ne htake (fun heq => hsender (congrArg Prod.fst heq))
        rw [nothing, List.append_nil, kept]
    | _ => exact ⟨rfl, rfl⟩

/-- Outside the hub only the broker's own step adds to what was sent. -/
theorem silent_outside (h : Moved w action w') (hhub : ∀ a, action ≠ .hub a)
    (hbroker : ∀ packet message, action ≠ .broker n (.send packet message)) :
    ∃ events, w'.log = events ++ w.log ∧ Silent n events := by
  have none : ∃ events, w.log = events ++ w.log ∧ Silent n events :=
    ⟨[], rfl, fun _ h => absurd h List.not_mem_nil⟩
  have one (event : Event) (hevent : sentBy n event = .none ∧ tookBy n event = .none) :
      ∃ events, event :: w.log = events ++ w.log ∧ Silent n events :=
    ⟨[event], rfl, fun _ h => List.mem_singleton.mp h ▸ hevent⟩
  cases h with
  | hub h => exact absurd rfl (hhub _)
  | task hget h =>
    cases h with
    | acked hphase hprog htake hrel => exact one _ ⟨rfl, rfl⟩
    | txToUser hphase hprog => exact one _ ⟨rfl, rfl⟩
    | _ => exact none
  | ping hget h => cases h <;> exact none
  | network hget h =>
    cases h with
    | @read packet => cases packet <;> exact none
    | _ => exact none
  | brokerRecv hget hto => exact one _ ⟨rfl, rfl⟩
  | @brokerSend m network packet message hget =>
    have hmn : m ≠ n := fun heq => hbroker packet message (heq ▸ rfl)
    cases packet with
    | Publish publish => exact one _ ⟨if_neg hmn, rfl⟩
    | _ => exact one _ ⟨rfl, rfl⟩
  | _ => exact none

/-- Nobody but its broker and its own reader changes the stream of a connection. -/
theorem unread_of_outside (h : Moved w action w') (hhub : ∀ a, action ≠ .hub a)
    (hread : action ≠ .network n .read)
    (hbroker : ∀ packet message, action ≠ .broker n (.send packet message)) :
    unread n w'.networks = unread n w.networks := by
  cases h with
  | hub h => exact absurd rfl (hhub _)
  | task hget h => cases h <;> rfl
  | ping hget h => cases h <;> rfl
  | @network m network a w' hget h =>
    cases h with
    | @read packet message rest hstate hfrom =>
      have hmn : m ≠ n := fun heq => hread (heq ▸ rfl)
      have kept : unread n (w.networks.set m { network with fromBroker := rest }) =
          unread n w.networks := by
        rw [unread, unread, List.getElem?_set_ne hmn]
      cases packet <;> exact kept
    | _ => exact unread_set hget rfl
  | brokerRecv hget hto => exact unread_set hget rfl
  | @brokerSend m network packet message hget =>
    have hmn : m ≠ n := fun heq => hbroker packet message (heq ▸ rfl)
    rw [unread, unread]
    exact congrArg (Option.elim · _ _) (List.getElem?_set_ne hmn)
  | _ => rfl

/-- The reader moves the oldest packet of the stream into the queue of the hub. -/
theorem waiting_of_read {network : Network} {packet : Packet} {message : Nat}
    {rest : List (Packet × Nat)} (hget : w.networks[n]? = some network)
    (hfrom : network.fromBroker = (packet, message) :: rest) :
    let after := (w.setNetwork n { network with fromBroker := rest }).dealPacket n packet message
    waiting n after.bus ++ unread n after.networks = waiting n w.bus ++ unread n w.networks ∧
      after.log = w.log := by
  have before : unread n w.networks = (carried (packet, message)).toList ++
      rest.filterMap carried := by
    rw [unread, hget, Option.elim_some, hfrom, List.filterMap_cons]
    cases carried (packet, message) <;> rfl
  have behind : unread n (w.networks.set n { network with fromBroker := rest }) =
      rest.filterMap carried := by
    rw [unread, List.getElem?_set_self (List.getElem?_eq_some_iff.mp hget).1, Option.elim_some]
  have elsewhere (receivers : List Worker) (event : BusEvent) (k : Nat)
      (hreceivers : ∀ receiver ∈ receivers, receiver ≠ .hub) :
      waiting n (w.bus ++ receivers.map (fun receiver => ⟨.network n, receiver, event, k⟩)) =
        waiting n w.bus := by
    apply waiting_append_of_ne
    intro e he heq
    obtain ⟨receiver, hmem, rfl⟩ := List.mem_map.mp he
    exact hreceivers receiver hmem (congrArg Prod.snd heq)
  rw [before]
  cases packet with
  | Publish publish =>
    refine ⟨?_, rfl⟩
    change waiting n (w.bus ++ [⟨.network n, .hub, .hubMsg (.RxPublish publish), message⟩]) ++
      unread n (w.networks.set n { network with fromBroker := rest }) = _
    rw [waiting_dispatch, behind, List.append_assoc]
    rfl
  | ConnAck =>
    refine ⟨?_, rfl⟩
    change waiting n w.bus ++ unread n (w.networks.set n { network with fromBroker := rest }) = _
    rw [behind]
    rfl
  | Ack ack =>
    refine ⟨congrArg₂ (· ++ ·) (elsewhere _ _ _ ?_) behind, rfl⟩
    rintro receiver hmem rfl
    obtain ⟨i, _, heq⟩ := mem_subscribers_ack.mp hmem
    cases heq
  | PingResp =>
    refine ⟨congrArg₂ (· ++ ·) (elsewhere _ _ _ ?_) behind, rfl⟩
    rintro receiver hmem rfl
    obtain ⟨i, _, heq⟩ := mem_subscribers_pingResp.mp hmem
    cases heq
  | Disconnect text =>
    refine ⟨congrArg₂ (· ++ ·) (elsewhere [.hubNetwork] _ _ ?_) behind, rfl⟩
    rintro receiver hmem rfl
    cases List.mem_singleton.mp hmem

/-- All of connection `n` that has come so far, or is on its way. -/
def onWay (n : Nat) (w : World) : List Publish :=
  tookFrom n w.log ++ waiting n w.bus ++ unread n w.networks

/-- A step adds to the connection what the broker sends by it, and nothing else. -/
theorem onWay_of_moved (h : Moved w action w') :
    ∃ new, onWay n w' = onWay n w ++ new ∧ sentOn n w'.log = sentOn n w.log ++ new := by
  have nothing {v : World} (hsame : onWay n v = onWay n w) (hsent : sentOn n v.log = sentOn n w.log) :
      ∃ new, onWay n v = onWay n w ++ new ∧ sentOn n v.log = sentOn n w.log ++ new :=
    ⟨[], hsame.trans (List.append_nil _).symm, hsent.trans (List.append_nil _).symm⟩
  rcases hub_or_not h with ⟨a, rfl, hmoved⟩ | notHub
  · obtain ⟨htook, hsent⟩ := took_of_hub (n := n) hmoved
    refine nothing ?_ hsent
    rw [onWay, htook, unread_of_hub hmoved, onWay]
  · by_cases hread : action = .network n .read
    · subst hread
      cases h with
      | network hget hmoved =>
        cases hmoved with
        | read hstate hfrom =>
          obtain ⟨hbus, hlog⟩ := waiting_of_read hget hfrom
          refine nothing ?_ (by rw [hlog])
          rw [onWay, hlog, List.append_assoc, hbus, ← List.append_assoc, onWay]
    · by_cases hbroker : ∀ packet message, action ≠ .broker n (.send packet message)
      · obtain ⟨events, hlog, hsilent⟩ := silent_outside h notHub hbroker
        refine nothing ?_ (by rw [hlog, sentOn_silent hsilent])
        rw [onWay, hlog, tookFrom_silent hsilent, waiting_of_other h notHub hread,
          unread_of_outside h notHub hread hbroker, onWay]
      · -- the broker adds to what was sent and to the stream
        simp only [ne_eq, not_forall, not_not] at hbroker
        obtain ⟨packet, message, rfl⟩ := hbroker
        cases h with
        | @brokerSend _ network _ _ hget =>
          have behind : unread n (w.networks.set n
              { network with fromBroker := network.fromBroker ++ [(packet, message)] }) =
                unread n w.networks ++ (carried (packet, message)).toList := by
            rw [unread, unread, hget,
              List.getElem?_set_self (List.getElem?_eq_some_iff.mp hget).1, Option.elim_some,
              Option.elim_some, List.filterMap_append]
            cases hcarried : carried (packet, message) <;> simp [hcarried]
          have added : [Event.brokerSent n packet message].reverse.filterMap (sentBy n) =
              (carried (packet, message)).toList := by
            cases packet <;> simp [sentBy, carried]
          have untaken : [Event.brokerSent n packet message].reverse.filterMap (tookBy n) = [] :=
            rfl
          refine ⟨(carried (packet, message)).toList, ?_, ?_⟩
          · change tookFrom n ([.brokerSent n packet message] ++ w.log) ++ waiting n w.bus ++
              unread n (w.networks.set n
                { network with fromBroker := network.fromBroker ++ [(packet, message)] }) = _
            rw [tookFrom_append, behind, untaken, List.append_nil, ← List.append_assoc, onWay]
          · change sentOn n ([.brokerSent n packet message] ++ w.log) = _
            rw [sentOn_append, added]

theorem inOrder_of_moved (h : Moved w action w') (hI : InOrder n w) : InOrder n w' := by
  obtain ⟨new, hway, hsent⟩ := onWay_of_moved (n := n) h
  have before : onWay n w = sentOn n w.log := hI
  change onWay n w' = sentOn n w'.log
  rw [hway, hsent, before]

end Connection

theorem reachable_inOrder {options : MqttOptions} {protocol : Protocol} {w : World}
    (h : Reachable World.step free (.init options protocol) w) (n : Nat) : InOrder n w := by
  refine h.invariant ?_ ?_
  · rfl
  · intro s action s' _ ih _ hstep
    exact inOrder_of_moved (moved_of_step hstep) ih

/-- A connected hub takes one of three messages; another one waits for it, and the last
one is not read yet. -/
def threeMessages : List Action :=
  [.hub (.connect 0), .network 0 (.connected false), .hub (.connecting 0), .hub .load,
    .hub .resend, .broker 0 (.send (.Publish (.new "a" .AtMostOnce [] false .V4)) 1),
    .broker 0 (.send (.Publish (.new "b" .AtMostOnce [] false .V4)) 2),
    .broker 0 (.send (.Publish (.new "c" .AtMostOnce [] false .V4)) 3), .network 0 .read,
    .network 0 .read, .hub (.recv 1)]

/-! ## All connections -/

def sentAt : Event → Option (Nat × Publish)
  | .brokerSent n (.Publish publish) _ => some (n, publish)
  | _ => none

def tookAt : Event → Option (Nat × Publish)
  | .hubTook (.network n) (.RxPublish publish) => some (n, publish)
  | _ => none

def shownBy : Event → Option Publish
  | .user (.Publish publish) => some publish
  | _ => none

/-- What the broker sent on any connection, oldest first. -/
def sentFlow (log : List Event) : List (Nat × Publish) := log.reverse.filterMap sentAt

def tookFlow (log : List Event) : List (Nat × Publish) := log.reverse.filterMap tookAt

/-- The messages that the user was given, oldest first. -/
def shown (log : List Event) : List Publish := log.reverse.filterMap shownBy

theorem part_sentFlow (n : Nat) (log : List Event) : part n (sentFlow log) = sentOn n log := by
  rw [part, sentFlow, sentOn, List.filterMap_filterMap]
  congr 1
  funext event
  cases event with
  | brokerSent m packet message => cases packet <;> rfl
  | _ => rfl

theorem part_tookFlow (n : Nat) (log : List Event) : part n (tookFlow log) = tookFrom n log := by
  rw [part, tookFlow, tookFrom, List.filterMap_filterMap]
  congr 1
  funext event
  cases event with
  | hubTook sender msg => cases sender <;> cases msg <;> rfl
  | _ => rfl

/-! ## Through the hub -/

/-- Received messages come from network tasks. -/
def FromNetworks (w : World) : Prop :=
  ∀ e ∈ w.bus, ∀ publish, e.event = .hubMsg (.RxPublish publish) → ∃ n, e.sender = .network n

/-- How often the hub holds the message for its receive task. -/
def held (publish : Publish) (hub : Hub) : Nat :=
  match publish.qos.packetId with
  | some packetId => if hub.rxPublish packetId = some publish then 1 else 0
  | none => 0

def isQos0 (publish : Publish) : Bool := publish.qos = .AtMostOnce

structure Passes (w : World) : Prop where
  track : OnTrack w
  source : FromNetworks w
  keys : ∀ packetId publish, w.hub.rxPublish packetId = some publish →
    publish.qos.packetId = some packetId
  qos0 : (shown w.log).filter isQos0 = ((tookFlow w.log).map Prod.snd).filter isQos0
  once : ∀ publish, (shown w.log).count publish + held publish w.hub ≤
    ((tookFlow w.log).map Prod.snd).count publish

section Hub

variable {w w' : World} {action : Action}

theorem fromNetworks_of_moved (htrack : OnTrack w) (h : Moved w action w')
    (hI : FromNetworks w) : FromNetworks w' := by
  intro e he publish hevent
  rcases mem_bus_of_moved h he with hold | hnew
  · exact hI e hold publish hevent
  · cases hnew with
    | task hget hphase hprog =>
      cases hevent
      have := htrack.taskMsg hget hprog
      cases this
    | rxPublish hget hfrom => exact ⟨_, rfl⟩
    | _ => cases hevent

/-- The messages among the outputs of the hub. -/
def shownIn (outputs : List Output) : List Publish :=
  outputs.filterMap (fun output =>
    match output with | .dispatch (.Publish publish) => some publish | _ => none)

theorem flows_of_outputs (w : World) (message : Nat) (outputs : List Output) :
    shown (World.applyOutputs message w outputs).log = shown w.log ++ shownIn outputs ∧
      tookFlow (World.applyOutputs message w outputs).log = tookFlow w.log := by
  induction outputs generalizing w with
  | nil => exact ⟨(List.append_nil _).symm, rfl⟩
  | cons output rest ih =>
    obtain ⟨hshown, htook⟩ := ih (World.applyOutput message w output)
    have first : shown (World.applyOutput message w output).log =
        shown w.log ++ shownIn [output] ∧
        tookFlow (World.applyOutput message w output).log = tookFlow w.log := by
      cases output with
      | dispatch event =>
        cases event <;> simp [World.applyOutput, shown, shownIn, shownBy, tookFlow, tookAt]
      | _ => simp [World.applyOutput, shown, shownIn, shownBy, tookFlow, tookAt]
    refine ⟨hshown.trans ?_, htook.trans first.2⟩
    have both : shownIn (output :: rest) = shownIn [output] ++ shownIn rest := by
      rw [← List.singleton_append, shownIn, List.filterMap_append]
      rfl
    rw [first.1, List.append_assoc, both]

/-- The message that the hub takes by an input. -/
def given : HubInput → List Publish
  | .hubMsg (.RxPublish publish) => [publish]
  | _ => []

theorem flows_of_takes (hsource : FromNetworks w) {a : HubAction} {input : HubInput}
    {message : Nat} {taken : World} (htakes : Takes w a input message taken) :
    shown taken.log = shown w.log ∧
      (tookFlow taken.log).map Prod.snd = (tookFlow w.log).map Prod.snd ++ given input := by
  cases htakes with
  | @hubMsg j sender msg message rest htake =>
    cases msg with
    | RxPublish publish =>
      obtain ⟨n, rfl⟩ : ∃ n, sender = .network n :=
        hsource _ (PairFifo.mem_of_take htake) publish rfl
      simp [shown, shownBy, tookFlow, tookAt, given]
    | _ => simp [shown, shownBy, tookFlow, tookAt, given]
  | _ => simp [shown, shownBy, tookFlow, tookAt, given]

/-- What a branch of the hub does with messages. -/
inductive Through (hub hub' : Hub) : List Publish → List Publish → Prop where
  | qos0 {publish : Publish} (hqos : publish.qos = .AtMostOnce)
      (hsame : hub'.rxPublish = hub.rxPublish) : Through hub hub' [publish] [publish]
  | dropped {publish : Publish} {packetId : PacketId}
      (hid : publish.qos.packetId = some packetId)
      (hsame : hub'.rxPublish = hub.rxPublish) : Through hub hub' [publish] []
  | kept {publish : Publish} {packetId : PacketId} (hid : publish.qos.packetId = some packetId)
      (hkept : hub'.rxPublish = Function.update hub.rxPublish packetId (some publish)) :
      Through hub hub' [publish] []
  | released {publish : Publish} {packetId : PacketId}
      (hheld : hub.rxPublish packetId = some publish)
      (hgone : hub'.rxPublish = Function.update hub.rxPublish packetId none) :
      Through hub hub' [] [publish]
  | none (hsame : hub'.rxPublish = hub.rxPublish) : Through hub hub' [] []

theorem through_of_move {keepAliveId : Nat} {hub hub' : Hub} {input : HubInput}
    {outputs : List Output} (h : Move keepAliveId hub input hub' outputs) :
    Through hub hub' (given input) (shownIn outputs) := by
  cases h with
  | rxQos0 hat hqos => exact .qos0 hqos rfl
  | rxDup hat hid hheld => exact .dropped hid rfl
  | rxAccept hat hfree hspec =>
    rcases hspec with ⟨hqos, rfl⟩ | ⟨hqos, rfl⟩ <;>
      exact .kept (by rw [hqos]; rfl) rfl
  | affirmRxPublish hat hheld => exact .released hheld rfl
  | _ => exact .none rfl

theorem held_same {hub hub' : Hub} (hsame : hub'.rxPublish = hub.rxPublish) (publish : Publish) :
    held publish hub' = held publish hub := by
  rw [held, held, hsame]

theorem keys_of_through {hub hub' : Hub} {takes shows : List Publish}
    (h : Through hub hub' takes shows)
    (keys : ∀ packetId publish, hub.rxPublish packetId = some publish →
      publish.qos.packetId = some packetId) (packetId : PacketId) (publish : Publish)
    (hheld : hub'.rxPublish packetId = some publish) : publish.qos.packetId = some packetId := by
  cases h with
  | @kept taken id hid hkept =>
    rw [hkept, Function.update_apply] at hheld
    split at hheld
    · next heq =>
      obtain rfl := Option.some.inj hheld
      rw [heq]
      exact hid
    · exact keys packetId publish hheld
  | released hwas hgone =>
    rw [hgone, Function.update_apply] at hheld
    split at hheld
    · cases hheld
    · exact keys packetId publish hheld
  | qos0 hqos hsame => exact keys packetId publish (hsame ▸ hheld)
  | dropped hid hsame => exact keys packetId publish (hsame ▸ hheld)
  | none hsame => exact keys packetId publish (hsame ▸ hheld)

/-- A message that the hub shows or holds is one that it took. -/
theorem held_of_through {hub hub' : Hub} {takes shows : List Publish}
    (h : Through hub hub' takes shows)
    (keys : ∀ packetId publish, hub.rxPublish packetId = some publish →
      publish.qos.packetId = some packetId) (publish : Publish) :
    shows.count publish + held publish hub' ≤ takes.count publish + held publish hub := by
  cases h with
  | qos0 hqos hsame => exact Nat.le_of_eq (congrArg _ (held_same hsame publish))
  | dropped hid hsame =>
    rw [held_same hsame, List.count_nil]
    omega
  | none hsame => exact Nat.le_of_eq (congrArg _ (held_same hsame publish))
  | @kept taken id hid hkept =>
    rw [List.count_nil, List.count_singleton, Nat.zero_add, held, held]
    by_cases hsame : taken = publish
    · subst hsame
      simp only [hid, beq_self_eq_true, if_true]
      split <;> omega
    · have other : ¬(taken == publish) = true := by simpa using hsame
      rw [if_neg other, Nat.zero_add]
      split
      · next packetId hpacketId =>
        rw [hkept, Function.update_apply]
        by_cases heq : packetId = id
        · rw [if_pos heq, if_neg (fun h => hsame (Option.some.inj h))]
          exact Nat.zero_le _
        · exact Nat.le_of_eq (by rw [if_neg heq])
      · exact Nat.le_refl _
  | @released was id hheld hgone =>
    have hid := keys id was hheld
    rw [List.count_nil, List.count_singleton, Nat.zero_add, held, held]
    by_cases hsame : was = publish
    · subst hsame
      simp [hid, hgone, hheld]
    · have other : ¬(was == publish) = true := by simpa using hsame
      rw [if_neg other, Nat.zero_add]
      split
      · next packetId hpacketId =>
        rw [hgone, Function.update_apply]
        by_cases heq : packetId = id
        · rw [if_pos heq, if_neg (by simp)]
          exact Nat.zero_le _
        · exact Nat.le_of_eq (by rw [if_neg heq])
      · exact Nat.le_refl _

/-- QoS 0 messages are shown as they are taken, the others never in their place. -/
theorem qos0_of_through {hub hub' : Hub} {takes shows : List Publish}
    (h : Through hub hub' takes shows)
    (keys : ∀ packetId publish, hub.rxPublish packetId = some publish →
      publish.qos.packetId = some packetId) : shows.filter isQos0 = takes.filter isQos0 := by
  have acknowledged {publish : Publish} {packetId : PacketId}
      (hid : publish.qos.packetId = some packetId) : isQos0 publish = false := by
    rw [isQos0, decide_eq_false_iff_not]
    intro hqos
    rw [hqos] at hid
    cases hid
  cases h with
  | qos0 hqos hsame => rfl
  | none hsame => rfl
  | dropped hid hsame => simp [acknowledged hid]
  | kept hid hkept => simp [acknowledged hid]
  | released hheld hgone => simp [acknowledged (keys _ _ hheld)]

theorem passes_of_moved (h : Moved w action w') (hI : Passes w) : Passes w' := by
  have track := onTrack_of_moved h hI.track
  have source := fromNetworks_of_moved hI.track h hI.source
  rcases hub_or_not h with ⟨a, rfl, hmoved⟩ | notHub
  · cases hmoved with
    | @intro input message taken hub outputs htakes hmove =>
      obtain ⟨hshown, htook⟩ := flows_of_outputs { taken with hub := hub } message outputs
      obtain ⟨hshown₀, htook₀⟩ := flows_of_takes hI.source htakes
      have hhub := (applyOutputs_grown { taken with hub := hub } message outputs).hub
      have through := through_of_move hmove
      refine ⟨track, source, ?_, ?_, ?_⟩
      · rw [hhub]
        exact keys_of_through through hI.keys
      · rw [hshown, htook, List.filter_append]
        change (shown taken.log).filter isQos0 ++ _ =
          ((tookFlow taken.log).map Prod.snd).filter isQos0
        rw [hshown₀, htook₀, List.filter_append, hI.qos0, qos0_of_through through hI.keys]
      · intro publish
        have before := hI.once publish
        have now := held_of_through through hI.keys publish
        rw [hshown, htook, hhub, List.count_append]
        change (shown taken.log).count publish + _ + held publish hub ≤
          ((tookFlow taken.log).map Prod.snd).count publish
        rw [hshown₀, htook₀, List.count_append]
        omega
  · obtain ⟨events, hlog, houtside⟩ := log_outside h notHub
    have quiet : shown w'.log = shown w.log ∧ tookFlow w'.log = tookFlow w.log := by
      have unseen : ∀ event ∈ events, shownBy event = none ∧ tookAt event = none := by
        intro event hevent
        cases houtside event hevent with
        | @user msg ack => cases msg <;> exact ⟨rfl, rfl⟩
        | _ => exact ⟨rfl, rfl⟩
      rw [hlog, shown, shown, tookFlow, tookFlow, List.reverse_append, List.filterMap_append,
        List.filterMap_append, List.filterMap_eq_nil_iff (l := events.reverse) |>.mpr
          (fun event he => (unseen event (List.mem_reverse.mp he)).1),
        List.filterMap_eq_nil_iff (l := events.reverse) |>.mpr
          (fun event he => (unseen event (List.mem_reverse.mp he)).2)]
      exact ⟨List.append_nil _, List.append_nil _⟩
    have hhub := (hub_of_moved h notHub).1
    refine ⟨track, source, ?_, ?_, ?_⟩
    · rw [hhub]
      exact hI.keys
    · rw [quiet.1, quiet.2]
      exact hI.qos0
    · rw [quiet.1, quiet.2, hhub]
      exact hI.once

theorem passes_init (options : MqttOptions) (protocol : Protocol) :
    Passes (.init options protocol) := by
  refine ⟨?_, ?_, ?_, rfl, ?_⟩
  · intro i task hget
    cases hget
  · intro e he
    cases he
  · intro packetId publish hheld
    cases hheld
  · intro publish
    have nothing : held publish (Hub.init options protocol) = 0 := by
      rw [held]
      split
      · exact if_neg nofun
      · rfl
    change 0 + held publish (Hub.init options protocol) ≤ 0
    omega

theorem reachable_passes {options : MqttOptions} {protocol : Protocol}
    (h : Reachable World.step free (.init options protocol) w) : Passes w := by
  refine h.invariant (passes_init options protocol) ?_
  intro s action s' _ ih _ hstep
  exact passes_of_moved (moved_of_step hstep) ih

end Hub

theorem shown_le_sent {w : World} (passes : Passes w) (inOrder : ∀ n, InOrder n w)
    (publish : Publish) :
    (shown w.log).count publish ≤ ((sentFlow w.log).map Prod.snd).count publish := by
  have taken := passes.once publish
  have sent : ((tookFlow w.log).map Prod.snd).count publish ≤
      ((sentFlow w.log).map Prod.snd).count publish := by
    apply count_le_of_parts
    intro n
    rw [part_tookFlow, part_sentFlow, ← inOrder n, List.append_assoc]
    exact List.sublist_append_left _ _
  omega

/-- In every run no message reaches the user more often than the broker sent it, and so
none that the broker never sent. -/
theorem delivered_as_often_as_sent {options : MqttOptions} {protocol : Protocol} {w : World}
    (h : Reachable World.step free (.init options protocol) w) (publish : Publish) :
    (shown w.log).count publish ≤ ((sentFlow w.log).map Prod.snd).count publish :=
  shown_le_sent (reachable_passes h) (reachable_inOrder h) publish

theorem three_messages_once :
    ∃ w, guardedRun World.step free (.init ⟨60, true⟩ .V4) threeMessages = some w ∧
      ∀ publish, (shown w.log).count publish ≤
        ((sentFlow w.log).map Prod.snd).count publish :=
  end_of_guardedRun _ (by decide +kernel) (fun _ h publish => delivered_as_often_as_sent h publish)

end Inbound
