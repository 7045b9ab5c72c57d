import ForMqttClient.Sendable
import ForMqttClient.WireRefinement

/-!
# The system on the wire

With the bytes that the tasks really send, a task on the level of bytes can take
the place of a network task of the system, and a broker that reads its stream
finds the packets that the broker of the system receives.
-/

namespace NetworkTask

open MqttData Codec ByteReader GuardedRuns System Tasks TaskHub SystemSteps

section Wire

variable {text : Disconnect → String} {encode : Outgoing → Bytes} {n : Nat} {version : Protocol}
variable {connectPacket : Bytes} {start : World} {t t' : Task} {w : World}

/-! ## Joint runs -/

/-- The other parties take one step after the other. -/
theorem joint_others {actions : List System.Action} :
    ∀ {w w' : World}, (∀ action ∈ actions, ¬OfNetwork n action) →
      run World.step w actions = some w' →
      Joint text encode n version connectPacket start t w →
      Joint text encode n version connectPacket start t w' := by
  induction actions with
  | nil =>
    intro w w' _ ran joint
    cases ran
    exact joint
  | cons action actions ih =>
    intro w w' others ran joint
    obtain ⟨w₁, stepped, later⟩ := Option.bind_eq_some_iff.mp ran
    exact ih (fun other listed => others other (List.mem_cons_of_mem _ listed)) later
      (.others joint (others action List.mem_cons_self) stepped)

/-- The task steps over an open bus, along with these steps of the network task. -/
theorem joint_own (result : CallResult) (actions : List System.Action) (entries : List Entry)
    (network : Network) {left : List Envelope} {w' : World}
    (joint : Joint text encode n version connectPacket start t w)
    (offered : Offered encode n w result left) (stepped : t.step ⟨result, none⟩ = some t')
    (ran : run World.step w actions = some w') (mirrors : Mirrors encode n t' w' network)
    (log : t'.log = t.log ++ entries)
    (shows : Shows text n w w' left (eventsIn entries) (receiptsIn entries)) :
    Joint text encode n version connectPacket start t' w' := by
  have bus : busOpen t ⟨result, none⟩ := rfl
  exact .own joint offered bus stepped ran mirrors log shows

/-! ## One publish on its way -/

/-- A world behind steps that it can take. -/
def after (w : World) (actions : List System.Action) : World := (run World.step w actions).getD w

/-- CONNECT of version 4 with the client id "c". -/
def hello : Bytes := [0x10, 13, 0, 4, 77, 81, 84, 84, 4, 2, 0, 60, 0, 1, 99]

def letter : MqttData.Publish := .new "a" .AtMostOnce [] false .V4

def opening : World := after (.init ⟨60, true⟩ .V4) [.hub (.connect 0)]

def opened : World := after opening [.network 0 (.connected false)]

/-- The steps of the others up to the send of the publish. -/
def publishes : List System.Action :=
  [.hub (.connecting 0), .hub .load, .hub .resend,
    .request (.PublishQoS0 (.init .AtMostOnce "a" [] false .V4 7)), .hub (.recv 1), .task 0 .run]

def publishing : World := after opened publishes

def handedOver : World := after publishing [.network 0 (.take 1 none)]

def delivered : World := after handedOver [.broker 0 .recv]

/-- The log of the task up to the handshake. -/
def shaken : List Entry := [.wrote hello, .read [0x20, 2, 0, 0], .dispatched (.Connected false)]

/-- What the task does with the publish. -/
def serving : List Entry :=
  [.received (.Data ⟨Broker.encode .V4 (.Publish letter), some 0⟩),
    .wrote (Broker.encode .V4 (.Publish letter)), .done 0]

theorem joint_opened (text : Disconnect → String) :
    Joint text (Broker.encode .V4) 0 .V4 hello (.init ⟨60, true⟩ .V4)
      ⟨.V4, hello, .connected [], shaken⟩ opened := by
  have start : Joint text (Broker.encode .V4) 0 .V4 hello (.init ⟨60, true⟩ .V4)
      (.init .V4 hello) opening :=
    .start (reachable_of_run .start (rfl :
      run World.step (.init ⟨60, true⟩ .V4) [.hub (.connect 0)] = some opening)) rfl rfl
  have initialised : Joint text (Broker.encode .V4) 0 .V4 hello (.init ⟨60, true⟩ .V4)
      ⟨.V4, hello, .toWriteConnect, []⟩ opening :=
    joint_own (.init (.ok ())) [] [] .init start .init rfl rfl ⟨rfl, rfl, rfl, rfl⟩ rfl
      (.refl text 0 opening)
  have greeted : Joint text (Broker.encode .V4) 0 .V4 hello (.init ⟨60, true⟩ .V4)
      ⟨.V4, hello, .toConnect [], [.wrote hello]⟩ opening :=
    joint_own (.write (.ok ())) [] [.wrote hello] .init initialised .write rfl rfl
      ⟨rfl, rfl, rfl, rfl⟩ rfl (.refl text 0 opening)
  exact joint_own (.read (.ok [0x20, 2, 0, 0])) [.network 0 (.connected false)]
    [.read [0x20, 2, 0, 0], .dispatched (.Connected false)] ⟨.Connected, [], []⟩ greeted .read
    rfl rfl ⟨rfl, rfl, rfl, rfl⟩ rfl ⟨rfl, rfl, rfl, rfl, rfl, rfl, rfl⟩

theorem joint_delivered (text : Disconnect → String) :
    Joint text (Broker.encode .V4) 0 .V4 hello (.init ⟨60, true⟩ .V4)
      ⟨.V4, hello, .connected [], shaken ++ serving⟩ delivered := by
  have asked : Joint text (Broker.encode .V4) 0 .V4 hello (.init ⟨60, true⟩ .V4)
      ⟨.V4, hello, .connected [], shaken⟩ publishing := by
    refine joint_others (fun action listed => ?_)
      (rfl : run World.step opened publishes = some publishing) (joint_opened text)
    simp only [publishes, List.mem_cons, List.not_mem_nil, or_false] at listed
    rcases listed with rfl | rfl | rfl | rfl | rfl | rfl <;> exact id
  have served : Joint text (Broker.encode .V4) 0 .V4 hello (.init ⟨60, true⟩ .V4)
      ⟨.V4, hello, .connected [], shaken ++ serving⟩ handedOver :=
    joint_own (.recv (.Data ⟨Broker.encode .V4 (.Publish letter), some 0⟩) (.ok ()))
      [.network 0 (.take 1 none)] serving ⟨.Connected, [.Publish letter], []⟩ asked
      (.data (rfl : PairFifo.take Envelope.channel publishing.bus 1 =
        some (⟨.task 0, .network 0, .data (.Publish letter) 0, 0⟩, _)))
      rfl rfl ⟨rfl, rfl, rfl, rfl⟩ rfl ⟨rfl, rfl, rfl, rfl, rfl, rfl, rfl⟩
  exact .others served id (rfl : handedOver.step (.broker 0 .recv) = some delivered)

/-! ## The task in its place -/

/-- A task in the place of a network task: whatever the task does, steps of the
network task and of its broker show the same, and whatever the others do, the
task still stands where the network task does. -/
theorem task_takes_place
    (joint : Joint text (Broker.encode version) n version connectPacket start t w) :
    (Reachable World.step free start w ∧
      Reachable Task.step busOpen (.init version connectPacket) t ∧
      ∃ network, Mirrors (Broker.encode version) n t w network) ∧
    (∀ action left t', Offered (Broker.encode version) n w action.result left →
      busOpen t action → t.step action = some t' →
      ∃ actions w' entries, (∀ other ∈ actions, OfNetwork n other) ∧
        run World.step w actions = some w' ∧ t'.log = t.log ++ entries ∧
        Shows text n w w' left (eventsIn entries) (receiptsIn entries) ∧
        Joint text (Broker.encode version) n version connectPacket start t' w') ∧
    ∀ action w', ¬OfNetwork n action → w.step action = some w' →
      Joint text (Broker.encode version) n version connectPacket start t w' ∧
        ∃ network, Mirrors (Broker.encode version) n t w' network := by
  have both := joint_mirrors text joint
  refine ⟨both, ?_, ?_⟩
  · intro action left t' offered bus stepped
    obtain ⟨_, task, network, mirrors⟩ := both
    obtain ⟨actions, w', network', entries, own, ran, mirrors', log, shows⟩ :=
      step_simulated text rfl (told_of_reachable task) mirrors offered bus stepped
    exact ⟨actions, w', entries, own, ran, log, shows,
      .own joint offered bus stepped ran mirrors' log shows⟩
  · intro action w' other stepped
    have after := Joint.others joint other stepped
    exact ⟨after, (joint_mirrors text after).2.2⟩

/-- With the publish at its broker the task loses its connection. -/
theorem task_loses_connection :
    ∃ actions w' entries, (∀ other ∈ actions, OfNetwork 0 other) ∧
      run World.step delivered actions = some w' ∧
      eventsIn entries = [.ConnectedErr "reset"] ∧
      Shows (fun _ => "") 0 delivered w' delivered.bus (eventsIn entries) (receiptsIn entries) := by
  obtain ⟨actions, w', entries, own, ran, log, shows, _⟩ :=
    (task_takes_place (joint_delivered fun _ => "")).2.1 ⟨.read (.error "reset"), none⟩ _ _ .read
      rfl rfl
  have new : [Entry.dispatched (.ConnectedErr "reset")] = entries := List.append_cancel_left log
  exact ⟨actions, w', entries, own, ran, by rw [← new]; rfl, shows⟩

/-! ## The bytes at the broker -/

/-- The packets of network task `n` that its broker has taken or can still take. -/
def sentTo (n : Nat) (w : World) : List Outgoing :=
  takenBy n w.log ++ (w.networks[n]?.map Network.toBroker).getD []

theorem writes_of_joint (joint : Joint text encode n version connectPacket start t w) :
    (writesIn t.log).tail = (sentTo n w).map encode := by
  obtain ⟨_, _, network, mirrors⟩ := joint_mirrors text joint
  rw [mirrors.wire, sentTo, mirrors.here]
  rfl

theorem sent_or_coming {packet : Outgoing} (h : packet ∈ sentTo n w) :
    .brokerGot n packet ∈ w.log ∨
      ∃ network, w.networks[n]? = some network ∧ packet ∈ network.toBroker := by
  rcases List.mem_append.mp h with taken | coming
  · left
    obtain ⟨event, listed, got⟩ := List.mem_filterMap.mp taken
    cases event with
    | brokerGot m other =>
      obtain ⟨rfl, same⟩ := Option.ite_none_right_eq_some.mp got
      cases same
      exact List.mem_reverse.mp listed
    | _ => cases got
  · right
    cases here : w.networks[n]? with
    | none =>
      rw [here] at coming
      cases coming
    | some network =>
      rw [here] at coming
      exact ⟨network, rfl, coming⟩

/-- A broker reads off the bytes behind CONNECT, however they are cut, what the
broker of the system has taken and what is on its way there, if what comes into
the client fits. -/
theorem broker_reads_system {options : MqttOptions}
    (joint : Joint text (Broker.encode version) n version connectPacket (.init options version) t w)
    (fits : Sendable.InputFits version w.log) (chunks : List Bytes)
    (cut : chunks.flatten = (writesIn t.log).tail.flatten) :
    Framing.receive (Broker.next version) [] chunks = ((sentTo n w).map some, []) := by
  have reached := (joint_mirrors text joint).1
  refine Broker.receive_encoded (fun packet listed => ?_) ?_
  · exact Sendable.sent_of_reachable reached fits (sent_or_coming listed)
  · rw [cut, writes_of_joint joint, List.flatMap_def]

theorem broker_reads_letter :
    Framing.receive (Broker.next .V4) [] [[0x30], [3, 0, 1], [97]] =
      ([some (.Publish letter)], []) := by
  refine broker_reads_system (joint_delivered fun _ => "") ⟨?_, ?_⟩ _ (by decide +kernel)
  · intro data listed
    obtain rfl : data = .PublishQoS0 (.init .AtMostOnce "a" [] false .V4 7) := by
      change System.Event.requested data ∈ [.brokerGot 0 (.Publish letter), .started 0 _,
        .requested _, .user (.ConnectSuccess false)] at listed
      simpa using listed
    refine ⟨rfl, ?_, ?_⟩
    · change (asBytes "a").length ≤ 65535
      decide +kernel
    · decide +kernel
  · intro n publish message listed
    change System.Event.brokerSent n _ message ∈ [.brokerGot 0 (.Publish letter), .started 0 _,
        .requested _, .user (.ConnectSuccess false)] at listed
    simp at listed

end Wire

end NetworkTask
