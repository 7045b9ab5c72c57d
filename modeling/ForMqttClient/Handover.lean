import ForMqttClient.Handshake
import ForMqttClient.Orphans

/-!
# PUBLISH packets handed to the network

`tx_network_default` puts a packet into the queue of each `TaskNetwork` that is
subscribed at that moment. A run is followed here together with the PUBLISH
packets that were handed over so, and each of them is traced back to the request
that the hub took in.
-/

namespace Handover

open MqttData TaskHub HubSteps PacketIds Tasks System SystemSteps TaskRuns Handshake

/-- The packet that an action of a task sends. -/
def sends (task : Task) : TaskAction → Option Outgoing
  | .run =>
    match task.phase, task.prog with
    | .ready, .transmit data _ _ :: _ => some data
    | .ready, .send data :: _ => some data
    | _, _ => none
  | .timeout =>
    match task.phase, task.prog with
    | .waiting, .transmit _ dupData _ :: _ => some dupData
    | _, _ => none
  | _ => none

/-- The network tasks whose queues a packet reaches. -/
def live (w : World) : List Nat := (List.range w.networks.length).filter w.networkLive

structure Handing where
  task : Nat
  publish : Publish
  networks : List Nat
  deriving DecidableEq, Repr

/-- The PUBLISH that an action hands to the network. Without a live network task
it reaches nobody. -/
def handing (w : World) : Action → Option Handing
  | .task i action =>
    match w.tasks[i]?.bind (fun task => sends task action) with
    | some (.Publish publish) => if live w = [] then none else some ⟨i, publish, live w⟩
    | _ => none
  | _ => none

/-- The client with what was handed to the network so far, oldest first. -/
structure Traced where
  world : World
  handed : List Handing

def Traced.init (options : MqttOptions) (protocol : Protocol) : Traced where
  world := .init options protocol
  handed := []

def Traced.step (t : Traced) (action : Action) : Option Traced :=
  (t.world.step action).map fun world =>
    ⟨world, t.handed ++ (handing t.world action).toList⟩

/-- The PUBLISH that a task is there for. -/
def published : TaskSpec → Option Publish
  | .PublishQos0 trace =>
    some (.new trace.topic .AtMostOnce trace.payload trace.retain trace.protocol)
  | .PublishQos1 trace =>
    some (.new trace.topic (.AtLeastOnce trace.packetId) trace.payload trace.retain trace.protocol)
  | .PublishQos2 trace =>
    some (.new trace.topic (.ExactlyOnce trace.packetId) trace.payload trace.retain trace.protocol)
  | _ => none

/-! ## Back to the request -/

/-- How long the history was when the request under packet id `p` had been taken in. -/
def takenInAt (p : PacketId) (log : List Event) : Nat := log.length - (current p log).length

/-- The point of the history at which the request was taken in for which a task is
started now. A publish with QoS0 is taken in by the start of its task. -/
def startedFor (older : List Event) : TaskSpec → Nat
  | .PublishQos1 trace => takenInAt trace.packetId older
  | .PublishQos2 trace => takenInAt trace.packetId older
  | _ => older.length + 1

/-- The request that task `i` was started for. -/
def origin (i : Nat) : List Event → Option Nat
  | [] => none
  | .started k spec :: older => if k = i then some (startedFor older spec) else origin i older
  | _ :: older => origin i older

/-- The request that was taken in at `o` is the one that task `i` was started for. -/
def Asked (log : List Event) (o i : Nat) (spec : TaskSpec) : Prop :=
  ∃ newer event older, log = newer ++ event :: older ∧ o = older.length + 1 ∧
    (event = .started i spec ∨ ∃ entry, event = .accepted entry ∧ entry.toAcknowledge = spec)

section History

variable {p : PacketId} {i : Nat} {events log : List Event}

theorem current_length_le (p : PacketId) (log : List Event) :
    (current p log).length ≤ log.length :=
  (List.takeWhile_sublist _).length_le

theorem takenInAt_le (p : PacketId) (log : List Event) : takenInAt p log ≤ log.length :=
  Nat.sub_le _ _

theorem takenInAt_append (hquiet : ∀ event ∈ events, requestUnder p event = none) :
    takenInAt p (events ++ log) = takenInAt p log := by
  have bound := current_length_le p log
  rw [takenInAt, takenInAt, current_append hquiet, List.length_append, List.length_append]
  omega

theorem takenInAt_accepted (entry : UnacknowledgedClientData) (log : List Event) :
    takenInAt entry.packetId (.accepted entry :: log) = log.length + 1 := by
  have none : current entry.packetId (.accepted entry :: log) = [] := by
    rw [current, List.takeWhile_cons, requestUnder, if_pos rfl]
    rfl
  rw [takenInAt, none]
  rfl

/-- The request that was taken in last stands where the newer history ends. -/
theorem split_of_latest {entry : UnacknowledgedClientData} (h : latest p log = some entry) :
    ∃ older, log = current p log ++ .accepted entry :: older := by
  induction log with
  | nil => cases h
  | cons event rest ih =>
    rw [latest, List.findSome?_cons] at h
    rw [current, List.takeWhile_cons]
    cases hevent : requestUnder p event with
    | none =>
      rw [hevent] at h
      obtain ⟨older, hrest⟩ := ih h
      exact ⟨older, congrArg (event :: ·) hrest⟩
    | some found =>
      rw [hevent] at h
      cases h
      refine ⟨rest, ?_⟩
      cases event with
      | accepted other =>
        rw [requestUnder] at hevent
        split at hevent
        · cases hevent
          rfl
        · cases hevent
      | _ => cases hevent

theorem takenInAt_of_latest {entry : UnacknowledgedClientData} (h : latest p log = some entry) :
    ∃ newer older, log = newer ++ .accepted entry :: older ∧ takenInAt p log = older.length + 1 := by
  obtain ⟨older, hlog⟩ := split_of_latest h
  refine ⟨_, older, hlog, ?_⟩
  have length := congrArg List.length hlog
  rw [List.length_append, List.length_cons] at length
  rw [takenInAt]
  omega

theorem origin_append (hother : ∀ event ∈ events, ∀ spec, event ≠ .started i spec) :
    origin i (events ++ log) = origin i log := by
  induction events with
  | nil => rfl
  | cons event rest ih =>
    have tail := ih (fun e he => hother e (List.mem_cons_of_mem _ he))
    have head := hother event List.mem_cons_self
    rw [List.cons_append]
    cases event with
    | started k spec =>
      have hki : k ≠ i := by
        rintro rfl
        exact head spec rfl
      rw [origin, if_neg hki]
      exact tail
    | _ => exact tail

theorem Asked.append {o : Nat} {spec : TaskSpec} (h : Asked log o i spec) (events : List Event) :
    Asked (events ++ log) o i spec := by
  obtain ⟨newer, event, older, hlog, ho, hevent⟩ := h
  exact ⟨events ++ newer, event, older, by rw [hlog, List.append_assoc], ho, hevent⟩

theorem startedFor_entry {entry : UnacknowledgedClientData}
    (hpublished : published entry.toAcknowledge ≠ none) (log : List Event) :
    startedFor log entry.toAcknowledge = takenInAt entry.packetId log := by
  cases entry with
  | PublishQoS1 packet => rfl
  | PublishQoS2 packet => rfl
  | _ => exact absurd rfl hpublished

/-- The task of an entry goes back to the request of the entry. -/
theorem asked_of_latest {entry : UnacknowledgedClientData}
    (h : latest entry.packetId log = some entry) (i : Nat) :
    Asked log (takenInAt entry.packetId log) i entry.toAcknowledge := by
  obtain ⟨newer, older, hlog, ho⟩ := takenInAt_of_latest h
  exact ⟨newer, _, older, hlog, ho, .inr ⟨entry, rfl, rfl⟩⟩

theorem startedFor_le (older : List Event) (spec : TaskSpec) :
    startedFor older spec ≤ older.length + 1 := by
  cases spec with
  | PublishQos1 trace => exact Nat.le_succ_of_le (takenInAt_le _ _)
  | PublishQos2 trace => exact Nat.le_succ_of_le (takenInAt_le _ _)
  | _ => exact Nat.le_refl _

theorem origin_started (spec : TaskSpec) (older : List Event) :
    origin i (.started i spec :: older) = some (startedFor older spec) := if_pos rfl

theorem origin_le {o : Nat} (h : origin i log = some o) : o ≤ log.length := by
  induction log with
  | nil => cases h
  | cons event older ih =>
    cases event with
    | started k spec =>
      rw [origin] at h
      split at h
      · cases h
        exact startedFor_le older spec
      · exact Nat.le_succ_of_le (ih h)
    | _ => exact Nat.le_succ_of_le (ih h)

end History

/-! ## What the hub starts -/

/-- A step of the hub takes a request in, starts the task of an entry again, starts
a publish with QoS0, or has to do with no publish. -/
inductive HubHistory (w w' : World) : Prop where
  | accepts (entry : UnacknowledgedClientData) (request : ClientData)
      (hunused : ∀ old ∈ w.hub.clientData, old.packetId ≠ entry.packetId)
      (hdata : w'.hub.clientData = w.hub.clientData ++ [entry])
      (htasks : w'.tasks = w.tasks ++ [.init entry.toAcknowledge])
      (hlog : w'.log = .started w.tasks.length entry.toAcknowledge :: .accepted entry ::
        .requested request :: w.log)
  | resends (entry : UnacknowledgedClientData) (hmem : entry ∈ w.hub.clientData)
      (hdata : w'.hub.clientData = w.hub.clientData)
      (htasks : w'.tasks = w.tasks ++ [.init entry.toAcknowledge])
      (hlog : w'.log = .started w.tasks.length entry.toAcknowledge :: w.log)
  | qos0 (packet : TracePublishQos .AtMostOnce) (request : ClientData)
      (hdata : w'.hub.clientData = w.hub.clientData)
      (htasks : w'.tasks = w.tasks ++ [.init (.PublishQos0 packet)])
      (hlog : w'.log = .started w.tasks.length (.PublishQos0 packet) :: .requested request :: w.log)
  | other (events : List Event) (specs : List TaskSpec)
      (hquiet : ∀ event ∈ events, ∀ p, requestUnder p event = none)
      (hstarts : ∀ event ∈ events, ∀ i spec, event = .started i spec → w.tasks.length ≤ i)
      (hspecs : ∀ spec ∈ specs, published spec = none)
      (hdata : ∀ entry ∈ w'.hub.clientData, published entry.toAcknowledge ≠ none →
        entry ∈ w.hub.clientData)
      (htasks : w'.tasks = w.tasks ++ specs.map Task.init) (hlog : w'.log = events ++ w.log)

theorem hub_history {w w' : World} (hids : IdsConserved w.hub) {a : HubAction}
    (h : HubMoved w a w') : HubHistory w w' := by
  cases h with
  | @intro input message taken hub outputs htakes hmove =>
    obtain ⟨events, hlog, hinside⟩ := log_of_takes htakes hub outputs
    have htasks := tasks_of_takes htakes hub outputs
    have hhub := (applyOutputs_grown { taken with hub := hub } message outputs).hub
    have hentries := congrArg Hub.clientData hhub
    -- no request is taken in, and what is started is no publish
    have other (hnone : ∀ entry, .accepted entry ∉ outputs)
        (hspecs : ∀ spec ∈ startedSpecs outputs, published spec = none)
        (hdata : ∀ entry ∈ hub.clientData, published entry.toAcknowledge ≠ none →
          entry ∈ w.hub.clientData) :
        HubHistory w (World.applyOutputs message { taken with hub := hub } outputs) := by
      refine .other events (startedSpecs outputs) ?_ ?_ hspecs ?_ htasks hlog
      · intro event hevent p
        cases hinside event hevent with
        | accepted hmem => exact absurd hmem (hnone _)
        | _ => rfl
      · intro event hevent i spec heq
        cases hinside event hevent with
        | started hi hget =>
          cases heq
          exact hi
        | _ => cases heq
      · rw [hentries]
        exact hdata
    cases hmove with
    | publishQoS0 hat =>
      cases htakes with
      | clientData htake => exact .qos0 _ _ rfl rfl rfl
    | @accept data entry pool hat hid hpop hfresh =>
      have hunused := unused_of_pop hids hpop
      cases htakes with
      | clientData htake => exact .accepts entry data hunused rfl rfl rfl
    | @resendEntry next entry hat hentry =>
      cases htakes with
      | resend => exact .resends entry (List.mem_of_getElem? hentry) rfl rfl rfl
    | recoverDone hat hfind hentry hdone hpush =>
      refine other (by simp) (by simp [startedSpecs]) ?_
      intro old hold _
      exact List.mem_of_mem_eraseIdx hold
    | recoverRel hat hfind hentry =>
      refine other (by simp) (by simp [startedSpecs, published]) ?_
      intro old hold hpublished
      rcases List.mem_or_eq_of_mem_set hold with hold | rfl
      · exact hold
      · exact absurd rfl hpublished
    | rxAccept hat hfree hspec =>
      refine other (by simp) ?_ (fun _ hold _ => hold)
      intro spec hmem
      obtain rfl := List.mem_singleton.mp hmem
      rcases hspec with ⟨_, rfl⟩ | ⟨_, rfl⟩ <;> rfl
    | _ => exact other (by simp) (by simp [startedSpecs]) (fun _ hold _ => hold)

/-! ## What is sent -/

section Data

variable {w w' : World} {action : Action} {e : Envelope} {packet : Outgoing} {receipt : Nat}

theorem mem_live {n : Nat} : n ∈ live w ↔ w.networkLive n = true := by
  rw [live, List.mem_filter, List.mem_range]
  exact and_iff_right_of_imp Orphans.lt_of_networkLive

/-- Who sends a packet by an action. -/
inductive Sends (w : World) : Action → Outgoing → Prop where
  | task {i : Nat} {task : Task} {a : TaskAction} {packet : Outgoing}
      (hget : w.tasks[i]? = some task) (hsends : sends task a = some packet) :
      Sends w (.task i a) packet
  | ping {i timeoutTime : Nat} (hget : w.pings[i]? = some (.send timeoutTime)) :
      Sends w (.ping i .send) .PingReq

/-- The envelope was put on the bus by this step, with the receipt drawn for it. -/
structure Fresh (w : World) (sender : Worker) (packet : Outgoing) (receipt : Nat)
    (e : Envelope) : Prop where
  sender : e.sender = sender
  receiver : ∃ n, w.networkLive n = true ∧ e.receiver = .network n
  event : e.event = .data packet receipt
  receipt : receipt = w.receipts.length

theorem data_of_dispatch {sender : Worker} {event : BusEvent} {message : Nat}
    (hevent : ∀ packet r, event ≠ .data packet r)
    (he : e ∈ (w.dispatch sender event message).bus) (hdata : e.event = .data packet receipt) :
    e ∈ w.bus := by
  rcases List.mem_append.mp he with hold | hnew
  · exact hold
  · obtain ⟨receiver, _, rfl⟩ := List.mem_map.mp hnew
    exact absurd hdata (hevent packet receipt)

theorem data_of_send {sender : Worker} {sent : Outgoing} (he : e ∈ (w.send sender sent).bus)
    (hdata : e.event = .data packet receipt) :
    e ∈ w.bus ∨ packet = sent ∧ Fresh w sender packet receipt e := by
  rcases List.mem_append.mp he with hold | hnew
  · exact .inl hold
  · obtain ⟨receiver, hmem, rfl⟩ := List.mem_map.mp hnew
    obtain ⟨n, hn, rfl⟩ := mem_subscribers_data.mp hmem
    cases hdata
    exact .inr ⟨rfl, rfl, ⟨n, hn.2, rfl⟩, rfl, rfl⟩

theorem data_of_applyOutputs {message : Nat} {outputs : List Output}
    (he : e ∈ (World.applyOutputs message w outputs).bus)
    (hdata : e.event = .data packet receipt) : e ∈ w.bus := by
  induction outputs generalizing w with
  | nil => exact he
  | cons output rest ih =>
    have before := ih (w := World.applyOutput message w output) he
    cases output with
    | dispatch event => exact data_of_dispatch (w := w.record (.user event)) (by simp) before hdata
    | disconnect => exact data_of_dispatch (by simp) before hdata
    | _ => exact before

theorem data_of_hub {a : HubAction} (h : HubMoved w a w') (he : e ∈ w'.bus)
    (hdata : e.event = .data packet receipt) : e ∈ w.bus := by
  cases h with
  | @intro input message taken hub outputs htakes hmove =>
    have before : e ∈ taken.bus := data_of_applyOutputs (w := { taken with hub := hub }) he hdata
    cases htakes with
    | connecting htake => exact PairFifo.mem_rest_of_take htake before
    | command htake => exact PairFifo.mem_rest_of_take htake before
    | network htake => exact PairFifo.mem_rest_of_take htake before
    | clientData htake => exact PairFifo.mem_rest_of_take htake before
    | hubMsg htake => exact PairFifo.mem_rest_of_take htake before
    | _ => exact before

theorem data_of_network {n : Nat} {network : Network} {a : NetworkAction}
    (h : NetworkMoved w n network a w') (he : e ∈ w'.bus)
    (hdata : e.event = .data packet receipt) : e ∈ w.bus := by
  cases h with
  | connected hstate => exact data_of_dispatch (by simp) he hdata
  | connectFail hstate => exact data_of_dispatch (by simp) he hdata
  | @read packet message rest hstate hfrom =>
    cases packet with
    | ConnAck => exact he
    | _ => exact data_of_dispatch (by simp) he hdata
  | readErr hstate => exact data_of_dispatch (by simp) he hdata
  | takeDisconnect hstate htake => exact PairFifo.mem_rest_of_take htake he
  | write hstate htake => exact PairFifo.mem_rest_of_take htake he
  | @writeErr j msg sender sent r message rest hstate htake =>
    exact PairFifo.mem_rest_of_take htake
      (data_of_dispatch (w := { w with bus := rest }) (by simp) he hdata)
  | writeDisconnect hstate => exact he
  | writeDisconnectErr hstate => exact data_of_dispatch (by simp) he hdata

/-- Data gets on the bus only by a send of a task or of a ping. -/
theorem data_of_moved (h : Moved w action w') (he : e ∈ w'.bus)
    (hdata : e.event = .data packet receipt) :
    e ∈ w.bus ∨ Sends w action packet ∧ Fresh w (speaker action) packet receipt e ∧
      w'.receipts = w.receipts ++ [0] := by
  have sent {sender : Worker} {data : Outgoing} (he : e ∈ (w.send sender data).bus)
      (hsender : speaker action = sender) (hsends : Sends w action data)
      (hreceipts : w'.receipts = w.receipts ++ [0]) :
      e ∈ w.bus ∨ Sends w action packet ∧ Fresh w (speaker action) packet receipt e ∧
        w'.receipts = w.receipts ++ [0] := by
    rcases data_of_send he hdata with hold | ⟨rfl, hfresh⟩
    · exact .inl hold
    · exact .inr ⟨hsends, hsender ▸ hfresh, hreceipts⟩
  cases h with
  | request => exact .inl (data_of_dispatch (by simp) he hdata)
  | command => exact .inl (data_of_dispatch (by simp) he hdata)
  | hub h => exact .inl (data_of_hub h he hdata)
  | task hget h =>
    cases h with
    | sendFirst hphase hprog => exact sent he rfl (.task hget (by simp [sends, hphase, hprog])) rfl
    | sendOnly hphase hprog => exact sent he rfl (.task hget (by simp [sends, hphase, hprog])) rfl
    | sendAgain hphase hprog => exact sent he rfl (.task hget (by simp [sends, hphase, hprog])) rfl
    | dispatch hphase hprog => exact .inl (data_of_dispatch (by simp) he hdata)
    | @txToUser msg rest hphase hprog =>
      exact .inl (data_of_dispatch (w := w.record _) (by simp) he hdata)
    | acked hphase hprog htake hrel => exact .inl (PairFifo.mem_rest_of_take htake he)
    | skipped hphase hprog htake hrel => exact .inl (PairFifo.mem_rest_of_take htake he)
    | _ => exact .inl he
  | ping hget h =>
    cases h with
    | send => exact sent he rfl (.ping hget) rfl
    | recv htake hreceiver => exact .inl (PairFifo.mem_rest_of_take htake he)
    | failing => exact .inl (data_of_dispatch (by simp) he hdata)
    | finalFail => exact .inl (data_of_dispatch (by simp) he hdata)
    | succeed => exact .inl (data_of_dispatch (by simp) he hdata)
    | _ => exact .inl he
  | timer hget => exact .inl (data_of_dispatch (by simp) he hdata)
  | network hget h => exact .inl (data_of_network h he hdata)
  | brokerRecv hget hto => exact .inl he
  | brokerSend hget => exact .inl he

end Data

/-! ## The steps of a task -/

section OneTask

variable {w w' : World} {i : Nat} {task : Task} {a : TaskAction}

/-- A task sends, has its receipt and waits, goes on behind its first await, or stays. -/
inductive TaskStep (w : World) (i : Nat) (task : Task) (a : TaskAction) (w' : World) : Prop where
  | sent (packet : Outgoing) (hsends : sends task a = some packet)
      (hw : w' = (w.send (.task i) packet).setTask i
        { task with phase := .sending w.receipts.length })
  | waits (receipt : Nat) (hsends : sends task a = none) (hphase : task.phase = .sending receipt)
      (hdone : w.receiptDone receipt = true)
      (htasks : w'.tasks = w.tasks.set i { task with phase := .waiting })
  | left (after : Task) (hsends : sends task a = none) (htasks : w'.tasks = w.tasks.set i after)
      (hspec : after.spec = task.spec) (hprog : after.prog ≠ task.spec.run)
  | same (hsends : sends task a = none) (htasks : w'.tasks = w.tasks)

theorem run_ne_nil (spec : TaskSpec) : spec.run ≠ [] := by
  cases spec <;> exact List.cons_ne_nil _ _

theorem tail_ne_run (htrack : task.prog <:+ task.spec.run) {instr : Instr} {rest : List Instr}
    (hprog : task.prog = instr :: rest) : rest ≠ task.spec.run := by
  intro heq
  have bound := htrack.length_le
  rw [hprog, ← heq, List.length_cons] at bound
  omega

theorem taskStep_of_moved (htrack : task.prog <:+ task.spec.run)
    (h : TaskMoved w i task a w') : TaskStep w i task a w' := by
  cases h with
  | sendFirst hphase hprog => exact .sent _ (by simp [sends, hphase, hprog]) rfl
  | sendOnly hphase hprog => exact .sent _ (by simp [sends, hphase, hprog]) rfl
  | sendAgain hphase hprog => exact .sent _ (by simp [sends, hphase, hprog]) rfl
  | dispatch hphase hprog =>
    exact .left _ (by simp [sends, hphase, hprog]) rfl rfl (tail_ne_run htrack hprog)
  | txToUser hphase hprog =>
    exact .left _ (by simp [sends, hphase, hprog]) rfl rfl (tail_ne_run htrack hprog)
  | transmitted hphase hprog hdone => exact .waits _ rfl hphase hdone rfl
  | sent hphase hprog hdone => exact .left _ rfl rfl rfl (tail_ne_run htrack hprog)
  | died hphase hlost => exact .left _ rfl rfl rfl (run_ne_nil _).symm
  | acked hphase hprog htake hrel => exact .left _ rfl rfl rfl (tail_ne_run htrack hprog)
  | skipped hphase hprog htake hrel => exact .same rfl rfl

/-- The packets of an await. -/
def packets : Instr → List Outgoing
  | .transmit data dupData _ => [data, dupData]
  | .send data => [data]
  | _ => []

/-- The first await of a publish. -/
def Opens (original : Publish) (instr : Instr) : Prop :=
  instr = .send (.Publish original) ∨ ∃ packetId, instr = transmitPublish original packetId

theorem run_of_published {spec : TaskSpec} {original : Publish}
    (hpublished : published spec = some original) :
    ∃ first tail, spec.run = first :: tail ∧ Opens original first ∧
      ∀ instr ∈ tail, packets instr = [] := by
  cases spec with
  | PublishQos0 trace =>
    cases hpublished
    exact ⟨_, _, rfl, .inl rfl, by simp [packets]⟩
  | PublishQos1 trace =>
    cases hpublished
    exact ⟨_, _, rfl, .inr ⟨_, rfl⟩, by simp [packets]⟩
  | PublishQos2 trace =>
    cases hpublished
    exact ⟨_, _, rfl, .inr ⟨_, rfl⟩, by simp [packets]⟩
  | _ => cases hpublished

theorem run_of_unpublished {spec : TaskSpec} (hpublished : published spec = none) {instr : Instr}
    (hmem : instr ∈ spec.run) (publish : Publish) : .Publish publish ∉ packets instr := by
  cases spec with
  | PublishQos0 trace => cases hpublished
  | PublishQos1 trace => cases hpublished
  | PublishQos2 trace => cases hpublished
  | _ =>
    simp only [TaskSpec.run, List.mem_cons, List.not_mem_nil, or_false] at hmem
    rcases hmem with rfl | rfl | rfl | rfl <;> simp [packets]

/-- Only the first await of a publish has PUBLISH packets. -/
theorem head_of_track {spec : TaskSpec} {instr : Instr} {rest : List Instr}
    (htrack : instr :: rest <:+ spec.run) {publish : Publish}
    (hpacket : .Publish publish ∈ packets instr) :
    ∃ original, published spec = some original ∧ instr :: rest = spec.run ∧
      Opens original instr := by
  cases hpublished : published spec with
  | none =>
    exact absurd hpacket (run_of_unpublished hpublished (htrack.subset List.mem_cons_self) publish)
  | some original =>
    obtain ⟨first, tail, hrun, hopens, htail⟩ := run_of_published hpublished
    rw [hrun] at htrack ⊢
    rcases List.suffix_cons_iff.mp htrack with hwhole | hpart
    · cases hwhole
      exact ⟨original, rfl, rfl, hopens⟩
    · rw [htail instr (hpart.subset List.mem_cons_self)] at hpacket
      cases hpacket

/-- A task sends the packet of its first await, or the other one after a timeout. -/
theorem sends_head {packet : Outgoing} (hsends : sends task a = some packet) :
    ∃ instr rest, task.prog = instr :: rest ∧
      (task.phase = .ready ∧
          (instr = .send packet ∨ ∃ dupData packetId, instr = .transmit packet dupData packetId) ∨
        task.phase = .waiting ∧ ∃ data packetId, instr = .transmit data packet packetId) := by
  unfold sends at hsends
  split at hsends
  · split at hsends
    · next hphase hprog =>
      cases hsends
      exact ⟨_, _, hprog, .inl ⟨hphase, .inr ⟨_, _, rfl⟩⟩⟩
    · next hphase hprog =>
      cases hsends
      exact ⟨_, _, hprog, .inl ⟨hphase, .inl rfl⟩⟩
    · cases hsends
  · split at hsends
    · next hphase hprog =>
      cases hsends
      exact ⟨_, _, hprog, .inr ⟨hphase, _, _, rfl⟩⟩
    · cases hsends
  · cases hsends

/-- A PUBLISH is sent as it is at first, and with DUP set by every timeout. -/
theorem sends_publish (htrack : task.prog <:+ task.spec.run) {publish : Publish}
    (hsends : sends task a = some (.Publish publish)) :
    ∃ original, published task.spec = some original ∧ task.prog = task.spec.run ∧
      (task.phase = .ready ∧ publish = original ∨
        task.phase = .waiting ∧ publish = { original with dup := true }) := by
  obtain ⟨instr, rest, hprog, hhead⟩ := sends_head hsends
  rw [hprog] at htrack ⊢
  have hpacket : .Publish publish ∈ packets instr := by
    rcases hhead with ⟨_, rfl | ⟨_, _, rfl⟩⟩ | ⟨_, _, _, rfl⟩ <;> simp [packets]
  obtain ⟨original, hpublished, hrun, hopens⟩ := head_of_track htrack hpacket
  refine ⟨original, hpublished, hrun, ?_⟩
  rcases hhead with ⟨hphase, rfl | ⟨_, _, rfl⟩⟩ | ⟨hphase, _, _, rfl⟩
  · rcases hopens with heq | ⟨_, heq⟩ <;> cases heq
    exact .inl ⟨hphase, rfl⟩
  · rcases hopens with heq | ⟨_, heq⟩ <;> cases heq
    exact .inl ⟨hphase, rfl⟩
  · rcases hopens with heq | ⟨_, heq⟩ <;> cases heq
    exact .inr ⟨hphase, rfl⟩

/-- The task of a publish sends nothing else. -/
theorem sends_of_published (htrack : task.prog <:+ task.spec.run) {original : Publish}
    (hpublished : published task.spec = some original) {packet : Outgoing}
    (hsends : sends task a = some packet) : ∃ publish, packet = .Publish publish := by
  obtain ⟨instr, rest, hprog, hhead⟩ := sends_head hsends
  obtain ⟨first, tail, hrun, hopens, htail⟩ := run_of_published hpublished
  have hpacket : packet ∈ packets instr := by
    rcases hhead with ⟨_, rfl | ⟨_, _, rfl⟩⟩ | ⟨_, _, _, rfl⟩ <;> simp [packets]
  rw [hprog, hrun] at htrack
  rcases List.suffix_cons_iff.mp htrack with hwhole | hpart
  · obtain rfl := (List.cons.inj hwhole).1
    rcases hopens with rfl | ⟨packetId, rfl⟩
    · exact ⟨_, List.mem_singleton.mp hpacket⟩
    · simp only [transmitPublish, packets, List.mem_cons, List.not_mem_nil, or_false] at hpacket
      rcases hpacket with rfl | rfl <;> exact ⟨_, rfl⟩
  · rw [htail instr (hpart.subset List.mem_cons_self)] at hpacket
    cases hpacket

end OneTask

/-! ## The packets of one task -/

/-- What task `i` handed over, oldest first. -/
def mine (i : Nat) (handed : List Handing) : List Publish :=
  (handed.filter (fun h => h.task = i)).map (·.publish)

/-- The publish itself, and behind it copies with DUP set. -/
def Copies (original : Publish) : List Publish → Prop
  | [] => True
  | first :: later => first = original ∧ ∀ publish ∈ later, publish = { original with dup := true }

/-- The data of the receipt reached no queue, and no network task will signal it. -/
def Lost (w : World) (receipt : Nat) : Prop :=
  w.receipts[receipt]? = some 0 ∧ ∀ e ∈ w.bus, ∀ packet, e.event ≠ .data packet receipt

/-- A task that is at its first await has handed over its publish unless it has not
begun, or is stuck with a send that reached nobody. -/
structure Sender (t : Traced) (i : Nat) (task : Task) (original : Publish) : Prop where
  copies : Copies original (mine i t.handed)
  fresh : task.prog = task.spec.run → task.phase = .ready → mine i t.handed = []
  begun : task.prog = task.spec.run → task.phase ≠ .ready → mine i t.handed = [] →
    ∃ receipt, task.phase = .sending receipt ∧ Lost t.world receipt

structure Background (t : Traced) : Prop where
  base : Handshake.Background t.world
  track : OnTrack t.world
  drawn : ∀ e ∈ t.world.bus, ∀ packet receipt, e.event = .data packet receipt →
    receipt < t.world.receipts.length
  senders : ∀ i task original, t.world.tasks[i]? = some task →
    published task.spec = some original → Sender t i task original
  known : ∀ h ∈ t.handed, ∃ task original, t.world.tasks[h.task]? = some task ∧
    published task.spec = some original
  stands : ∀ entry ∈ t.world.hub.clientData, published entry.toAcknowledge ≠ none →
    latest entry.packetId t.world.log = some entry
  sourced : ∀ i task, t.world.tasks[i]? = some task → published task.spec ≠ none →
    ∃ o, origin i t.world.log = some o ∧ Asked t.world.log o i task.spec

section Steps

variable {w w' : World} {t t' : Traced} {action : Action} {i : Nat}

theorem mine_append (i : Nat) (handed more : List Handing) :
    mine i (handed ++ more) = mine i handed ++ mine i more := by
  rw [mine, mine, mine, List.filter_append, List.map_append]

theorem mem_mine {h : Handing} {handed : List Handing} (hh : h ∈ handed) :
    h.publish ∈ mine h.task handed :=
  List.mem_map_of_mem (List.mem_filter.mpr ⟨hh, decide_eq_true rfl⟩)

theorem copies_append {original publish : Publish} {packets : List Publish}
    (h : Copies original packets) (hnonempty : packets ≠ [])
    (hpublish : publish = { original with dup := true }) :
    Copies original (packets ++ [publish]) := by
  cases packets with
  | nil => exact absurd rfl hnonempty
  | cons first later =>
    refine ⟨h.1, ?_⟩
    intro q hq
    rcases List.mem_append.mp hq with hold | hnew
    · exact h.2 q hold
    · rw [List.mem_singleton.mp hnew]
      exact hpublish

theorem step_spec (h : t.step action = some t') :
    Moved t.world action t'.world ∧ t'.handed = t.handed ++ (handing t.world action).toList := by
  obtain ⟨world, hstep, rfl⟩ := Option.map_eq_some_iff.mp h
  exact ⟨moved_of_step hstep, rfl⟩

/-- What is handed over comes from a task of a publish at its first await. -/
theorem handing_spec (htrack : OnTrack w) {h : Handing} (hh : handing w action = some h) :
    ∃ task a original, action = .task h.task a ∧ w.tasks[h.task]? = some task ∧
      sends task a = some (.Publish h.publish) ∧ h.networks = live w ∧ live w ≠ [] ∧
      published task.spec = some original ∧ task.prog = task.spec.run ∧
      (task.phase = .ready ∧ h.publish = original ∨
        task.phase = .waiting ∧ h.publish = { original with dup := true }) := by
  cases action with
  | task i a =>
    simp only [handing] at hh
    split at hh
    · next publish hsends =>
      split at hh
      · cases hh
      · next hlive =>
        obtain rfl := Option.some.inj hh
        obtain ⟨task, hget, hsends⟩ := Option.bind_eq_some_iff.mp hsends
        obtain ⟨original, hpublished, hprog, hpacket⟩ := sends_publish (htrack i task hget) hsends
        exact ⟨task, a, original, rfl, hget, hsends, rfl, hlive, hpublished, hprog, hpacket⟩
    · cases hh
  | _ => cases hh

theorem lost_of_moved (h : Moved w action w') {receipt : Nat} (hlost : Lost w receipt) :
    Lost w' receipt := by
  obtain ⟨hzero, hbus⟩ := hlost
  constructor
  · rcases Orphans.receipt_of_moved h hzero with hsame | ⟨_, hpos⟩
    · exact hsame
    · obtain ⟨e, he, hcarries⟩ := List.countP_pos_iff.mp hpos
      cases hevent : e.event with
      | data packet r =>
        simp only [Orphans.carries, hevent, beq_iff_eq] at hcarries
        exact absurd (hcarries ▸ hevent) (hbus e he packet)
      | _ => simp [Orphans.carries, hevent] at hcarries
  · intro e he packet hevent
    rcases data_of_moved h he hevent with hold | ⟨_, hfresh, _⟩
    · exact hbus e hold packet hevent
    · have := (List.getElem?_eq_some_iff.mp hzero).1
      have := hfresh.receipt
      omega

/-- A step starts only tasks with new indices. -/
theorem origin_of_moved (h : Moved w action w') (hi : i < w.tasks.length) :
    origin i w'.log = origin i w.log := by
  rcases hub_or_not h with ⟨a, rfl, hmoved⟩ | notHub
  · cases hmoved with
    | @intro input message taken hub outputs htakes hmove =>
      obtain ⟨events, hlog, hinside⟩ := log_of_takes htakes hub outputs
      rw [hlog]
      apply origin_append
      rintro event hevent spec rfl
      cases hinside _ hevent with
      | started hle _ => omega
  · obtain ⟨events, hlog, houtside⟩ := log_outside h notHub
    rw [hlog]
    apply origin_append
    rintro event hevent spec rfl
    cases houtside _ hevent

theorem stands_of_moved (hI : Background t) (h : Moved t.world action w')
    {entry : UnacknowledgedClientData} (hmem : entry ∈ w'.hub.clientData)
    (hpublished : published entry.toAcknowledge ≠ none) :
    latest entry.packetId w'.log = some entry := by
  have kept (events : List Event) (hlog : w'.log = events ++ t.world.log)
      (hquiet : ∀ event ∈ events, requestUnder entry.packetId event = none)
      (hold : entry ∈ t.world.hub.clientData) : latest entry.packetId w'.log = some entry := by
    rw [hlog]
    exact (latest_append hquiet).trans (hI.stands entry hold hpublished)
  rcases hub_or_not h with ⟨a, rfl, hmoved⟩ | notHub
  · cases hub_history hI.base.ids hmoved with
    | accepts added request hunused hdata htasks hlog =>
      rw [hdata] at hmem
      rcases List.mem_append.mp hmem with hold | hnew
      · refine kept [_, _, _] hlog ?_ hold
        simp [requestUnder, Ne.symm (hunused entry hold)]
      · obtain rfl := List.mem_singleton.mp hnew
        have hquiet : ∀ event ∈ [Event.started t.world.tasks.length entry.toAcknowledge],
            requestUnder entry.packetId event = none := by simp [requestUnder]
        rw [hlog]
        exact (latest_append hquiet).trans (latest_accepted entry _)
    | resends added _ hdata htasks hlog =>
      exact kept [_] hlog (by simp [requestUnder]) (hdata ▸ hmem)
    | qos0 packet request hdata htasks hlog =>
      exact kept [_, _] hlog (by simp [requestUnder]) (hdata ▸ hmem)
    | other events specs hquiet _ _ hdata _ hlog =>
      exact kept events hlog (fun event hevent => hquiet event hevent _)
        (hdata entry hmem hpublished)
  · obtain ⟨events, hlog, houtside⟩ := log_outside h notHub
    rw [(hub_of_moved h notHub).1] at hmem
    exact kept events hlog (fun event hevent => quiet_of_outside (houtside event hevent) _) hmem

theorem last_task {spec : TaskSpec} (htasks : w'.tasks = w.tasks ++ [.init spec]) {task : Task}
    (hget : w'.tasks[i]? = some task) (hi : w.tasks.length ≤ i) :
    i = w.tasks.length ∧ task = .init spec := by
  have bound := (List.getElem?_eq_some_iff.mp hget).1
  rw [htasks, List.length_append, List.length_singleton] at bound
  obtain rfl : i = w.tasks.length := by omega
  rw [htasks, List.getElem?_append_right (Nat.le_refl _), Nat.sub_self] at hget
  exact ⟨rfl, (Option.some.inj hget).symm⟩

/-- A publish is started for a request taken in by this step, or for its entry. -/
theorem origin_of_started (hI : Background t) (h : Moved t.world action w') {task : Task}
    (hget : w'.tasks[i]? = some task) (hi : t.world.tasks.length ≤ i)
    (hpublished : published task.spec ≠ none) :
    ∃ o, origin i w'.log = some o ∧ Asked w'.log o i task.spec ∧
      (t.world.log.length < o ∨ ∃ entry ∈ t.world.hub.clientData,
        entry.toAcknowledge = task.spec ∧ takenInAt entry.packetId t.world.log = o) := by
  rcases hub_or_not h with ⟨a, rfl, hmoved⟩ | notHub
  · cases hub_history hI.base.ids hmoved with
    | accepts entry request _ _ htasks hlog =>
      obtain ⟨rfl, rfl⟩ := last_task htasks hget hi
      rw [hlog]
      refine ⟨_, origin_started _ _, ?_, .inl ?_⟩
      · rw [startedFor_entry hpublished]
        exact (asked_of_latest (latest_accepted entry _) _).append [_]
      · rw [startedFor_entry hpublished, takenInAt_accepted, List.length_cons]
        omega
    | resends entry hmem _ htasks hlog =>
      obtain ⟨rfl, rfl⟩ := last_task htasks hget hi
      rw [hlog]
      refine ⟨_, origin_started _ _, ?_, .inr ⟨entry, hmem, rfl, ?_⟩⟩
      · rw [startedFor_entry hpublished]
        exact (asked_of_latest (hI.stands entry hmem hpublished) _).append [_]
      · exact (startedFor_entry hpublished _).symm
    | qos0 packet request _ htasks hlog =>
      obtain ⟨rfl, rfl⟩ := last_task htasks hget hi
      rw [hlog]
      exact ⟨_, origin_started _ _, ⟨[], _, _, rfl, rfl, .inl rfl⟩,
        .inl (Nat.lt_succ_of_le (Nat.le_succ _))⟩
    | other events specs _ _ hspecs _ htasks _ =>
      rw [htasks, List.getElem?_append_right hi, List.getElem?_map] at hget
      obtain ⟨spec, hspec, rfl⟩ := Option.map_eq_some_iff.mp hget
      exact absurd (hspecs spec (List.mem_of_getElem? hspec)) hpublished
  · have := tasks_length_of_outside h notHub
    have := (List.getElem?_eq_some_iff.mp hget).1
    omega

/-- What an action hands over, it does not hand over for another task. -/
theorem mine_of_other (htrack : OnTrack w) (hother : ∀ a, action ≠ .task i a) :
    mine i (handing w action).toList = [] := by
  cases hh : handing w action with
  | none => rfl
  | some h =>
    obtain ⟨_, a, _, rfl, _⟩ := handing_spec htrack hh
    have hne : h.task ≠ i := by
      rintro rfl
      exact hother a rfl
    simp [mine, hne]

theorem mine_unknown (hI : Background t) (hi : t.world.tasks.length ≤ i) :
    mine i t.handed = [] := by
  rw [mine, List.map_eq_nil_iff, List.filter_eq_nil_iff]
  intro h hh heq
  obtain ⟨task, _, hget, _⟩ := hI.known h hh
  have := (List.getElem?_eq_some_iff.mp hget).1
  have : h.task = i := of_decide_eq_true heq
  omega

theorem Sender.carry {task : Task} {original : Publish} (hsender : Sender t i task original)
    (hmoved : Moved t.world action t'.world) (hmine : mine i t'.handed = mine i t.handed) :
    Sender t' i task original := by
  refine ⟨hmine ▸ hsender.copies, fun hprog hphase => hmine ▸ hsender.fresh hprog hphase, ?_⟩
  intro hprog hphase hempty
  obtain ⟨receipt, hsending, hlost⟩ := hsender.begun hprog hphase (hmine ▸ hempty)
  exact ⟨receipt, hsending, lost_of_moved hmoved hlost⟩

theorem begun_of_waiting {task : Task} {original : Publish} (hsender : Sender t i task original)
    (hprog : task.prog = task.spec.run) (hphase : task.phase = .waiting) :
    mine i t.handed ≠ [] := by
  intro hempty
  obtain ⟨receipt, hsending, _⟩ := hsender.begun hprog (by simp [hphase]) hempty
  cases hphase.symm.trans hsending

/-- A send while no network task is live is lost. -/
theorem lost_of_send (hI : Background t) (hmoved : Moved t.world action t'.world)
    (hreceipts : t'.world.receipts = t.world.receipts ++ [0]) (hlive : live t.world = []) :
    Lost t'.world t.world.receipts.length := by
  constructor
  · rw [hreceipts, List.getElem?_append_right (Nat.le_refl _), Nat.sub_self]
    rfl
  · intro e he packet hevent
    rcases data_of_moved hmoved he hevent with hold | ⟨_, hfresh, _⟩
    · exact Nat.lt_irrefl _ (hI.drawn e hold packet _ hevent)
    · obtain ⟨n, hn, _⟩ := hfresh.receiver
      rw [← mem_live, hlive] at hn
      cases hn

/-- The send of a task of a publish. -/
theorem sender_of_send (hI : Background t) (hmoved : Moved t.world action t'.world)
    (hhanded : t'.handed = t.handed ++ (handing t.world action).toList) {a : TaskAction}
    (haction : action = .task i a) {task : Task} (hget : t.world.tasks[i]? = some task)
    {original : Publish} (hpublished : published task.spec = some original)
    (hsender : Sender t i task original) {packet : Outgoing}
    (hsends : sends task a = some packet)
    (hreceipts : t'.world.receipts = t.world.receipts ++ [0]) :
    Sender t' i { task with phase := .sending t.world.receipts.length } original := by
  subst haction
  have htrack := hI.track i task hget
  obtain ⟨publish, rfl⟩ := sends_of_published htrack hpublished hsends
  obtain ⟨original', hpublished', hprog, hpacket⟩ := sends_publish htrack hsends
  cases hpublished.symm.trans hpublished'
  by_cases hlive : live t.world = []
  · have nothing : handing t.world (.task i a) = none := by
      simp [handing, hget, hsends, hlive]
    have same : mine i t'.handed = mine i t.handed := by
      rw [hhanded, nothing]
      exact congrArg (mine i) (List.append_nil _)
    exact ⟨same ▸ hsender.copies, nofun, fun _ _ _ =>
      ⟨_, rfl, lost_of_send hI hmoved hreceipts hlive⟩⟩
  · have handed : handing t.world (.task i a) = some ⟨i, publish, live t.world⟩ := by
      simp [handing, hget, hsends, hlive]
    have more : mine i t'.handed = mine i t.handed ++ [publish] := by
      rw [hhanded, handed, mine_append]
      simp [mine]
    refine ⟨?_, nofun, fun _ _ hempty => ?_⟩
    · rw [more]
      rcases hpacket with ⟨hphase, rfl⟩ | ⟨hphase, hdup⟩
      · rw [hsender.fresh hprog hphase]
        exact ⟨rfl, fun _ h => absurd h List.not_mem_nil⟩
      · exact copies_append hsender.copies (begun_of_waiting hsender hprog hphase) hdup
    · rw [more] at hempty
      exact absurd hempty (List.append_ne_nil_of_right_ne_nil _ (List.cons_ne_nil _ _))

/-- The step of a task of a publish. -/
theorem sender_of_own (hI : Background t) (hmoved : Moved t.world action t'.world)
    (hhanded : t'.handed = t.handed ++ (handing t.world action).toList) {a : TaskAction}
    (haction : action = .task i a) {task task' : Task} (hget : t.world.tasks[i]? = some task)
    (hget' : t'.world.tasks[i]? = some task') {original : Publish}
    (hpublished : published task.spec = some original) (hsender : Sender t i task original) :
    Sender t' i task' original := by
  have hlt := (List.getElem?_eq_some_iff.mp hget).1
  have htrack := hI.track i task hget
  have silent (hnone : sends task a = none) : mine i t'.handed = mine i t.handed := by
    have nothing : handing t.world action = none := by simp [handing, haction, hget, hnone]
    rw [hhanded, nothing]
    exact congrArg (mine i) (List.append_nil _)
  have becomes {after : Task} (htasks : t'.world.tasks = t.world.tasks.set i after) :
      after = task' := by
    rw [htasks, List.getElem?_set_self hlt] at hget'
    exact Option.some.inj hget'
  have hwhole := hmoved
  subst haction
  cases hmoved with
  | task hget₀ hmoved' =>
    cases hget.symm.trans hget₀
    cases taskStep_of_moved htrack hmoved' with
    | sent packet hsends hw =>
      rw [← becomes (congrArg World.tasks hw)]
      exact sender_of_send hI hwhole hhanded rfl hget hpublished hsender hsends
        (congrArg World.receipts hw)
    | waits receipt hnone hphase hdone htasks =>
      rw [← becomes htasks]
      refine ⟨silent hnone ▸ hsender.copies, nofun, ?_⟩
      intro hprog _ hempty
      rw [silent hnone] at hempty
      obtain ⟨r, hsending, hlost⟩ := hsender.begun hprog (by simp [hphase]) hempty
      cases hphase.symm.trans hsending
      simp [World.receiptDone, hlost.1] at hdone
    | left after hnone htasks hspec hprog =>
      rw [← becomes htasks]
      exact ⟨silent hnone ▸ hsender.copies, fun hrun => absurd (hspec ▸ hrun) hprog,
        fun hrun => absurd (hspec ▸ hrun) hprog⟩
    | same hnone htasks =>
      rw [htasks, hget] at hget'
      obtain rfl := Option.some.inj hget'
      exact hsender.carry hwhole (silent hnone)

theorem senders_of_moved (hI : Background t) (hmoved : Moved t.world action t'.world)
    (hhanded : t'.handed = t.handed ++ (handing t.world action).toList) {task' : Task}
    (hget' : t'.world.tasks[i]? = some task') {original : Publish}
    (hpublished : published task'.spec = some original) : Sender t' i task' original := by
  by_cases hown : ∃ a, action = .task i a
  · obtain ⟨a, haction⟩ := hown
    rcases task_before hmoved hget' with ⟨task, hget, hspec, _⟩ | ⟨hnew, _⟩
    · rw [hspec] at hpublished
      exact sender_of_own hI hmoved hhanded haction hget hget' hpublished
        (hI.senders i task original hget hpublished)
    · rw [haction] at hmoved
      cases hmoved with
      | task hget _ => exact absurd (List.getElem?_eq_some_iff.mp hget).1 (by omega)
  · have hother : ∀ a, action ≠ .task i a := fun a ha => hown ⟨a, ha⟩
    have same : mine i t'.handed = mine i t.handed := by
      rw [hhanded, mine_append, mine_of_other hI.track hother, List.append_nil]
    by_cases hi : i < t.world.tasks.length
    · have stays : t'.world.tasks[i]? = t.world.tasks[i]? := by
        rcases hub_or_not hmoved with ⟨a, rfl, hhub⟩ | notHub
        · obtain ⟨specs, htasks⟩ := tasks_of_hub hhub
          rw [htasks, List.getElem?_append_left hi]
        · exact task_of_other hmoved notHub hother
      rw [stays] at hget'
      exact (hI.senders i task' original hget' hpublished).carry hmoved same
    · have empty : mine i t'.handed = [] := same.trans (mine_unknown hI (by omega))
      rcases task_before hmoved hget' with ⟨task, hget, _⟩ | ⟨_, spec, rfl⟩
      · exact absurd (List.getElem?_eq_some_iff.mp hget).1 hi
      · refine ⟨?_, fun _ _ => empty, fun _ hphase => absurd rfl hphase⟩
        rw [empty]
        trivial

theorem background_of_step (hI : Background t) (hstep : t.step action = some t') :
    Background t' := by
  obtain ⟨hmoved, hhanded⟩ := step_spec hstep
  refine ⟨Handshake.background_of_moved hmoved hI.base, onTrack_of_moved hmoved hI.track, ?_,
    fun i task original hget hpublished => senders_of_moved hI hmoved hhanded hget hpublished,
    ?_, fun entry hmem hpublished => stands_of_moved hI hmoved hmem hpublished, ?_⟩
  · intro e he packet receipt hevent
    rcases data_of_moved hmoved he hevent with hold | ⟨_, hfresh, hreceipts⟩
    · have hlt := hI.drawn e hold packet receipt hevent
      rcases Orphans.receipt_of_moved hmoved (List.getElem?_eq_getElem hlt) with hsame | ⟨hnext, _⟩
      · exact (List.getElem?_eq_some_iff.mp hsame).1
      · exact (List.getElem?_eq_some_iff.mp hnext).1
    · rw [hreceipts, List.length_append, hfresh.receipt]
      exact Nat.lt_succ_self _
  · intro h hh
    have named : ∃ task original, t.world.tasks[h.task]? = some task ∧
        published task.spec = some original := by
      rw [hhanded] at hh
      rcases List.mem_append.mp hh with hold | hnew
      · exact hI.known h hold
      · obtain ⟨task, _, original, _, hget, _, _, _, hpublished, _⟩ :=
          handing_spec hI.track (Option.mem_toList.mp hnew)
        exact ⟨task, original, hget, hpublished⟩
    obtain ⟨task, original, hget, hpublished⟩ := named
    obtain ⟨task', hget', hspec⟩ := spec_of_moved hmoved hget
    exact ⟨task', original, hget', hspec ▸ hpublished⟩
  · intro i task hget hpublished
    rcases task_before hmoved hget with ⟨before, hbefore, hspec, _⟩ | ⟨hnew, _⟩
    · obtain ⟨o, ho, hasked⟩ := hI.sourced i before hbefore (hspec ▸ hpublished)
      obtain ⟨events, hlog⟩ := log_grows hmoved
      refine ⟨o, ?_, ?_⟩
      · rw [origin_of_moved hmoved (List.getElem?_eq_some_iff.mp hbefore).1]
        exact ho
      · rw [← hlog, hspec]
        exact hasked.append events
    · obtain ⟨o, ho, hasked, _⟩ := origin_of_started hI hmoved hget hnew hpublished
      exact ⟨o, ho, hasked⟩

/-- What was handed over keeps its request. -/
theorem origin_of_handed (hI : Background t) (hstep : t.step action = some t') {h : Handing}
    (hh : h ∈ t'.handed) : origin h.task t'.world.log = origin h.task t.world.log := by
  obtain ⟨hmoved, hhanded⟩ := step_spec hstep
  apply origin_of_moved hmoved
  rw [hhanded] at hh
  rcases List.mem_append.mp hh with hold | hnew
  · obtain ⟨task, _, hget, _⟩ := hI.known h hold
    exact (List.getElem?_eq_some_iff.mp hget).1
  · obtain ⟨task, _, _, _, hget, _⟩ := handing_spec hI.track (Option.mem_toList.mp hnew)
    exact (List.getElem?_eq_some_iff.mp hget).1

theorem publish_of_handed (hI : Background t) {h : Handing} (hh : h ∈ t.handed) :
    ∃ task original, t.world.tasks[h.task]? = some task ∧ published task.spec = some original ∧
      (h.publish = original ∨ h.publish = { original with dup := true }) := by
  obtain ⟨task, original, hget, hpublished⟩ := hI.known h hh
  refine ⟨task, original, hget, hpublished, ?_⟩
  have copies := (hI.senders h.task task original hget hpublished).copies
  have hmine := mem_mine hh
  cases heq : mine h.task t.handed with
  | nil =>
    rw [heq] at hmine
    cases hmine
  | cons first later =>
    rw [heq] at hmine copies
    rcases List.mem_cons.mp hmine with hfirst | hlater
    · exact .inl (hfirst.trans copies.1)
    · exact .inr (copies.2 _ hlater)

/-- Tasks that go back to one request were started with the same spec. -/
theorem spec_of_origin (hI : Background t) {k o : Nat} {task task' : Task}
    (hget : t.world.tasks[i]? = some task) (hget' : t.world.tasks[k]? = some task')
    (hpublished : published task.spec ≠ none) (hpublished' : published task'.spec ≠ none)
    (ho : origin i t.world.log = some o) (ho' : origin k t.world.log = some o) :
    task.spec = task'.spec := by
  obtain ⟨_, hsame, newer, event, older, hlog, hat, hevent⟩ := hI.sourced i task hget hpublished
  cases ho.symm.trans hsame
  obtain ⟨_, hsame', newer', event', older', hlog', hat', hevent'⟩ :=
    hI.sourced k task' hget' hpublished'
  cases ho'.symm.trans hsame'
  have hsplit : event = event' := by
    have heq : newer ++ event :: older = newer' ++ event' :: older' := hlog.symm.trans hlog'
    exact (List.cons.inj (List.append_inj_right' heq (by simp; omega))).1
  subst hsplit
  rcases hevent with rfl | ⟨entry, rfl, hspec⟩
  · rcases hevent' with heq | ⟨_, heq, _⟩
    · injection heq
    · cases heq
  · rcases hevent' with heq | ⟨_, heq, hspec'⟩
    · cases heq
    · cases heq
      exact hspec.symm.trans hspec'

theorem background_init (options : MqttOptions) (protocol : Protocol) :
    Background (.init options protocol) := by
  have world : (Traced.init options protocol).world = .init options protocol := rfl
  have base : Handshake.Background (.init options protocol) := by
    refine ⟨⟨?_, ?_⟩, initial_conserved options protocol⟩
    · intro e he
      cases he
    · intro e he
      cases he
  refine ⟨world ▸ base, ?_, ?_, ?_, ?_, ?_, ?_⟩
  · intro i task hget
    cases hget
  · intro e he
    cases he
  · intro i task original hget
    cases hget
  · intro h hh
    cases hh
  · intro entry hmem
    cases hmem
  · intro i task hget
    cases hget

end Steps

end Handover
