import ForMqttClient.Deliveries
import ForMqttClient.Exchanges
import ForMqttClient.Handover
import ForMqttClient.Tally

/-!
# Who answers a PUBREL

The only responder to a PUBREL is the `TaskPublishRxQos2` of its packet id, and it
takes one PUBREL only. Every step of the client is a move of the exchange under each
packet id, so a broker that sends a PUBREL again only after the earlier one was lost
on its way always finds the responder.
-/

namespace Releases

open MqttData TaskHub HubSteps Tasks System SystemSteps TaskRuns GuardedRuns Orphans Receiving
  Exchanges

/-- The `run` of a `TaskPublishRxQos2` is still at its first await, the one that the
PUBREL ends. -/
def awaits (id : PacketId) (task : Task) : Bool :=
  match task.spec with
  | .PublishRxQos2 packetId _ => packetId = id && task.prog = task.spec.run
  | _ => false

/-- The task has taken the PUBREL, and its PUBCOMP is not written yet. -/
def Owes (w : World) (id : PacketId) (task : Task) : Prop :=
  (∃ protocol, task.spec = .PublishRxQos2 id protocol) ∧ task.prog ≠ task.spec.run ∧
    .send (.PubComp id) ∈ task.prog ∧
    ∀ receipt, task.phase = .sending receipt → w.receiptDone receipt = false

def Awaited (w : World) (id : PacketId) : Prop := ∃ task ∈ w.tasks, awaits id task = true

def Owed (w : World) (id : PacketId) : Prop := ∃ task ∈ w.tasks, Owes w id task

/-- No responder is lost, and nothing new is owed. -/
def Lasting (w w' : World) (id : PacketId) : Prop :=
  (Awaited w id → Awaited w' id) ∧ (Owed w' id → Owed w id)

instance (w : World) (id : PacketId) : Decidable (Awaited w id) :=
  inferInstanceAs (Decidable (∃ task ∈ w.tasks, _))

/-- The packet of the broker is the PUBREL. -/
def isPubRel (id : PacketId) (item : Packet × Nat) : Bool :=
  match item.1 with
  | .Ack (.PubRel packetId) => packetId = id
  | _ => false

/-- The PUBRELs that a connected `TaskNetwork` has yet to read. -/
def readable (id : PacketId) (network : Network) : Nat :=
  if network.state = .Connected then network.fromBroker.countP (isPubRel id) else 0

/-- The envelope brings the PUBREL to a task that waits for it. -/
def brings (w : World) (id : PacketId) (envelope : Envelope) : Bool :=
  match envelope.event, envelope.receiver with
  | .ack (.PubRel packetId), .task i => packetId = id && w.tasks[i]?.any (awaits id)
  | _, _ => false

/-- The PUBRELs that can still reach a task that waits for one. -/
def underWay (w : World) (id : PacketId) : Nat :=
  Tally.tally (readable id) w.networks + w.bus.countP (brings w id)

/-! ## The broker -/

/-- The client with the `TaskNetwork` that connected last, on whose connection the
broker works. -/
structure Brokered where
  world : World
  serving : Option Nat

namespace Brokered

def init (options : MqttOptions) (protocol : Protocol) : Brokered where
  world := .init options protocol
  serving := none

def servingAfter (serving : Option Nat) : Action → Option Nat
  | .network n (.connected _) => some n
  | _ => serving

def step (b : Brokered) (action : Action) : Option Brokered :=
  (b.world.step action).map fun world => ⟨world, servingAfter b.serving action⟩

/-- What the broker has yet to read. -/
def toBroker (b : Brokered) : List Outgoing :=
  (b.serving.bind (b.world.networks[·]?)).elim [] (·.toBroker)

/-- The broker keeps the order of a QoS2 exchange: a PUBLISH until it has a PUBREC for
it, then PUBRELs until it has the PUBCOMP, and only then a PUBLISH under the same id. -/
def inOrder (b : Brokered) : Packet → Bool
  | .Publish publish =>
    match publish.qos with
    | .ExactlyOnce id =>
      exchange id b.world.log = .idle || exchange id b.world.log = .published
    | _ => true
  | .Ack (.PubRel id) =>
    match exchange id b.world.log with
    | .received => true
    | .released _ => true
    | _ => false
  | _ => true

/-- The broker works on one connection only, and follows the protocol on it. -/
def follows (b : Brokered) : Action → Bool
  | .broker n .recv => b.serving = some n
  | .broker n (.send packet _) => b.serving = some n && b.inOrder packet
  | _ => true

/-- A PUBREL is sent again only after the earlier one was lost before a task took it, and
a `TaskPublishRxQos2` whose PUBREC is lost gives up only if the broker has no earlier
PUBREC of the exchange and none on its way. -/
def keepsResponder (b : Brokered) : Action → Bool
  | .broker _ (.send (.Ack (.PubRel id)) _) =>
    match exchange id b.world.log with
    | .released taken => !taken && underWay b.world id = 0
    | _ => true
  | .task i .receiptErr =>
    match b.world.tasks[i]? with
    | some ⟨.PublishRxQos2 id protocol, prog, _, _⟩ =>
      prog ≠ (TaskSpec.PublishRxQos2 id protocol).run ||
        (exchange id b.world.log ≠ .received && exchange id b.world.log ≠ .released false &&
          !b.toBroker.contains (.PubRec id))
    | _ => true
  | _ => true

def allowed (b : Brokered) (action : Action) : Prop :=
  b.follows action = true ∧ keepsOneLive b.world action = true ∧ b.keepsResponder action = true

instance (b : Brokered) (action : Action) : Decidable (b.allowed action) :=
  inferInstanceAs (Decidable (_ ∧ _ ∧ _))

end Brokered

/-- The exchange under packet id `id`. -/
def view (b : Brokered) (id : PacketId) : View where
  exchange := exchange id b.world.log
  awaited := Awaited b.world id
  owed := Owed b.world id
  wire := b.toBroker.filterMap (mark id)
  underWay := underWay b.world id

/-! ## The responder -/

section Responder

variable {w w' : World} {action : Action} {id : PacketId} {i : Nat} {task after : Task}

theorem awaits_iff : awaits id task = true ↔
    ∃ protocol, task.spec = .PublishRxQos2 id protocol ∧ task.prog = task.spec.run := by
  unfold awaits
  split
  · next packetId protocol hspec =>
    simp only [Bool.and_eq_true, decide_eq_true_eq]
    constructor
    · rintro ⟨rfl, hprog⟩
      exact ⟨protocol, hspec, hprog⟩
    · rintro ⟨_, heq, hprog⟩
      cases hspec.symm.trans heq
      exact ⟨rfl, hprog⟩
  · next hother =>
    constructor
    · rintro ⟨⟩
    · rintro ⟨protocol, heq, _⟩
      exact absurd heq (hother id protocol)

/-- How far the `run` of a `TaskPublishRxQos2` can be. -/
inductive Rest (id : PacketId) : List Instr → Prop where
  | whole : Rest id [.transmit (.PubRec id) (.PubRec id) id, .dispatch (.AffirmRxPublish id),
      .send (.PubComp id), .dispatch (.AffirmRxId id)]
  | taken : Rest id [.dispatch (.AffirmRxPublish id), .send (.PubComp id),
      .dispatch (.AffirmRxId id)]
  | affirmed : Rest id [.send (.PubComp id), .dispatch (.AffirmRxId id)]
  | sent : Rest id [.dispatch (.AffirmRxId id)]
  | ended : Rest id []

theorem rest_of_track {protocol : Protocol} (htrack : task.prog <:+ task.spec.run)
    (hspec : task.spec = .PublishRxQos2 id protocol) : Rest id task.prog := by
  rw [hspec] at htrack
  simp only [TaskSpec.run, List.suffix_cons_iff, List.suffix_nil] at htrack
  rcases htrack with hprog | hprog | hprog | hprog | hprog <;> rw [hprog]
  · exact .whole
  · exact .taken
  · exact .affirmed
  · exact .sent
  · exact .ended

theorem receiver_of_awaits (h : awaits id task = true) :
    rxId task.spec = some id ∧ task.live = true := by
  obtain ⟨protocol, hspec, hprog⟩ := awaits_iff.mp h
  have hne := Handover.run_ne_nil task.spec
  rw [← hprog] at hne
  exact ⟨by rw [hspec]; rfl, by simpa [Task.live] using hne⟩

/-- A signalled receipt stays so. -/
theorem done_of_moved (hsignals : Signals w) (h : Moved w action w') {receipt : Nat}
    (hdone : w.receiptDone receipt = true) : w'.receiptDone receipt = true := by
  have hget : w.receipts[receipt]? = some 1 := by simpa [World.receiptDone] using hdone
  rcases receipt_of_moved h hget with hsame | ⟨_, hpos⟩
  · simp [World.receiptDone, hsame]
  · have once := hsignals.once receipt
    have one : w.receipts.getD receipt 0 = 1 := by simp [List.getD, hget]
    unfold signals at once
    omega

theorem owes_before (hsignals : Signals w) (h : Moved w action w') (howes : Owes w' id task) :
    Owes w id task := by
  obtain ⟨hspec, hprog, hsend, hundone⟩ := howes
  refine ⟨hspec, hprog, hsend, ?_⟩
  intro receipt hphase
  by_contra hdone
  rw [Bool.not_eq_false] at hdone
  have later := done_of_moved hsignals h hdone
  rw [hundone receipt hphase] at later
  cases later

theorem not_owes_init (spec : TaskSpec) : ¬ Owes w id (.init spec) := fun h => h.2.1 rfl

/-- New tasks take no responder away and owe nothing. -/
theorem tasks_started {specs : List TaskSpec} (hsignals : Signals w) (h : Moved w action w')
    (htasks : w'.tasks = w.tasks ++ specs.map Task.init) :
    Lasting w w' id := by
  constructor
  · rintro ⟨task, hmem, hawaits⟩
    exact ⟨task, htasks ▸ List.mem_append_left _ hmem, hawaits⟩
  · rintro ⟨task, hmem, howes⟩
    rw [htasks] at hmem
    rcases List.mem_append.mp hmem with hold | hnew
    · exact ⟨task, hold, owes_before hsignals h howes⟩
    · obtain ⟨spec, _, rfl⟩ := List.mem_map.mp hnew
      exact absurd howes (not_owes_init spec)

theorem awaited_of_set (hget : w.tasks[i]? = some task) (htasks : w'.tasks = w.tasks.set i after)
    (hkeeps : awaits id task = true → awaits id after = true) : Awaited w id → Awaited w' id := by
  rintro ⟨other, hmem, hawaits⟩
  obtain ⟨k, hk⟩ := List.getElem?_of_mem hmem
  by_cases heq : i = k
  · subst heq
    cases hget.symm.trans hk
    refine ⟨after, ?_, hkeeps hawaits⟩
    rw [htasks]
    exact List.mem_set (List.getElem?_eq_some_iff.mp hget).1 after
  · refine ⟨other, List.mem_of_getElem? (i := k) ?_, hawaits⟩
    rw [htasks, List.getElem?_set_ne heq, hk]

theorem owed_of_set (hsignals : Signals w) (h : Moved w action w')
    (hget : w.tasks[i]? = some task) (htasks : w'.tasks = w.tasks.set i after)
    (howes : Owes w' id after → Owes w id task) : Owed w' id → Owed w id := by
  rintro ⟨other, hmem, hother⟩
  rw [htasks] at hmem
  rcases List.mem_or_eq_of_mem_set hmem with hold | rfl
  · exact ⟨other, hold, owes_before hsignals h hother⟩
  · exact ⟨task, List.mem_of_getElem? hget, howes hother⟩

end Responder

/-! ## PUBRELs under way -/

section UnderWay

variable {w w' : World} {action : Action} {id : PacketId}

theorem brings_spec {e : Envelope} (h : brings w id e = true) :
    ∃ i task, e.event = .ack (.PubRel id) ∧ e.receiver = .task i ∧ w.tasks[i]? = some task ∧
      awaits id task = true := by
  unfold brings at h
  split at h
  · next packetId i hevent hreceiver =>
    obtain ⟨hid, hany⟩ := (Bool.and_eq_true _ _).mp h
    obtain rfl := of_decide_eq_true hid
    obtain ⟨task, hget, hawaits⟩ := (Option.any_eq_true _ _).mp hany
    exact ⟨i, task, hevent, hreceiver, hget, hawaits⟩
  · cases h

theorem brings_of_get {i : Nat} {task : Task} {e : Envelope} (hevent : e.event = .ack (.PubRel id))
    (hreceiver : e.receiver = .task i) (hget : w.tasks[i]? = some task)
    (hawaits : awaits id task = true) : brings w id e = true := by
  simp [brings, hevent, hreceiver, hget, hawaits]

/-- A task that waits for the PUBREL has done so since it was started. -/
theorem awaits_before (htrack : OnTrack w) (h : Moved w action w') {i : Nat} {task' : Task}
    (hi : i < w.tasks.length) (hget' : w'.tasks[i]? = some task')
    (hawaits : awaits id task' = true) :
    ∃ task, w.tasks[i]? = some task ∧ awaits id task = true := by
  rcases task_before h hget' with ⟨task, hget, hspec, hprog⟩ | ⟨hnew, _⟩
  · obtain ⟨protocol, hspec', hprog'⟩ := awaits_iff.mp hawaits
    refine ⟨task, hget, awaits_iff.mpr ⟨protocol, hspec.symm.trans hspec', ?_⟩⟩
    rw [hprog', hspec] at hprog
    have htrack := htrack i task hget
    exact htrack.eq_of_length (Nat.le_antisymm htrack.length_le hprog.length_le)
  · omega

theorem brings_before (hI : Receiving.Background w) (h : Moved w action w') {e : Envelope}
    (he : e ∈ w.bus) (hbrings : brings w' id e = true) : brings w id e = true := by
  obtain ⟨i, task', hevent, hreceiver, hget', hawaits⟩ := brings_spec hbrings
  obtain ⟨before, hbefore, _⟩ := hI.routed.receiver e he i _ hreceiver hevent
  obtain ⟨task, hget, hawaits'⟩ :=
    awaits_before hI.track h (List.getElem?_eq_some_iff.mp hbefore).1 hget' hawaits
  exact brings_of_get hevent hreceiver hget hawaits'

/-- Only the `TaskNetwork` that reads an acknowledgement puts it on the bus. -/
theorem ack_of_emission {e : Envelope} {ack : Ack} (h : Emission w action e)
    (hevent : e.event = .ack ack) :
    ∃ n network message rest, action = .network n .read ∧ w.networks[n]? = some network ∧
      network.fromBroker = (.Ack ack, message) :: rest := by
  cases h with
  | ack hget hfrom hlive =>
    cases hevent
    exact ⟨_, _, _, _, rfl, hget, hfrom⟩
  | _ => cases hevent

/-- A step that reads no PUBREL brings nobody one. -/
theorem brought_le (hI : Receiving.Background w) (h : Moved w action w')
    (hread : ∀ e, Emission w action e → e.event ≠ .ack (.PubRel id)) :
    w'.bus.countP (brings w' id) ≤ w.bus.countP (brings w id) := by
  have nothing {new : List Envelope} (hnew : ∀ e ∈ new, Emission w action e) :
      new.countP (brings w' id) = 0 := by
    rw [List.countP_eq_zero]
    intro e he hbrings
    obtain ⟨_, _, hevent, _⟩ := brings_spec hbrings
    exact hread e (hnew e he) hevent
  cases busMoved h with
  | keep new hbus hnew =>
    rw [hbus, List.countP_append, nothing hnew]
    exact List.countP_mono_left (fun e he => brings_before hI h he)
  | @take j envelope rest new htaking htake hbus hnew =>
    rw [hbus, List.countP_append, nothing hnew, (PairFifo.perm_of_take htake).countP_eq,
      List.countP_cons]
    have fewer : rest.countP (brings w' id) ≤ rest.countP (brings w id) :=
      List.countP_mono_left (fun e he => brings_before hI h (PairFifo.mem_rest_of_take htake he))
    omega

/-- The PUBREL that a task takes is one of those under way. -/
theorem brought_of_take (hI : Receiving.Background w) (h : Moved w action w') {j : Nat}
    {e : Envelope} {rest : List Envelope}
    (htake : PairFifo.take Envelope.channel w.bus j = some (e, rest)) (hbus : w'.bus = rest)
    (hbrings : brings w id e = true) :
    w'.bus.countP (brings w' id) + 1 ≤ w.bus.countP (brings w id) := by
  have fewer : rest.countP (brings w' id) ≤ rest.countP (brings w id) :=
    List.countP_mono_left (fun e he => brings_before hI h (PairFifo.mem_rest_of_take htake he))
  rw [hbus, (PairFifo.perm_of_take htake).countP_eq, List.countP_cons, if_pos hbrings]
  omega

/-- A PUBREL that is dispatched comes to one waiting task at most. -/
theorem brought_of_read (hI : Receiving.Background w) (id : PacketId) (sender : Worker) :
    ((w.subscribers (.ack (.PubRel id))).map
      (fun receiver => Envelope.mk sender receiver (.ack (.PubRel id)) 0)).countP (brings w id) ≤
      1 := by
  have awaiting {i : Nat} (h : (brings w id ∘ (fun receiver =>
      Envelope.mk sender receiver (.ack (.PubRel id)) 0)) (.task i) = true) :
      ∃ task, w.tasks[i]? = some task ∧ awaits id task = true := by
    obtain ⟨k, task, _, hreceiver, hget, hawaits⟩ := brings_spec h
    cases hreceiver
    exact ⟨task, hget, hawaits⟩
  rw [World.subscribers, List.countP_map, List.countP_map, List.countP_eq_length_filter]
  refine length_le_one ((List.nodup_range.filter _).filter _) ?_
  intro i hi k hk
  obtain ⟨task, hget, hawaits⟩ := awaiting (List.mem_filter.mp hi).2
  obtain ⟨task', hget', hawaits'⟩ := awaiting (List.mem_filter.mp hk).2
  obtain ⟨hserves, hlive⟩ := receiver_of_awaits hawaits
  obtain ⟨hserves', hlive'⟩ := receiver_of_awaits hawaits'
  exact Deliveries.one_receiver hI hget hget' hserves hserves' hlive hlive'

end UnderWay

/-! ## Data on its way -/

/-- Data that waits for a live `TaskNetwork` is a packet of the await that its task is
at, and the task waits for the receipt. -/
def Waits (w : World) (packet : Outgoing) (receipt : Nat) : Prop :=
  packet = .PingReq ∨ ∃ (i : Nat) (task : Tasks.Task) (instr : Instr) (rest : List Instr),
    w.tasks[i]? = some task ∧ task.phase = .sending receipt ∧ task.prog = instr :: rest ∧
      packet ∈ Handover.packets instr

def Sent (w : World) : Prop :=
  ∀ e ∈ w.bus, ∀ n packet receipt, e.receiver = .network n → e.event = .data packet receipt →
    n < w.networks.length ∧ (w.networkLive n = true → Waits w packet receipt)

section Data

variable {w w' : World} {action : Action} {id : PacketId}

/-- What is still on the bus is not signalled yet. -/
theorem unsignalled (hsignals : Signals w) {e : Envelope} (he : e ∈ w.bus) {packet : Outgoing}
    {receipt : Nat} (hevent : e.event = .data packet receipt) :
    w.receipts[receipt]? = some 0 := by
  have carried : 0 < w.bus.countP (carries receipt) :=
    List.countP_pos_iff.mpr ⟨e, he, by simp [carries, hevent]⟩
  have known : receipt < w.receipts.length := by
    by_contra hlength
    have := hsignals.known receipt (by omega)
    omega
  have once := hsignals.once receipt
  have value : w.receipts.getD receipt 0 = w.receipts[receipt] := by simp [List.getD, known]
  unfold signals at once
  rw [List.getElem?_eq_getElem known]
  exact congrArg some (by omega)

/-- The task stays at its await as long as its data is on the bus. -/
theorem stays_of_moved (hsignals : Signals w) (h : Moved w action w') {e : Envelope}
    (he : e ∈ w.bus) {n : Nat} {packet : Outgoing} {receipt : Nat}
    (hreceiver : e.receiver = .network n) (hevent : e.event = .data packet receipt)
    (hlive : w.networkLive n = true) {i : Nat} {task : Task} (hget : w.tasks[i]? = some task)
    (hphase : task.phase = .sending receipt) : w'.tasks[i]? = some task := by
  have hzero := unsignalled hsignals he hevent
  have hlt := (List.getElem?_eq_some_iff.mp hget).1
  rcases hub_or_not h with ⟨a, rfl, hmoved⟩ | notHub
  · obtain ⟨specs, htasks⟩ := tasks_of_hub hmoved
    rw [htasks, List.getElem?_append_left hlt, hget]
  · by_cases hself : ∃ a, action = .task i a
    · obtain ⟨a, rfl⟩ := hself
      cases h with
      | task hget' hmoved =>
        cases hget.symm.trans hget'
        have undone : w.receiptDone receipt = false := by simp [World.receiptDone, hzero]
        have kept : w.receiptLost receipt = false :=
          kept_iff.mpr (.inr ⟨hzero, e, he, holds_of_data hreceiver hevent hlive⟩)
        cases hmoved with
        | transmitted hphase' hprog hdone =>
          cases hphase.symm.trans hphase'
          cases undone.symm.trans hdone
        | sent hphase' hprog hdone =>
          cases hphase.symm.trans hphase'
          cases undone.symm.trans hdone
        | died hphase' hlost =>
          cases hphase.symm.trans hphase'
          cases kept.symm.trans hlost
        | sendFirst hphase' hprog => cases hphase.symm.trans hphase'
        | sendOnly hphase' hprog => cases hphase.symm.trans hphase'
        | sendAgain hphase' hprog => cases hphase.symm.trans hphase'
        | dispatch hphase' hprog => cases hphase.symm.trans hphase'
        | txToUser hphase' hprog => cases hphase.symm.trans hphase'
        | acked hphase' hprog htake hrel => cases hphase.symm.trans hphase'
        | skipped hphase' hprog htake hrel => cases hphase.symm.trans hphase'
    · rw [task_of_other h notHub (fun a ha => hself ⟨a, ha⟩), hget]

theorem waits_of_sends (htrack : OnTrack w) (h : Moved w action w') {packet : Outgoing}
    (hsends : Handover.Sends w action packet) : Waits w' packet w.receipts.length := by
  cases hsends with
  | ping hget => exact .inl rfl
  | @task i task a packet hget hsends =>
    right
    cases h with
    | task hget' hmoved =>
      cases hget.symm.trans hget'
      cases Handover.taskStep_of_moved (htrack i task hget) hmoved with
      | sent sent hsent hw =>
        cases hsends.symm.trans hsent
        obtain ⟨instr, rest, hprog, hhead⟩ := Handover.sends_head hsends
        refine ⟨i, { task with phase := .sending w.receipts.length }, instr, rest, ?_, rfl,
          hprog, ?_⟩
        · rw [hw]
          exact List.getElem?_set_self (List.getElem?_eq_some_iff.mp hget).1
        · rcases hhead with ⟨_, rfl | ⟨_, _, rfl⟩⟩ | ⟨_, _, _, rfl⟩ <;> simp [Handover.packets]
      | waits receipt hnone _ _ _ => cases hsends.symm.trans hnone
      | left after hnone _ _ _ => cases hsends.symm.trans hnone
      | same hnone _ => cases hsends.symm.trans hnone

theorem sent_of_moved (htrack : OnTrack w) (hsignals : Signals w) (h : Moved w action w')
    (hI : Sent w) : Sent w' := by
  intro e he n packet receipt hreceiver hevent
  rcases Handover.data_of_moved h he hevent with hold | ⟨hsends, hfresh, _⟩
  · obtain ⟨hn, hwaits⟩ := hI e hold n packet receipt hreceiver hevent
    refine ⟨Nat.lt_of_lt_of_le hn (networks_length_le h), ?_⟩
    intro hlive
    have hlive' := live_before h hn hlive
    rcases hwaits hlive' with hping | ⟨i, task, instr, rest, hget, hphase, hprog, hmem⟩
    · exact .inl hping
    · exact .inr ⟨i, task, instr, rest,
        stays_of_moved hsignals h hold hreceiver hevent hlive' hget hphase, hphase, hprog, hmem⟩
  · obtain ⟨m, hlive, hm⟩ := hfresh.receiver
    cases hreceiver.symm.trans hm
    refine ⟨Nat.lt_of_lt_of_le (lt_of_networkLive hlive) (networks_length_le h), fun _ => ?_⟩
    rw [hfresh.receipt]
    exact waits_of_sends htrack h hsends

/-- A PUBREC comes from a task that waits for the PUBREL, a PUBCOMP from one that has
taken it. -/
theorem author_of_track {task : Task} (htrack : task.prog <:+ task.spec.run) {instr : Instr}
    {rest : List Instr} (hprog : task.prog = instr :: rest) {packet : Outgoing}
    (hmem : packet ∈ Handover.packets instr) {m : Mark} (hmark : mark id packet = some m) :
    m = .PubRec ∧ awaits id task = true ∨
      m = .PubComp ∧ (∃ protocol, task.spec = .PublishRxQos2 id protocol) ∧
        task.prog = [.send (.PubComp id), .dispatch (.AffirmRxId id)] := by
  have hinstr : instr ∈ task.spec.run := htrack.subset (hprog ▸ List.mem_cons_self)
  cases hspec : task.spec with
  | PublishRxQos2 packetId protocol =>
    have hparts := rest_of_track htrack hspec
    rw [hprog] at hparts
    generalize hwhole : instr :: rest = prog at hparts
    cases hparts with
    | whole =>
      cases hwhole
      simp only [Handover.packets, List.mem_cons, List.not_mem_nil, or_false, or_self] at hmem
      subst hmem
      simp only [mark, Option.ite_none_right_eq_some, Option.some.injEq] at hmark
      obtain ⟨rfl, rfl⟩ := hmark
      exact .inl ⟨rfl, awaits_iff.mpr ⟨protocol, hspec, by rw [hprog, hspec]; rfl⟩⟩
    | affirmed =>
      cases hwhole
      obtain rfl := List.mem_singleton.mp hmem
      simp only [mark, Option.ite_none_right_eq_some, Option.some.injEq] at hmark
      obtain ⟨rfl, rfl⟩ := hmark
      exact .inr ⟨rfl, ⟨protocol, rfl⟩, hprog⟩
    | ended => cases hwhole
    | _ =>
      cases hwhole
      cases hmem
  | _ =>
    have unmarked : ∀ instr ∈ task.spec.run, ∀ packet ∈ Handover.packets instr,
        mark id packet = none := by
      rw [hspec]
      simp [TaskSpec.run, transmitPublish, Handover.packets, mark]
    rw [unmarked instr hinstr packet hmem] at hmark
    cases hmark

end Data

/-! ## The connections -/

/-- A `TaskNetwork` joins the broker, reads a packet, writes one, or leaves. -/
inductive NetworkStep (w : World) (n : Nat) (network : Network) (action : NetworkAction)
    (w' : World) : Prop where
  | joins (sessionPresent : Bool) (haction : action = .connected sessionPresent)
      (hstate : network.state = .ToConnect)
      (hnetworks : w'.networks = w.networks.set n { network with state := .Connected })
  | reads (packet : Packet) (message : Nat) (rest : List (Packet × Nat)) (haction : action = .read)
      (hstate : network.state = .Connected)
      (hfrom : network.fromBroker = (packet, message) :: rest)
      (hw : w' = (w.setNetwork n { network with fromBroker := rest }).dealPacket n packet message)
  | writes (j : Nat) (sender : Worker) (packet : Outgoing) (receipt message : Nat)
      (rest : List Envelope) (haction : action = .take j none)
      (hstate : network.state = .Connected)
      (htake : PairFifo.take Envelope.channel w.bus j =
        some (⟨sender, .network n, .data packet receipt, message⟩, rest))
      (hw : w' = { w with
        bus := rest, receipts := w.receipts.modify receipt (· + 1) }.setNetwork n
          { network with toBroker := network.toBroker ++ [packet] })
  | leaves (network' : Network) (more : List Outgoing)
      (haction : ∀ sessionPresent, action ≠ .connected sessionPresent) (hread : action ≠ .read)
      (hnetworks : w'.networks = w.networks.set n network')
      (hjoin : network'.state ≠ .ToConnect) (hgone : network'.state ≠ .Connected)
      (hto : network'.toBroker = network.toBroker ++ more)
      (hmore : ∀ packet ∈ more, packet = .Disconnect)

theorem networkStep_of_moved {w w' : World} {n : Nat} {network : Network} {a : NetworkAction}
    (h : NetworkMoved w n network a w') : NetworkStep w n network a w' := by
  have nothing : ∀ packet ∈ ([] : List Outgoing), packet = .Disconnect := by simp
  cases h with
  | connected hstate => exact .joins _ rfl hstate rfl
  | connectFail hstate =>
    exact .leaves _ [] (by simp) (by simp) rfl (by simp) (by simp) (List.append_nil _).symm nothing
  | read hstate hfrom => exact .reads _ _ _ rfl hstate hfrom rfl
  | readErr hstate =>
    exact .leaves _ [] (by simp) (by simp) rfl (by simp) (by simp) (List.append_nil _).symm nothing
  | takeDisconnect hstate htake =>
    exact .leaves _ [] (by simp) (by simp) rfl (by simp) (by simp) (List.append_nil _).symm nothing
  | write hstate htake => exact .writes _ _ _ _ _ _ rfl hstate htake rfl
  | writeErr hstate htake =>
    exact .leaves _ [] (by simp) (by simp) rfl (by simp) (by simp) (List.append_nil _).symm nothing
  | writeDisconnect hstate =>
    exact .leaves _ [.Disconnect] (by simp) (by simp) rfl (by simp) (by simp) rfl (by simp)
  | writeDisconnectErr hstate =>
    exact .leaves _ [] (by simp) (by simp) rfl (by simp) (by simp) (List.append_nil _).symm nothing

/-- A `TaskNetwork` that has not connected yet has no stream, and the only one that is
connected is the one the broker works on. -/
structure Joined (b : Brokered) (n : Nat) (network : Network) : Prop where
  fresh : network.state = .ToConnect →
    network.toBroker = [] ∧ network.fromBroker = [] ∧ b.serving ≠ some n
  current : network.state = .Connected → b.serving = some n

structure Background (b : Brokered) : Prop where
  base : Receiving.Background b.world
  one : OneLive b.world
  signals : Signals b.world
  sent : Sent b.world
  known : ∀ n, b.serving = some n → n < b.world.networks.length
  joined : ∀ n network, b.world.networks[n]? = some network → Joined b n network

section Connections

variable {b b' : Brokered} {action : Action} {n : Nat} {network network' : Network}

theorem step_spec (h : b.step action = some b') :
    Moved b.world action b'.world ∧ b'.serving = Brokered.servingAfter b.serving action := by
  obtain ⟨world, hstep, rfl⟩ := Option.map_eq_some_iff.mp h
  exact ⟨moved_of_step hstep, rfl⟩

theorem oneLive_of_allowed (hok : b.allowed action) (h : b.step action = some b') :
    OneLive b'.world := by
  obtain ⟨world, hstep, rfl⟩ := Option.map_eq_some_iff.mp h
  simpa [keepsOneLive, hstep] using hok.2.1

theorem joined_of_set (hI : Background b) (hget : b.world.networks[n]? = some network)
    (hset : b'.world.networks = b.world.networks.set n network') (hown : Joined b' n network')
    (hothers : ∀ m network, m ≠ n → b.world.networks[m]? = some network →
      Joined b m network → Joined b' m network) :
    ∀ m network, b'.world.networks[m]? = some network → Joined b' m network := by
  intro m other hother
  by_cases hm : m = n
  · subst hm
    rw [hset, List.getElem?_set_self (List.getElem?_eq_some_iff.mp hget).1] at hother
    exact Option.some.inj hother ▸ hown
  · rw [hset, List.getElem?_set_ne (Ne.symm hm)] at hother
    exact hothers m other hm hother (hI.joined m other hother)

theorem joined_of_network (hI : Background b) (hone : OneLive b'.world) {a : NetworkAction}
    (hget : b.world.networks[n]? = some network)
    (h : NetworkMoved b.world n network a b'.world)
    (hserving : b'.serving = Brokered.servingAfter b.serving (.network n a)) :
    ∀ m network, b'.world.networks[m]? = some network → Joined b' m network := by
  have hjoined := hI.joined n network hget
  have same (hserving : b'.serving = b.serving) (m : Nat) (network : Network) (_ : m ≠ n)
      (_ : b.world.networks[m]? = some network) (h : Joined b m network) : Joined b' m network :=
    ⟨hserving ▸ h.fresh, hserving ▸ h.current⟩
  cases networkStep_of_moved h with
  | joins sessionPresent haction hstate hnetworks =>
    subst haction
    refine joined_of_set hI hget hnetworks ⟨by simp, fun _ => hserving⟩ ?_
    intro m other hm hother hjoined'
    have hserved : b'.serving = some n := hserving
    refine ⟨?_, ?_⟩
    · intro hstate'
      obtain ⟨hto, hfrom, _⟩ := hjoined'.fresh hstate'
      refine ⟨hto, hfrom, ?_⟩
      rw [hserved]
      simpa using Ne.symm hm
    · -- two connected ones would both be live
      intro hstate'
      have hother' : b'.world.networks[m]? = some other := by
        rw [hnetworks, List.getElem?_set_ne (Ne.symm hm), hother]
      have hown : b'.world.networks[n]? = some { network with state := .Connected } := by
        rw [hnetworks, List.getElem?_set_self (List.getElem?_eq_some_iff.mp hget).1]
      have live : b'.world.networkLive m = true :=
        networkLive_iff.mpr ⟨_, hother', by simp [Network.live, hstate']⟩
      have live' : b'.world.networkLive n = true :=
        networkLive_iff.mpr ⟨_, hown, by simp [Network.live]⟩
      exact absurd (hone m (lt_of_networkLive live) n (lt_of_networkLive live') live live') hm
  | reads packet message rest haction hstate hfrom hw =>
    subst haction
    have hnetworks : b'.world.networks =
        b.world.networks.set n { network with fromBroker := rest } := by
      rw [hw]
      cases packet <;> rfl
    refine joined_of_set hI hget hnetworks ⟨?_, fun _ => ?_⟩ (same hserving)
    · intro hstate'
      cases hstate.symm.trans hstate'
    · exact hserving.trans (hjoined.current hstate)
  | writes j sender packet receipt message rest haction hstate htake hw =>
    subst haction
    have hnetworks := congrArg World.networks hw
    refine joined_of_set hI hget hnetworks ⟨?_, fun _ => ?_⟩ (same hserving)
    · intro hstate'
      cases hstate.symm.trans hstate'
    · exact hserving.trans (hjoined.current hstate)
  | leaves network' more haction hread hnetworks hjoin hgone hto hmore =>
    have hserved : b'.serving = b.serving := by
      rw [hserving]
      cases a with
      | connected sessionPresent => exact absurd rfl (haction sessionPresent)
      | _ => rfl
    exact joined_of_set hI hget hnetworks ⟨fun h => absurd h hjoin, fun h => absurd h hgone⟩
      (same hserved)

/-- The broker works on a connection that is set up. -/
theorem joined_of_broker (hI : Background b) (hget : b.world.networks[n]? = some network)
    (hset : b'.world.networks = b.world.networks.set n network')
    (hstate : network'.state = network.state) (hserves : b.serving = some n)
    (hserving : b'.serving = b.serving) :
    ∀ m network, b'.world.networks[m]? = some network → Joined b' m network := by
  have hjoined := hI.joined n network hget
  refine joined_of_set hI hget hset ⟨?_, ?_⟩ ?_
  · intro hfresh
    exact absurd hserves (hjoined.fresh (hstate.symm.trans hfresh)).2.2
  · exact fun _ => hserving.trans hserves
  · exact fun m other _ _ h => ⟨hserving ▸ h.fresh, hserving ▸ h.current⟩

theorem joined_of_step (hI : Background b) (hok : b.allowed action) (h : b.step action = some b') :
    ∀ m network, b'.world.networks[m]? = some network → Joined b' m network := by
  obtain ⟨hmoved, hserving⟩ := step_spec h
  have hone := oneLive_of_allowed hok h
  obtain ⟨hfollows, _, _⟩ := hok
  have same (hnetworks : b'.world.networks = b.world.networks) (hserving : b'.serving = b.serving) :
      ∀ m network, b'.world.networks[m]? = some network → Joined b' m network := by
    intro m network hget
    have hjoined := hI.joined m network (hnetworks ▸ hget)
    exact ⟨hserving ▸ hjoined.fresh, hserving ▸ hjoined.current⟩
  obtain ⟨w', serving'⟩ := b'
  cases hmoved with
  | request => exact same rfl hserving
  | command => exact same rfl hserving
  | hub hmoved =>
    rcases networks_of_hub hmoved with hsame | ⟨hadded, _⟩
    · exact same hsame hserving
    · obtain rfl : serving' = b.serving := hserving
      intro m network hget
      change w'.networks = _ at hadded
      change w'.networks[m]? = _ at hget
      rw [hadded] at hget
      by_cases hm : m < b.world.networks.length
      · rw [List.getElem?_append_left hm] at hget
        have hjoined := hI.joined m network hget
        exact ⟨hjoined.fresh, hjoined.current⟩
      · rw [List.getElem?_append_right (by omega), List.getElem?_singleton] at hget
        split at hget
        · obtain rfl := Option.some.inj hget
          refine ⟨fun _ => ⟨rfl, rfl, fun hserves => ?_⟩, ?_⟩
          · exact hm (hI.known m hserves)
          · rintro ⟨⟩
        · cases hget
  | task hget hmoved => cases hmoved <;> exact same rfl hserving
  | ping hget hmoved => cases hmoved <;> exact same rfl hserving
  | timer hget => exact same rfl hserving
  | network hget hmoved => exact joined_of_network hI hone hget hmoved hserving
  | brokerRecv hget hto =>
    exact joined_of_broker hI hget rfl rfl (of_decide_eq_true hfollows) hserving
  | brokerSend hget =>
    exact joined_of_broker hI hget rfl rfl
      (of_decide_eq_true ((Bool.and_eq_true _ _).mp hfollows).1) hserving

theorem background_of_step (hI : Background b) (hok : b.allowed action)
    (h : b.step action = some b') : Background b' := by
  obtain ⟨hmoved, hserving⟩ := step_spec h
  refine ⟨Receiving.background_of_moved hmoved hI.base, oneLive_of_allowed hok h,
    signals_of_moved hI.one hI.signals hmoved,
    sent_of_moved hI.base.track hI.signals hmoved hI.sent, ?_, joined_of_step hI hok h⟩
  intro n hserves
  refine Nat.lt_of_lt_of_le ?_ (networks_length_le hmoved)
  rw [hserving] at hserves
  unfold Brokered.servingAfter at hserves
  split at hserves
  · obtain rfl := Option.some.inj hserves
    cases hmoved with
    | network hget _ => exact (List.getElem?_eq_some_iff.mp hget).1
  · exact hI.known n hserves

theorem background_init (options : MqttOptions) (protocol : Protocol) :
    Background (.init options protocol) where
  base := Receiving.background_init options protocol
  one := fun _ h => absurd h (Nat.not_lt_zero _)
  signals := ⟨fun _ => Nat.zero_le 1, fun _ _ => rfl⟩
  sent := fun _ he => absurd he List.not_mem_nil
  known := fun _ h => nomatch h
  joined := fun _ _ h => nomatch h

end Connections

/-! ## Every step is a move -/

section Steps

variable {b b' : Brokered} {action : Action} {id : PacketId}

theorem noAck (haction : ∀ n, action ≠ .network n .read) :
    ∀ e, Emission b.world action e → e.event ≠ .ack (.PubRel id) := by
  intro e hemitted hevent
  obtain ⟨n, _, _, _, heq, _⟩ := ack_of_emission hemitted hevent
  exact haction n heq

theorem still_of (hI : Background b) (hmoved : Moved b.world action b'.world)
    (htasks : Lasting b.world b'.world id)
    (hreadable : Tally.tally (readable id) b'.world.networks ≤
      Tally.tally (readable id) b.world.networks)
    (hread : ∀ e, Emission b.world action e → e.event ≠ .ack (.PubRel id)) :
    Still (view b id) (view b' id) :=
  ⟨htasks.1, htasks.2, Nat.add_le_add hreadable (brought_le hI.base hmoved hread)⟩

/-- A step that leaves the connections alone, and of which the history of the exchange
says nothing. -/
theorem drift_of (hI : Background b) (hmoved : Moved b.world action b'.world)
    (hserving : b'.serving = b.serving) (hnetworks : b'.world.networks = b.world.networks)
    (hexchange : exchange id b'.world.log = exchange id b.world.log)
    (htasks : Lasting b.world b'.world id)
    (hread : ∀ n, action ≠ .network n .read) : Moves (view b id) (view b' id) := by
  have hwire : b'.toBroker = b.toBroker := by
    rw [Brokered.toBroker, Brokered.toBroker, hserving, hnetworks]
  exact .drift hexchange (.inl (congrArg (List.filterMap (mark id)) hwire))
    (still_of hI hmoved htasks (Nat.le_of_eq (congrArg _ hnetworks)) (noAck hread))

theorem exchange_of_hub {w w' : World} {a : HubAction} (h : HubMoved w a w') :
    exchange id w'.log = exchange id w.log := by
  cases h with
  | @intro input message taken hub outputs htakes hmove =>
    obtain ⟨events, hlog, hinside⟩ := log_of_takes htakes hub outputs
    rw [hlog]
    apply exchange_append
    intro event hevent
    cases hinside event hevent <;> exact trivial

theorem moves_of_hub (hI : Background b) {a : HubAction} (h : HubMoved b.world a b'.world)
    (hserving : b'.serving = b.serving) : Moves (view b id) (view b' id) := by
  have hmoved : Moved b.world (.hub a) b'.world := .hub h
  obtain ⟨specs, htasks⟩ := tasks_of_hub h
  have still : Lasting b.world b'.world id := tasks_started hI.signals hmoved htasks
  have hexchange : exchange id b'.world.log = exchange id b.world.log := exchange_of_hub h
  rcases networks_of_hub h with hsame | ⟨hadded, _⟩
  · exact drift_of hI hmoved hserving hsame hexchange still (by simp)
  · have hwire : b'.toBroker = b.toBroker := by
      rw [Brokered.toBroker, Brokered.toBroker, hserving]
      cases hserves : b.serving with
      | none => rfl
      | some n =>
        rw [Option.bind_some, Option.bind_some, hadded,
          List.getElem?_append_left (hI.known n hserves)]
    have hreadable : Tally.tally (readable id) b'.world.networks ≤
        Tally.tally (readable id) b.world.networks := by
      rw [hadded, Tally.tally_append, Tally.tally_singleton]
      simp [readable, Network.init]
    exact .drift hexchange (.inl (congrArg (List.filterMap (mark id)) hwire))
      (still_of hI hmoved still hreadable (noAck (by simp)))

theorem head_of_awaits {task : Task} (h : awaits id task = true) :
    ∃ rest, task.prog = .transmit (.PubRec id) (.PubRec id) id :: rest := by
  obtain ⟨protocol, hspec, hprog⟩ := awaits_iff.mp h
  exact ⟨_, by rw [hprog, hspec]; rfl⟩

/-- A receive task whose first await is not over waits for the PUBREL. -/
theorem awaits_of_transmit {task : Task} {protocol : Protocol}
    (htrack : task.prog <:+ task.spec.run) (hspec : task.spec = .PublishRxQos2 id protocol)
    {data dupData : Outgoing} {packetId : PacketId} {rest : List Instr}
    (hprog : task.prog = .transmit data dupData packetId :: rest) :
    packetId = id ∧ awaits id task = true := by
  have hparts := rest_of_track htrack hspec
  rw [hprog] at hparts
  have hrun : task.spec.run = [.transmit (.PubRec id) (.PubRec id) id,
      .dispatch (.AffirmRxPublish id), .send (.PubComp id), .dispatch (.AffirmRxId id)] := by
    rw [hspec]
    rfl
  cases hparts with
  | whole => exact ⟨rfl, awaits_iff.mpr ⟨protocol, hspec, hprog.trans hrun.symm⟩⟩

/-- What is owed behind an await that is not the first one was owed before it. -/
theorem owes_of_tail {w w' : World} {task after : Task} {instr : Instr}
    (hprog : task.prog = instr :: after.prog) (hspec : after.spec = task.spec)
    (hfirst : ∀ data dupData packetId, instr ≠ .transmit data dupData packetId)
    (hphase : task.phase = .ready) (h : Owes w' id after) : Owes w id task := by
  obtain ⟨⟨protocol, hafter⟩, _, hmem, _⟩ := h
  rw [hspec] at hafter
  refine ⟨⟨protocol, hafter⟩, ?_, hprog ▸ List.mem_cons_of_mem _ hmem, ?_⟩
  · intro hrun
    obtain ⟨_, hhead⟩ := head_of_awaits (awaits_iff.mpr ⟨protocol, hafter, hrun⟩)
    exact hfirst _ _ _ (List.cons.inj (hprog.symm.trans hhead)).1
  · intro receipt hsending
    cases hphase.symm.trans hsending

/-- A task that is at its first await owes nothing. -/
theorem not_owes_transmit {w : World} {task : Task} (htrack : task.prog <:+ task.spec.run)
    {data dupData : Outgoing} {packetId : PacketId} {rest : List Instr}
    (hprog : task.prog = .transmit data dupData packetId :: rest) : ¬ Owes w id task := by
  rintro ⟨⟨protocol, hspec⟩, hbegun, _⟩
  obtain ⟨_, _, hrun⟩ := awaits_iff.mp (awaits_of_transmit htrack hspec hprog).2
  exact hbegun hrun

/-- Behind the PUBCOMP nothing is owed. -/
theorem not_owes_sent {w : World} {task after : Task} (htrack : task.prog <:+ task.spec.run)
    {packet : Outgoing} (hprog : task.prog = .send packet :: after.prog)
    (hspec : after.spec = task.spec) : ¬ Owes w id after := by
  rintro ⟨⟨protocol, hafter⟩, _, hmem, _⟩
  have hparts := rest_of_track htrack (hspec.symm.trans hafter)
  rw [hprog] at hparts
  generalize hrest : after.prog = rest at hparts hmem
  cases hparts with
  | affirmed => simp at hmem

/-- The acknowledgement that ends the first await of a task is the PUBREL of its id
exactly if the task waits for it. -/
theorem taken_iff (hI : Receiving.Background b.world) {i : Nat} {task : Task}
    (hget : b.world.tasks[i]? = some task) {data dupData : Outgoing} {packetId : PacketId}
    {rest : List Instr} (hprog : task.prog = .transmit data dupData packetId :: rest)
    {e : Envelope} {ack : Ack} (he : e ∈ b.world.bus) (hreceiver : e.receiver = .task i)
    (hevent : e.event = .ack ack) (hrel : ack.isRel packetId = true) :
    ack = .PubRel id ↔ awaits id task = true := by
  have htrack := hI.track i task hget
  obtain ⟨task', hget', hrx⟩ := hI.routed.receiver e he i ack hreceiver hevent
  cases hget.symm.trans hget'
  have hid : ack.packetId = packetId := of_decide_eq_true hrel
  constructor
  · rintro rfl
    cases hspec : task.spec with
    | PublishRxQos2 other protocol =>
      obtain ⟨rfl, hawaits⟩ := awaits_of_transmit htrack hspec hprog
      have same : id = packetId := hid
      exact same ▸ hawaits
    | _ =>
      rw [hspec] at hrx
      cases hrx
  · intro hawaits
    obtain ⟨protocol, hspec, _⟩ := awaits_iff.mp hawaits
    obtain ⟨rfl, _⟩ := awaits_of_transmit htrack hspec hprog
    rw [hspec] at hrx
    cases ack with
    | PubRel other => exact congrArg Ack.PubRel hid
    | _ => cases hrx

/-- What the guard says of the error exit of a task that waits for the PUBREL. -/
theorem unanswered_of_ok {i : Nat} {task : Task}
    (hok : b.keepsResponder (.task i .receiptErr) = true) (hget : b.world.tasks[i]? = some task)
    (hawaits : awaits id task = true) :
    exchange id b.world.log ≠ .received ∧ exchange id b.world.log ≠ .released false ∧
      .PubRec id ∉ b.toBroker := by
  obtain ⟨protocol, hspec, hprog⟩ := awaits_iff.mp hawaits
  obtain ⟨spec, prog, phase, ack⟩ := task
  cases hspec
  cases hprog
  simpa [Brokered.keepsResponder, hget, TaskSpec.run, and_assoc] using hok

theorem pubRec_of_wire {packets : List Outgoing} (h : .PubRec ∈ packets.filterMap (mark id)) :
    .PubRec id ∈ packets := by
  obtain ⟨packet, hmem, hmark⟩ := List.mem_filterMap.mp h
  cases packet with
  | PubRec packetId =>
    simp only [mark, Option.ite_none_right_eq_some, and_true] at hmark
    exact hmark ▸ hmem
  | PubComp packetId => simp [mark] at hmark
  | _ => cases hmark

theorem after_acked {i : Nat} {ack : Ack} (hack : ack ≠ .PubRel id) (before : Exchange) :
    before.after id (.acked i ack) = before := by
  cases ack with
  | PubRel packetId =>
    have hid : packetId ≠ id := fun heq => hack (congrArg Ack.PubRel heq)
    exact if_neg hid
  | _ => rfl

theorem moves_of_task (hI : Background b) {i : Nat} {task : Task} {a : TaskAction}
    (hget : b.world.tasks[i]? = some task) (h : TaskMoved b.world i task a b'.world)
    (hserving : b'.serving = b.serving) (hok : b.keepsResponder (.task i a) = true) :
    Moves (view b id) (view b' id) := by
  have hmoved : Moved b.world (.task i a) b'.world := .task hget h
  have htrack := hI.base.track i task hget
  have drift {after : Task} (hnetworks : b'.world.networks = b.world.networks)
      (htasks : b'.world.tasks = b.world.tasks.set i after)
      (hexchange : exchange id b'.world.log = exchange id b.world.log)
      (hkeeps : awaits id task = true → awaits id after = true)
      (howes : Owes b'.world id after → Owes b.world id task) : Moves (view b id) (view b' id) :=
    drift_of hI hmoved hserving hnetworks hexchange
      ⟨awaited_of_set hget htasks hkeeps, owed_of_set hI.signals hmoved hget htasks howes⟩ (by simp)
  -- an await that is not the first one of a receive task is over
  have behind {instr : Instr} {rest : List Instr} (hprog : task.prog = instr :: rest)
      (hfirst : ∀ data dupData packetId, instr ≠ .transmit data dupData packetId) (after : Task) :
      awaits id task = true → awaits id after = true := by
    intro hawaits
    obtain ⟨_, hhead⟩ := head_of_awaits hawaits
    exact absurd (List.cons.inj (hprog.symm.trans hhead)).1 (hfirst _ _ _)
  -- a send leaves what is owed as it is
  have sending {w' : World} {receipt : Nat} (hphase : ∀ r, task.phase ≠ .sending r) :
      Owes w' id { task with phase := .sending receipt } → Owes b.world id task :=
    fun ⟨hspec, hbegun, hmem, _⟩ =>
      ⟨hspec, hbegun, hmem, fun r hsending => absurd hsending (hphase r)⟩
  obtain ⟨w', serving'⟩ := b'
  obtain rfl : serving' = b.serving := hserving
  cases h with
  | sendFirst hphase hprog =>
    exact drift rfl rfl rfl (fun h => h) (sending (by simp [hphase]))
  | sendOnly hphase hprog =>
    exact drift rfl rfl rfl (fun h => h) (sending (by simp [hphase]))
  | sendAgain hphase hprog =>
    exact drift rfl rfl rfl (fun h => h) (sending (by simp [hphase]))
  | dispatch hphase hprog =>
    exact drift rfl rfl rfl (behind hprog (by simp) _) (owes_of_tail hprog rfl (by simp) hphase)
  | txToUser hphase hprog =>
    exact drift rfl rfl rfl (behind hprog (by simp) _) (owes_of_tail hprog rfl (by simp) hphase)
  | transmitted hphase hprog hdone =>
    exact drift rfl rfl rfl (fun h => h)
      (fun howes => absurd howes (not_owes_transmit htrack hprog))
  | sent hphase hprog hdone =>
    exact drift rfl rfl rfl (behind hprog (by simp) _)
      (fun howes => absurd howes (not_owes_sent htrack hprog rfl))
  | died hphase hlost =>
    have owes {w' : World} (howes : Owes w' id { task with prog := [], phase := .ready }) :
        Owes b.world id task := absurd howes.2.2.1 List.not_mem_nil
    by_cases hawaits : awaits id task = true
    · obtain ⟨hreceived, hreleased, hrec⟩ := unanswered_of_ok hok hget hawaits
      exact .dies hreceived hreleased (fun h => hrec (pubRec_of_wire h)) rfl rfl
        (owed_of_set hI.signals hmoved hget rfl owes)
        (Nat.add_le_add_left (brought_le hI.base hmoved (noAck (by simp))) _)
    · exact drift rfl rfl rfl (fun h => absurd h hawaits) owes
  | @acked j sender ack message queue data dupData packetId rest hphase hprog htake hrel =>
    have hrel' : ack = .PubRel id ↔ awaits id task = true :=
      taken_iff hI.base hget hprog (PairFifo.mem_of_take htake) rfl rfl hrel
    by_cases hawaits : awaits id task = true
    · obtain rfl := hrel'.mpr hawaits
      refine .takes ?_ (if_pos rfl) rfl
      exact Nat.add_le_add_left
        (brought_of_take hI.base hmoved htake rfl (brings_of_get rfl rfl hget hawaits)) _
    · refine drift rfl rfl (after_acked (fun hack => hawaits (hrel'.mp hack)) _)
        (fun h => absurd h hawaits) ?_
      rintro ⟨⟨protocol, hspec⟩, _⟩
      exact absurd (awaits_of_transmit htrack hspec hprog).2 hawaits
  | skipped hphase hprog htake hrel =>
    exact drift_of hI hmoved rfl rfl rfl
      ⟨fun h => h, fun ⟨task, hmem, howes⟩ => ⟨task, hmem, owes_before hI.signals hmoved howes⟩⟩
      (by simp)

theorem log_of_network {w w' : World} {n : Nat} {network : Network} {a : NetworkAction}
    (h : NetworkMoved w n network a w') : w'.log = w.log := by
  cases h with
  | @read packet => cases packet <;> rfl
  | _ => rfl

theorem toBroker_of_get {n : Nat} {network : Network} (hserves : b.serving = some n)
    (hget : b.world.networks[n]? = some network) : b.toBroker = network.toBroker := by
  rw [Brokered.toBroker, hserves, Option.bind_some, hget]
  rfl

/-- What a connection gets more in its stream is more for the broker to read, if it is the
one that the broker works on. -/
theorem wire_of_set (id : PacketId) {n : Nat} {network network' : Network}
    (hget : b.world.networks[n]? = some network)
    (hset : b'.world.networks = b.world.networks.set n network')
    (hserving : b'.serving = b.serving) {more : List Outgoing}
    (hto : network'.toBroker = network.toBroker ++ more)
    (hserves : more.filterMap (mark id) ≠ [] → b.serving = some n) :
    (view b' id).wire = (view b id).wire ++ more.filterMap (mark id) := by
  have hget' : b'.world.networks[n]? = some network' := by
    rw [hset, List.getElem?_set_self (List.getElem?_eq_some_iff.mp hget).1]
  by_cases hn : b.serving = some n
  · rw [view, view, toBroker_of_get hn hget, toBroker_of_get (hserving.trans hn) hget', hto,
      List.filterMap_append]
  · have nothing : more.filterMap (mark id) = [] := by
      by_contra hsome
      exact hn (hserves hsome)
    have hsame : b'.toBroker = b.toBroker := by
      rw [Brokered.toBroker, Brokered.toBroker, hserving]
      cases hserved : b.serving with
      | none => rfl
      | some m =>
        have hm : n ≠ m := by
          rintro rfl
          exact hn hserved
        rw [Option.bind_some, Option.bind_some, hset, List.getElem?_set_ne hm]
    rw [view, view, hsame, nothing, List.append_nil]

theorem tasks_same (hI : Background b) (hmoved : Moved b.world action b'.world)
    (htasks : b'.world.tasks = b.world.tasks) :
    Lasting b.world b'.world id := by
  have nothing : b'.world.tasks = b.world.tasks ++ ([] : List TaskSpec).map Task.init := by
    rw [htasks, List.map_nil, List.append_nil]
  exact tasks_started hI.signals hmoved nothing

/-- The PUBREL that is read goes on to the task that waits for it, if there is one. -/
theorem underWay_of_read (hI : Receiving.Background b.world) {n message : Nat} {network : Network}
    {rest : List (Packet × Nat)} (hget : b.world.networks[n]? = some network)
    (hstate : network.state = .Connected)
    (hfrom : network.fromBroker = (.Ack (.PubRel id), message) :: rest) :
    underWay ((b.world.setNetwork n { network with fromBroker := rest }).dealPacket n
      (.Ack (.PubRel id)) message) id ≤ underWay b.world id := by
  have before : readable id network = rest.countP (isPubRel id) + 1 := by
    rw [readable, if_pos hstate, hfrom, List.countP_cons_of_pos]
    simp [isPubRel]
  have after : readable id { network with fromBroker := rest } = rest.countP (isPubRel id) :=
    if_pos hstate
  have trade := Tally.tally_set (f := readable id) (b := { network with fromBroker := rest }) hget
  have one := brought_of_read hI id (.network n)
  have bus : ((b.world.setNetwork n { network with fromBroker := rest }).dealPacket n
      (.Ack (.PubRel id)) message).bus.countP (brings b.world id) ≤
        b.world.bus.countP (brings b.world id) + 1 := by
    rw [World.dealPacket, World.dispatch, List.countP_append]
    exact Nat.add_le_add_left one _
  change Tally.tally (readable id) (b.world.networks.set n _) +
    List.countP (brings b.world id) _ ≤ _
  rw [underWay]
  omega

/-- The write of a PUBCOMP settles what is owed. -/
theorem settled_of_write (hI : Background b) {j n : Nat} {sender : Worker} {packet : Outgoing}
    {receipt message : Nat} {queue : List Envelope} {network' : Network}
    (htake : PairFifo.take Envelope.channel b.world.bus j =
      some (⟨sender, .network n, .data packet receipt, message⟩, queue))
    (hw : b'.world = { b.world with
      bus := queue, receipts := b.world.receipts.modify receipt (· + 1) }.setNetwork n network')
    {i : Nat} {task : Task} {protocol : Protocol} (hget : b.world.tasks[i]? = some task)
    (hphase : task.phase = .sending receipt) (hspec : task.spec = .PublishRxQos2 id protocol)
    (hlive : task.live = true) : ¬ Owed b'.world id := by
  rintro ⟨other, hmem, ⟨protocol', hspec'⟩, _, hsend, hundone⟩
  rw [hw] at hmem
  obtain ⟨k, hget'⟩ := List.getElem?_of_mem hmem
  have hlive' : other.live = true := by simpa [Task.live] using List.ne_nil_of_mem hsend
  obtain rfl := Deliveries.one_receiver hI.base hget hget' (by rw [hspec]; rfl)
    (by rw [hspec']; rfl) hlive hlive'
  cases hget.symm.trans hget'
  have hzero := unsignalled hI.signals (PairFifo.mem_of_take htake) rfl
  have signalled : b'.world.receipts[receipt]? = some 1 := by
    rw [hw]
    exact (List.getElem?_modify_eq _ _ _).trans (by rw [hzero]; rfl)
  have undone := hundone receipt hphase
  rw [World.receiptDone, signalled] at undone
  cases undone

section connections

variable {n : Nat} {network : Network}

/-- A connection whose step leaves no more PUBRELs to be read leaves no more of them in all. -/
theorem tally_of_set (hget : b.world.networks[n]? = some network) {network' : Network}
    (hnetworks : b'.world.networks = b.world.networks.set n network')
    (hle : readable id network' ≤ readable id network) :
    Tally.tally (readable id) b'.world.networks ≤ Tally.tally (readable id) b.world.networks := by
  rw [hnetworks]
  exact Tally.tally_set_le hget hle

theorem moves_of_join (hI : Background b) (hget : b.world.networks[n]? = some network)
    {sessionPresent : Bool}
    (hmoved : Moved b.world (.network n (.connected sessionPresent)) b'.world)
    (hserving : b'.serving = some n)
    (hexchange : exchange id b'.world.log = exchange id b.world.log)
    (htasks : Lasting b.world b'.world id) (hstate : network.state = .ToConnect)
    (hnetworks : b'.world.networks = b.world.networks.set n { network with state := .Connected }) :
    Moves (view b id) (view b' id) := by
  obtain ⟨hto, hfrom, _⟩ := (hI.joined n network hget).fresh hstate
  have hget' : b'.world.networks[n]? = some { network with state := .Connected } := by
    rw [hnetworks, List.getElem?_set_self (List.getElem?_eq_some_iff.mp hget).1]
  have hwire : b'.toBroker = [] := (toBroker_of_get hserving hget').trans hto
  refine .drift hexchange (.inr (by rw [view, hwire]; rfl)) (still_of hI hmoved htasks ?_ ?_)
  · exact tally_of_set hget hnetworks (by simp [readable, hfrom])
  · exact noAck (by simp)

theorem moves_of_read (hI : Background b) (hget : b.world.networks[n]? = some network)
    (hmoved : Moved b.world (.network n .read) b'.world) (hserving : b'.serving = b.serving)
    (hexchange : exchange id b'.world.log = exchange id b.world.log)
    (htasks : Lasting b.world b'.world id) {packet : Packet} {message : Nat}
    {rest : List (Packet × Nat)} (hstate : network.state = .Connected)
    (hfrom : network.fromBroker = (packet, message) :: rest)
    (hw : b'.world =
      (b.world.setNetwork n { network with fromBroker := rest }).dealPacket n packet message) :
    Moves (view b id) (view b' id) := by
  have hnetworks : b'.world.networks =
      b.world.networks.set n { network with fromBroker := rest } := by
    rw [hw]
    cases packet <;> rfl
  have hwire := wire_of_set id hget hnetworks hserving (List.append_nil _).symm (by simp)
  rw [List.filterMap_nil, List.append_nil] at hwire
  refine .drift hexchange (.inl hwire) ?_
  by_cases hpacket : packet = .Ack (.PubRel id)
  · subst hpacket
    refine ⟨htasks.1, htasks.2, ?_⟩
    rw [view, view, hw]
    exact underWay_of_read hI.base hget hstate hfrom
  · refine still_of hI hmoved htasks (tally_of_set hget hnetworks ?_) ?_
    · rw [readable, readable, if_pos hstate, if_pos hstate, hfrom]
      exact (List.sublist_cons_self _ rest).countP_le
    · intro e hemitted hevent
      obtain ⟨m, network', message', rest', haction, hget', hfrom'⟩ :=
        ack_of_emission hemitted hevent
      cases haction
      cases hget.symm.trans hget'
      cases hfrom.symm.trans hfrom'
      exact hpacket rfl

/-- A packet that the broker takes notice of is written for a task of the exchange. -/
theorem moves_of_marked (hI : Background b) (hget : b.world.networks[n]? = some network)
    {j : Nat} {sender : Worker} {packet : Outgoing} {receipt message : Nat} {rest : List Envelope}
    {network' : Network} (hstate : network.state = .Connected)
    (htake : PairFifo.take Envelope.channel b.world.bus j =
      some (⟨sender, .network n, .data packet receipt, message⟩, rest))
    (hw : b'.world = { b.world with
      bus := rest, receipts := b.world.receipts.modify receipt (· + 1) }.setNetwork n network')
    (hexchange : exchange id b'.world.log = exchange id b.world.log)
    (hstill : Still (view b id) (view b' id)) {m : Mark} (hmark : mark id packet = some m)
    (hwire : (view b' id).wire = (view b id).wire ++ [m]) : Moves (view b id) (view b' id) := by
  have he := PairFifo.mem_of_take htake
  have live : b.world.networkLive n = true :=
    networkLive_iff.mpr ⟨network, hget, by simp [Network.live, hstate]⟩
  rcases (hI.sent _ he n packet receipt rfl rfl).2 live with
    rfl | ⟨i, task, instr, tail, hget', hphase, hprog, hmem⟩
  · cases hmark
  · rcases author_of_track (hI.base.track i task hget') hprog hmem hmark with
      ⟨rfl, hawaits⟩ | ⟨rfl, ⟨protocol, hspec⟩, hlast⟩
    · exact .writesRec ⟨task, List.mem_of_getElem? hget', hawaits⟩ hexchange hwire hstill
    · have hlive : task.live = true := by simp [Task.live, hlast]
      have settled := settled_of_write hI htake hw hget' hphase hspec hlive
      refine .writesComp ⟨task, List.mem_of_getElem? hget', ⟨protocol, hspec⟩, ?_, ?_, ?_⟩
        settled hexchange hwire hstill
      · rw [hlast, hspec]
        simp [TaskSpec.run]
      · simp [hlast]
      · intro r hsending
        cases hphase.symm.trans hsending
        simp [World.receiptDone, unsignalled hI.signals he rfl]

theorem moves_of_write (hI : Background b) (hget : b.world.networks[n]? = some network)
    {j : Nat} (hmoved : Moved b.world (.network n (.take j none)) b'.world)
    (hserving : b'.serving = b.serving)
    (hexchange : exchange id b'.world.log = exchange id b.world.log)
    (htasks : Lasting b.world b'.world id) {sender : Worker} {packet : Outgoing}
    {receipt message : Nat} {rest : List Envelope} (hstate : network.state = .Connected)
    (htake : PairFifo.take Envelope.channel b.world.bus j =
      some (⟨sender, .network n, .data packet receipt, message⟩, rest))
    (hw : b'.world = { b.world with
      bus := rest, receipts := b.world.receipts.modify receipt (· + 1) }.setNetwork n
        { network with toBroker := network.toBroker ++ [packet] }) :
    Moves (view b id) (view b' id) := by
  have hnetworks := congrArg World.networks hw
  have hwire := wire_of_set id hget hnetworks hserving rfl
    (fun _ => (hI.joined n network hget).current hstate)
  have hstill : Still (view b id) (view b' id) :=
    still_of hI hmoved htasks (tally_of_set hget hnetworks (Nat.le_refl _)) (noAck (by simp))
  cases hmark : mark id packet with
  | none =>
    rw [List.filterMap_cons_none hmark, List.filterMap_nil, List.append_nil] at hwire
    exact .drift hexchange (.inl hwire) hstill
  | some m =>
    rw [List.filterMap_cons_some hmark, List.filterMap_nil] at hwire
    exact moves_of_marked hI hget hstate htake hw hexchange hstill hmark hwire

theorem moves_of_leave (hI : Background b) (hget : b.world.networks[n]? = some network)
    {a : NetworkAction} (hmoved : Moved b.world (.network n a) b'.world)
    (hserving : b'.serving = b.serving)
    (hexchange : exchange id b'.world.log = exchange id b.world.log)
    (htasks : Lasting b.world b'.world id) {network' : Network} {more : List Outgoing}
    (hread : a ≠ .read) (hnetworks : b'.world.networks = b.world.networks.set n network')
    (hgone : network'.state ≠ .Connected) (hto : network'.toBroker = network.toBroker ++ more)
    (hmore : ∀ packet ∈ more, packet = .Disconnect) : Moves (view b id) (view b' id) := by
  have unmarked : more.filterMap (mark id) = [] := by
    rw [List.filterMap_eq_nil_iff]
    intro packet hpacket
    rw [hmore packet hpacket]
    rfl
  have hwire := wire_of_set id hget hnetworks hserving hto (fun h => absurd unmarked h)
  rw [unmarked, List.append_nil] at hwire
  refine .drift hexchange (.inl hwire) (still_of hI hmoved htasks ?_ ?_)
  · exact tally_of_set hget hnetworks (by simp [readable, hgone])
  · exact noAck (by simpa using hread)

theorem moves_of_network (hI : Background b) {a : NetworkAction}
    (hget : b.world.networks[n]? = some network)
    (h : NetworkMoved b.world n network a b'.world)
    (hserving : b'.serving = Brokered.servingAfter b.serving (.network n a)) :
    Moves (view b id) (view b' id) := by
  have hmoved : Moved b.world (.network n a) b'.world := .network hget h
  have htasks : Lasting b.world b'.world id :=
    tasks_same hI hmoved (tasks_of_moved hmoved (by simp) (by simp))
  have hexchange : exchange id b'.world.log = exchange id b.world.log := by rw [log_of_network h]
  cases networkStep_of_moved h with
  | joins sessionPresent haction hstate hnetworks =>
    subst haction
    exact moves_of_join hI hget hmoved hserving hexchange htasks hstate hnetworks
  | reads packet message rest haction hstate hfrom hw =>
    subst haction
    exact moves_of_read hI hget hmoved hserving hexchange htasks hstate hfrom hw
  | writes j sender packet receipt message rest haction hstate htake hw =>
    subst haction
    exact moves_of_write hI hget hmoved hserving hexchange htasks hstate htake hw
  | leaves network' more haction hread hnetworks hjoin hgone hto hmore =>
    have hserved : b'.serving = b.serving := by
      rw [hserving]
      cases a with
      | connected sessionPresent => exact absurd rfl (haction sessionPresent)
      | _ => rfl
    exact moves_of_leave hI hget hmoved hserved hexchange htasks hread hnetworks hgone hto hmore

end connections

theorem isPubRel_iff {item : Packet × Nat} :
    isPubRel id item = true ↔ item.1 = .Ack (.PubRel id) := by
  unfold isPubRel
  split
  · next hitem => simp [hitem]
  · next hother =>
    refine iff_of_false Bool.false_ne_true ?_
    exact fun heq => hother id heq

/-- Besides the PUBREL only a PUBLISH says something of the exchange. -/
theorem offered_of_sent {before : Exchange} {n message : Nat} {packet : Packet}
    (hrel : packet ≠ .Ack (.PubRel id))
    (hchanged : before.after id (.brokerSent n packet message) ≠ before) :
    before = .idle ∧ before.after id (.brokerSent n packet message) = .published := by
  cases packet with
  | Publish publish =>
    rw [Exchange.after] at hchanged ⊢
    split at hchanged
    · next hqos =>
      rw [if_pos hqos]
      unfold Exchange.offered at hchanged ⊢
      split at hchanged
      · next hidle => exact ⟨hidle, if_pos hidle⟩
      · exact absurd rfl hchanged
    · exact absurd rfl hchanged
  | Ack ack =>
    cases ack with
    | PubRel packetId =>
      have hid : packetId ≠ id := fun heq => hrel (by rw [heq])
      exact absurd (if_neg hid) hchanged
    | _ => exact absurd rfl hchanged
  | _ => exact absurd rfl hchanged

theorem moves_of_brokerRecv (hI : Background b) {n : Nat} {network : Network} {packet : Outgoing}
    {rest : List Outgoing} (hserves : b.serving = some n)
    (hget : b.world.networks[n]? = some network) (hto : network.toBroker = packet :: rest)
    (hmoved : Moved b.world (.broker n .recv) b'.world)
    (hw : b'.world = (b.world.record (.brokerGot n packet)).setNetwork n
      { network with toBroker := rest })
    (hserving : b'.serving = b.serving) : Moves (view b id) (view b' id) := by
  have htasks : Lasting b.world b'.world id := tasks_same hI hmoved (by rw [hw]; rfl)
  have hget' : b'.world.networks[n]? = some { network with toBroker := rest } := by
    rw [hw]
    exact List.getElem?_set_self (List.getElem?_eq_some_iff.mp hget).1
  have hreadable : Tally.tally (readable id) b'.world.networks ≤
      Tally.tally (readable id) b.world.networks := by
    rw [hw]
    exact Tally.tally_set_le hget (Nat.le_refl _)
  have hstill : Still (view b id) (view b' id) :=
    still_of hI hmoved htasks hreadable (noAck (by simp))
  have hbefore := toBroker_of_get hserves hget
  have hafter : b'.toBroker = rest := toBroker_of_get (hserving.trans hserves) hget'
  have hexchange : exchange id b'.world.log =
      (exchange id b.world.log).after id (.brokerGot n packet) := by
    rw [hw]
    rfl
  rw [hto] at hbefore
  rw [Exchange.after] at hexchange
  cases hmark : mark id packet with
  | none =>
    rw [hmark] at hexchange
    refine .drift hexchange (.inl ?_) hstill
    rw [view, view, hbefore, hafter, List.filterMap_cons_none hmark]
  | some m =>
    rw [hmark] at hexchange
    refine .gets m ?_ hexchange hstill
    rw [view, view, hbefore, hafter, List.filterMap_cons_some hmark]

/-- A packet of the broker adds a readable PUBREL at most if it is one. -/
theorem readable_of_send {n message : Nat} {network : Network} {packet : Packet}
    (hget : b.world.networks[n]? = some network)
    (hnetworks : b'.world.networks = b.world.networks.set n
      { network with fromBroker := network.fromBroker ++ [(packet, message)] }) :
    Tally.tally (readable id) b'.world.networks ≤ Tally.tally (readable id) b.world.networks +
      if isPubRel id (packet, message) = true then 1 else 0 := by
  have more : readable id
        { network with fromBroker := network.fromBroker ++ [(packet, message)] } ≤
      readable id network + if isPubRel id (packet, message) = true then 1 else 0 := by
    unfold readable
    split
    · exact Nat.le_of_eq (by rw [List.countP_append, List.countP_singleton])
    · omega
  have trade := Tally.tally_set (f := readable id)
    (b := { network with fromBroker := network.fromBroker ++ [(packet, message)] }) hget
  rw [hnetworks]
  omega

/-- A PUBREL of the broker releases the exchange. -/
theorem moves_of_sentRel (hI : Background b) {n message : Nat}
    (horder : b.inOrder (.Ack (.PubRel id)) = true)
    (hkeeps : b.keepsResponder (.broker n (.send (.Ack (.PubRel id)) message)) = true)
    (hmoved : Moved b.world (.broker n (.send (.Ack (.PubRel id)) message)) b'.world)
    (hexchange : exchange id b'.world.log =
      (exchange id b.world.log).after id (.brokerSent n (.Ack (.PubRel id)) message))
    (hwire : (view b' id).wire = (view b id).wire) (htasks : Lasting b.world b'.world id)
    (reaches : Tally.tally (readable id) b'.world.networks ≤
      Tally.tally (readable id) b.world.networks + 1) : Moves (view b id) (view b' id) := by
  have brought : b'.world.bus.countP (brings b'.world id) ≤
      b.world.bus.countP (brings b.world id) := brought_le hI.base hmoved (noAck (by simp))
  have hmore : underWay b'.world id ≤ underWay b.world id + 1 := by
    unfold underWay
    omega
  rw [Exchange.after, if_pos rfl] at hexchange
  cases hstage : exchange id b.world.log with
  | received =>
    rw [hstage] at hexchange
    exact .releases (.inl hstage) hexchange hwire htasks.1 htasks.2 hmore
  | released taken =>
    simp only [Brokered.keepsResponder, hstage, Bool.and_eq_true, Bool.not_eq_true',
      decide_eq_true_eq] at hkeeps
    obtain ⟨rfl, hnone⟩ := hkeeps
    rw [hstage] at hexchange
    exact .releases (.inr ⟨hstage, hnone⟩) hexchange hwire htasks.1 htasks.2 hmore
  | idle => simp [Brokered.inOrder, hstage] at horder
  | published => simp [Brokered.inOrder, hstage] at horder

theorem moves_of_brokerSend (hI : Background b) {n message : Nat} {network : Network}
    {packet : Packet} (hget : b.world.networks[n]? = some network)
    (hok : b.allowed (.broker n (.send packet message)))
    (hmoved : Moved b.world (.broker n (.send packet message)) b'.world)
    (hw : b'.world = (b.world.record (.brokerSent n packet message)).setNetwork n
      { network with fromBroker := network.fromBroker ++ [(packet, message)] })
    (hserving : b'.serving = b.serving) : Moves (view b id) (view b' id) := by
  obtain ⟨hfollows, _, hkeeps⟩ := hok
  have horder : b.inOrder packet = true := ((Bool.and_eq_true _ _).mp hfollows).2
  have htasks : Lasting b.world b'.world id := tasks_same hI hmoved (by rw [hw]; rfl)
  have hnetworks := congrArg World.networks hw
  have hwire := wire_of_set id hget hnetworks hserving (List.append_nil _).symm (by simp)
  rw [List.filterMap_nil, List.append_nil] at hwire
  have hexchange : exchange id b'.world.log =
      (exchange id b.world.log).after id (.brokerSent n packet message) := by
    rw [hw]
    rfl
  have reaches : Tally.tally (readable id) b'.world.networks ≤
      Tally.tally (readable id) b.world.networks +
        if isPubRel id (packet, message) = true then 1 else 0 := readable_of_send hget hnetworks
  by_cases hrel : packet = .Ack (.PubRel id)
  · subst hrel
    rw [if_pos (isPubRel_iff.mpr rfl)] at reaches
    exact moves_of_sentRel hI horder hkeeps hmoved hexchange hwire htasks reaches
  · rw [if_neg (fun h => hrel (isPubRel_iff.mp h))] at reaches
    have hstill : Still (view b id) (view b' id) :=
      still_of hI hmoved htasks reaches (noAck (by simp))
    by_cases hoffers : (exchange id b.world.log).after id (.brokerSent n packet message) =
        exchange id b.world.log
    · exact .drift (hexchange.trans hoffers) (.inl hwire) hstill
    · obtain ⟨hidle, hpublished⟩ := offered_of_sent hrel hoffers
      exact .offers hidle (hexchange.trans hpublished) hwire hstill

theorem moves_of_step (hI : Background b) (hok : b.allowed action) (h : b.step action = some b') :
    Moves (view b id) (view b' id) := by
  obtain ⟨hmoved, hserving⟩ := step_spec h
  have plain (hserving : b'.serving = b.serving)
      (hnetworks : b'.world.networks = b.world.networks) (hlog : b'.world.log = b.world.log)
      (htasks : b'.world.tasks = b.world.tasks) (hread : ∀ n, action ≠ .network n .read) :
      Moves (view b id) (view b' id) :=
    drift_of hI hmoved hserving hnetworks (by rw [hlog]) (tasks_same hI hmoved htasks) hread
  obtain ⟨w', serving'⟩ := b'
  cases hmoved with
  | request => exact plain hserving rfl rfl rfl (by simp)
  | command => exact plain hserving rfl rfl rfl (by simp)
  | hub hmoved => exact moves_of_hub hI hmoved hserving
  | task hget hmoved => exact moves_of_task hI hget hmoved hserving hok.2.2
  | ping hget hmoved => cases hmoved <;> exact plain hserving rfl rfl rfl (by simp)
  | timer hget => exact plain hserving rfl rfl rfl (by simp)
  | network hget hmoved => exact moves_of_network hI hget hmoved hserving
  | brokerRecv hget hto =>
    exact moves_of_brokerRecv hI (of_decide_eq_true hok.1) hget hto (.brokerRecv hget hto) rfl
      hserving
  | brokerSend hget => exact moves_of_brokerSend hI hget hok (.brokerSend hget) rfl hserving

end Steps

/-! ## Every PUBREL -/

/-- The next packet that `TaskNetwork` `n` reads and dispatches is the PUBREL. -/
def dispatches (w : World) (n : Nat) (id : PacketId) : Bool :=
  match w.networks[n]? with
  | some network => network.state = .Connected && network.fromBroker.head?.any (isPubRel id)
  | none => false

section Runs

variable {options : MqttOptions} {protocol : Protocol} {b : Brokered} {n : Nat} {id : PacketId}

theorem dispatches_spec {w : World} (h : dispatches w n id = true) :
    ∃ network message rest, w.networks[n]? = some network ∧ network.state = .Connected ∧
      network.fromBroker = (.Ack (.PubRel id), message) :: rest := by
  unfold dispatches at h
  split at h
  · next network hget =>
    obtain ⟨hstate, hhead⟩ := (Bool.and_eq_true _ _).mp h
    obtain ⟨⟨packet, message⟩, hfirst, hrel⟩ := (Option.any_eq_true _ _).mp hhead
    obtain ⟨rest, hfrom⟩ := List.head?_eq_some_iff.mp hfirst
    obtain rfl : packet = .Ack (.PubRel id) := isPubRel_iff.mp hrel
    exact ⟨network, message, rest, hget, of_decide_eq_true hstate, hfrom⟩
  · cases h

theorem underWay_of_dispatches {w : World} (h : dispatches w n id = true) :
    0 < underWay w id := by
  obtain ⟨network, message, rest, hget, hstate, hfrom⟩ := dispatches_spec h
  have one : 0 < readable id network := by
    rw [readable, if_pos hstate, hfrom, List.countP_cons_of_pos (isPubRel_iff.mpr rfl)]
    exact Nat.succ_pos _
  have part := Tally.le_tally (f := readable id) hget
  unfold underWay
  omega

theorem kept_init (options : MqttOptions) (protocol : Protocol) (id : PacketId) :
    Kept (view (.init options protocol) id) where
  once := Nat.zero_le 1
  unanswered := fun h => absurd h (Nat.lt_irrefl 0)
  awaited := fun h => h.elim nofun nofun
  announced := fun h => absurd h List.not_mem_nil
  renewed := fun _ _ hsplit _ => absurd hsplit.symm (List.append_ne_nil_of_right_ne_nil _ (by simp))
  closing := by
    rintro (⟨task, hmem, _⟩ | hmem)
    · cases hmem
    · cases hmem
  single := Nat.zero_le 1
  unwritten := fun _ h => absurd h List.not_mem_nil

theorem reachable_kept (h : Reachable Brokered.step Brokered.allowed (.init options protocol) b) :
    Background b ∧ ∀ id, Kept (view b id) := by
  refine h.invariant (I := fun b => Background b ∧ ∀ id, Kept (view b id))
    ⟨background_init options protocol, kept_init options protocol⟩ ?_
  rintro b action b' _ ⟨hI, hkept⟩ hok hstep
  exact ⟨background_of_step hI hok hstep,
    fun id => kept_of_moves (moves_of_step hI hok hstep) (hkept id)⟩

/-- Every PUBREL that `TaskNetwork` dispatches comes to a live `TaskPublishRxQos2` of its
id that has taken none yet. -/
theorem pubrel_finds_responder
    (h : Reachable Brokered.step Brokered.allowed (.init options protocol) b)
    (hdispatches : dispatches b.world n id = true) :
    ∃ (i : Nat) (task : Tasks.Task) (protocol : Protocol), b.world.tasks[i]? = some task ∧
      task.spec = .PublishRxQos2 id protocol ∧ task.live = true ∧ task.prog = task.spec.run ∧
      ∀ b', b.step (.network n .read) = some b' →
        ⟨.network n, .task i, .ack (.PubRel id), 0⟩ ∈ b'.world.bus := by
  obtain ⟨hI, hkept⟩ := reachable_kept h
  obtain ⟨task, hmem, hawaits⟩ := (hkept id).responder (underWay_of_dispatches hdispatches)
  obtain ⟨protocol, hspec, hprog⟩ := awaits_iff.mp hawaits
  obtain ⟨i, hget⟩ := List.getElem?_of_mem hmem
  have hlive := (receiver_of_awaits hawaits).2
  refine ⟨i, task, protocol, hget, hspec, hlive, hprog, ?_⟩
  intro b' hstep
  obtain ⟨network, message, rest, hnetwork, hstate, hfrom⟩ := dispatches_spec hdispatches
  obtain ⟨hmoved, _⟩ := step_spec hstep
  obtain ⟨w', serving'⟩ := b'
  cases hmoved with
  | network hnetwork' hmoved =>
    cases hnetwork.symm.trans hnetwork'
    cases hmoved with
    | read hstate' hfrom' =>
      cases hfrom.symm.trans hfrom'
      refine List.mem_append_right _
        (List.mem_map_of_mem (mem_subscribers_ack.mpr ⟨i, ⟨?_, ?_⟩, rfl⟩))
      · exact (List.getElem?_eq_some_iff.mp hget).1
      · change b.world.taskLive i .PubRel = true
        simp [World.taskLive, hget, hlive, hspec, TaskSpec.rx]

end Runs

/-- An exchange up to the PUBREL. -/
def released : List Action :=
  [.hub (.connect 0), .network 0 (.connected false), .hub (.connecting 0), .hub .load,
    .hub .resend, .broker 0 (.send (.Publish (.new "a" (.ExactlyOnce 3) [] false .V4)) 1),
    .network 0 .read, .hub (.recv 1), .task 0 .run, .network 0 (.take 1 none),
    .task 0 .receipt, .broker 0 .recv, .broker 0 (.send (.Ack (.PubRel 3)) 0)]

theorem pubrel_finds_responder_after_pubrec :
    ∃ b, Reachable Brokered.step Brokered.allowed (.init ⟨60, true⟩ .V4) b ∧
      ∃ (i : Nat) (task : Tasks.Task) (protocol : Protocol), b.world.tasks[i]? = some task ∧
        task.spec = .PublishRxQos2 3 protocol ∧ task.live = true ∧ task.prog = task.spec.run ∧
        ∀ b', b.step (.network 0 .read) = some b' →
          ⟨.network 0, .task i, .ack (.PubRel 3), 0⟩ ∈ b'.world.bus := by
  obtain ⟨b, hreachable, hdispatches⟩ : ∃ b,
      Reachable Brokered.step Brokered.allowed (.init ⟨60, true⟩ .V4) b ∧
        dispatches b.world 0 3 = true :=
    exists_of_guardedRun released (by decide +kernel)
  exact ⟨b, hreachable, pubrel_finds_responder hreachable hdispatches⟩

/-- The connection breaks when the PUBCOMP is written but not received. The task is done,
and the PUBREL that is sent again on the next connection finds nobody. -/
theorem repeated_pubrel_finds_nobody :
    ∃ b, Reachable Brokered.step (fun b action => b.follows action = true)
        (.init ⟨60, true⟩ .V4) b ∧
      (dispatches b.world 1 3 = true ∧ ¬ Awaited b.world 3 ∧
        exchange 3 b.world.log = .released true) :=
  exists_of_guardedRun
    (released ++
      [.network 0 .read, .task 0 (.ack 1), .task 0 .run, .hub (.recv 1), .task 0 .run,
        .network 0 (.take 2 none), .task 0 .receipt,
        .network 0 (.readErr "read 0 byte from network"), .hub (.network 2), .hub .disconnect,
        .hub (.connect 0), .network 1 (.connected false), .hub (.connecting 3),
        .broker 1 (.send (.Ack (.PubRel 3)) 0)])
    (by decide +kernel)

end Releases
