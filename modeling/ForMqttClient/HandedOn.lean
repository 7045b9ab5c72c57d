import ForMqttClient.StaleRecovers
import ForMqttClient.TwoPhase
import ForMqttClient.Writes

/-!
# What the far end hands on of QoS 2

The receiver of a QoS 2 publish keeps its packet id until the PUBREL, and hands on
a message when it comes under an id that it does not keep. Whether it hands on each
message once is up to the sender: behind its first PUBREL under an id no PUBLISH of
the same request may come. The sender has a task for each phase, and starts them anew
with each connection.
-/

namespace HandedOn

open MqttData TaskHub HubSteps PacketIds Tasks System SystemSteps TaskRuns GuardedRuns
open Handshake StaleRecovers Orphans TwoPhase

/-- The PUBLISH packet of a request, as it is first sent. -/
def original (trace : TracePublishQos .ExactlyOnce) : Publish :=
  .new trace.topic (.ExactlyOnce trace.packetId) trace.payload trace.retain trace.protocol

/-- What a packet is to the receiver under packet id `p`; it takes no notice of DUP. -/
def signal (p : PacketId) : Outgoing → Option (Signal Publish)
  | .Publish publish =>
    if publish.qos = .ExactlyOnce p then some (.publish { publish with dup := false }) else none
  | .PubRel packetId => if packetId = p then some .release else none
  | _ => none

def reading : Event → Option (Nat × Outgoing)
  | .brokerGot n packet => some (n, packet)
  | _ => none

/-- The packets that the broker has read, over all connections, oldest first. -/
def received (log : List Event) : List Outgoing := (log.reverse.filterMap reading).map Prod.snd

def requestOf (p : PacketId) : Event → Option Publish
  | .accepted (.PublishQoS2 trace) => if trace.packetId = p then some (original trace) else none
  | _ => none

/-- The QoS 2 messages that were taken in under packet id `p`, oldest first. -/
def asked (p : PacketId) (log : List Event) : List Publish :=
  log.reverse.filterMap (requestOf p)

/-- The connection that the broker has read last. -/
def reached (log : List Event) : Nat := (log.findSome? reading).elim 0 Prod.fst

/-- The broker reads a connection no more once it has read a later one. -/
def readsOn (w : World) : Action → Bool
  | .broker n .recv => reached w.log ≤ n
  | _ => true

/-- When a QoS 2 entry is sent anew, no other task is at work for it. -/
def resendsQuietId (w : World) : Action → Bool
  | .hub .resend =>
    match w.hub.position with
    | .resending next =>
      match w.hub.clientData[next]? with
      | some entry =>
        !twoPhase entry || (List.range w.tasks.length).all
          (fun i => !(pending w i).contains (.RecoverId entry.packetId))
      | none => true
    | _ => true
  | _ => true

/-- One connection at a time, and one task at a time for each QoS 2 request. -/
def keepsApart (w : World) (action : Action) : Prop :=
  keepsOneLive w action = true ∧ handsOutQuietId w action = true ∧
    resendsQuietId w action = true ∧ readsOn w action = true

instance (w : World) (action : Action) : Decidable (keepsApart w action) :=
  inferInstanceAs (Decidable (_ ∧ _ ∧ _ ∧ _))

/-! ## One task for each request -/

/-- Task `i` is the entry's own, and the only one that can send `RecoverId` for it. -/
structure Sole (w : World) (i : Nat) (entry : UnacknowledgedClientData) : Prop where
  alone : Alone w i entry
  spec : ∃ task, w.tasks[i]? = some task ∧ task.spec = entry.toAcknowledge

/-- A QoS 2 entry has one task that can send `RecoverId` for it, and a task that still
transmits for one does so for an entry of `client_data`. -/
structure Law (w : World) : Prop where
  alone : ∀ entry ∈ w.hub.clientData, twoPhase entry = true → ∃ i, Sole w i entry
  bounded : ∀ (i : Nat) (task : Tasks.Task), w.tasks[i]? = some task →
    (pending w i).Sublist (toDispatch task.spec.run)
  busy : ∀ (i : Nat) (task : Tasks.Task) (entry : UnacknowledgedClientData),
    w.tasks[i]? = some task → task.prog = task.spec.run → twoPhase entry = true →
    task.spec = entry.toAcknowledge → entry ∈ w.hub.clientData

section Steps

variable {w w' : World} {action : Action}

theorem bounded_of_moved (hrouted : Routed w) (h : Moved w action w')
    (hI : ∀ (i : Nat) (task : Tasks.Task), w.tasks[i]? = some task →
      (pending w i).Sublist (toDispatch task.spec.run)) {i : Nat} {task' : Tasks.Task}
    (hget' : w'.tasks[i]? = some task') :
    (pending w' i).Sublist (toDispatch task'.spec.run) := by
  rcases task_before h hget' with ⟨task, hget, hspec, _⟩ | ⟨hnew, spec, rfl⟩
  · rw [hspec]
    refine List.Sublist.trans ?_ (hI i task hget)
    rcases hub_or_not h with ⟨a, rfl, hmoved⟩ | notHub
    · exact pending_inside hmoved (List.getElem?_eq_some_iff.mp hget).1
    · exact pending_outside h notHub i
  · rcases hub_or_not h with ⟨a, rfl, hmoved⟩ | notHub
    · rw [pending_eq hget', queuedFrom_of_started hrouted hmoved hnew]
      exact List.Sublist.refl _
    · have := (List.getElem?_eq_some_iff.mp hget').1
      have := tasks_length_of_outside h notHub
      omega

theorem entry_unique {hub : Hub} (hids : IdsConserved hub) {entry other : UnacknowledgedClientData}
    (hentry : entry ∈ hub.clientData) (hother : other ∈ hub.clientData)
    (hid : entry.packetId = other.packetId) : entry = other := by
  obtain ⟨k, hk⟩ := List.getElem?_of_mem hentry
  obtain ⟨m, hm⟩ := List.getElem?_of_mem hother
  obtain rfl := index_unique hids hk hm hid
  exact Option.some.inj (hk.symm.trans hm)

/-- A task with a `RecoverId` is started for an entry that is there then. -/
theorem started_for {keepAliveId : Nat} {hub hub' : Hub} {input : HubInput}
    {outputs : List Output} (h : Move keepAliveId hub input hub' outputs) {spec : TaskSpec}
    {p : PacketId} (hspec : spec ∈ startedSpecs outputs)
    (hrecovers : .RecoverId p ∈ toDispatch spec.run) :
    ∃ entry ∈ hub'.clientData, entry.packetId = p ∧
      startedSpecs outputs = [entry.toAcknowledge] := by
  have own {entry : UnacknowledgedClientData} (hmem : entry ∈ hub'.clientData)
      (heq : spec = entry.toAcknowledge) (hstarted : startedSpecs outputs = [entry.toAcknowledge]) :
      ∃ entry ∈ hub'.clientData, entry.packetId = p ∧
        startedSpecs outputs = [entry.toAcknowledge] := by
    obtain ⟨found, hfound, hid⟩ := recoverId_of_run hrecovers
    obtain rfl := toAcknowledge_inj (heq.symm.trans hfound)
    exact ⟨entry, hmem, hid, hstarted⟩
  cases h with
  | accept hat hid hpop hfresh =>
    exact own (List.mem_append_right _ (List.mem_singleton_self _)) (List.mem_singleton.mp hspec)
      rfl
  | recoverRel hat hfind hget =>
    exact own (List.mem_iff_getElem?.mpr
      ⟨_, List.getElem?_set_self (List.getElem?_eq_some_iff.mp hget).1⟩)
      (List.mem_singleton.mp hspec) rfl
  | resendEntry hat hget =>
    exact own (List.mem_of_getElem? hget) (List.mem_singleton.mp hspec) rfl
  | publishQoS0 hat =>
    rw [List.mem_singleton.mp hspec] at hrecovers
    simp [toDispatch, TaskSpec.run] at hrecovers
  | rxAccept hat hfree hkind =>
    rw [List.mem_singleton.mp hspec] at hrecovers
    rcases hkind with ⟨_, rfl⟩ | ⟨_, rfl⟩ <;> simp [toDispatch, TaskSpec.run] at hrecovers
  | _ => cases hspec

/-- A step of the hub that starts no task for an entry has it from before. -/
theorem entry_kept {keepAliveId : Nat} {hub hub' : Hub} {input : HubInput}
    {outputs : List Output} (h : Move keepAliveId hub input hub' outputs)
    {entry : UnacknowledgedClientData} (hmem : entry ∈ hub'.clientData)
    (hnot : startedSpecs outputs ≠ [entry.toAcknowledge]) : entry ∈ hub.clientData := by
  cases h with
  | accept hat hid hpop hfresh =>
    rcases List.mem_append.mp hmem with hold | hnew
    · exact hold
    · rw [List.mem_singleton.mp hnew] at hnot
      exact absurd rfl hnot
  | recoverRel hat hfind hget =>
    rcases List.mem_or_eq_of_mem_set hmem with hold | rfl
    · exact hold
    · exact absurd rfl hnot
  | recoverDone hat hfind hget hdone hpush => exact List.mem_of_mem_eraseIdx hmem
  | _ => exact hmem

theorem entry_stays {keepAliveId : Nat} {hub hub' : Hub} {input : HubInput}
    {outputs : List Output} (h : Move keepAliveId hub input hub' outputs)
    {entry : UnacknowledgedClientData} (hmem : entry ∈ hub.clientData)
    (hinput : input ≠ .hubMsg (.RecoverId entry.packetId)) : entry ∈ hub'.clientData := by
  cases h with
  | accept hat hid hpop hfresh => exact List.mem_append_left _ hmem
  | @recoverDone packetId index found pool hat hfind hget hdone hpush =>
    obtain ⟨k, hk⟩ := List.getElem?_of_mem hmem
    refine List.mem_eraseIdx_iff_getElem?.mpr ⟨k, ?_, hk⟩
    rintro rfl
    cases hget.symm.trans hk
    rw [found_packetId hfind hget] at hinput
    exact hinput rfl
  | @recoverRel packetId index packet hat hfind hget =>
    obtain ⟨k, hk⟩ := List.getElem?_of_mem hmem
    refine List.mem_iff_getElem?.mpr ⟨k, ?_⟩
    rw [List.getElem?_set_ne ?_]
    · exact hk
    · rintro rfl
      cases hget.symm.trans hk
      have hid : packet.packetId = packetId := found_packetId hfind hget
      rw [← hid] at hinput
      exact hinput rfl
  | _ => exact hmem

/-- A task that still transmits has nothing on its way to the hub. -/
theorem Law.unqueued (hI : Law w) {i : Nat} {task : Tasks.Task} (hget : w.tasks[i]? = some task)
    (hwhole : task.prog = task.spec.run) : queuedFrom w.bus i = [] := by
  have bound := (hI.bounded i task hget).length_le
  rw [pending_eq hget, hwhole, List.length_append] at bound
  exact List.length_eq_zero_iff.mp (by omega)

/-- When the hub takes the `RecoverId` for a QoS 2 entry, its task transmits no more. -/
theorem transmits_no_more (hfrom : FromTasks w) (hI : Law w) {entry : UnacknowledgedClientData}
    (hmem : entry ∈ w.hub.clientData) (htwo : twoPhase entry = true) {j message : Nat}
    {sender : Worker} {rest : List Envelope}
    (htake : PairFifo.take Envelope.channel w.bus j =
      some (⟨sender, .hub, .hubMsg (.RecoverId entry.packetId), message⟩, rest))
    {i : Nat} {task : Tasks.Task} (hget : w.tasks[i]? = some task)
    (hspec : task.spec = entry.toAcknowledge) : task.prog ≠ task.spec.run := by
  intro hwhole
  obtain ⟨k, halone, _⟩ := hI.alone entry hmem htwo
  obtain ⟨m, hsender⟩ := hfrom _ (PairFifo.mem_of_take htake) entry.packetId rfl
  cases hsender
  have hqueued := pending_of_take htake
  have left : .RecoverId entry.packetId ∈ toDispatch task.prog := by
    rw [hwhole, hspec]
    exact recoverId_mem_run entry
  obtain rfl : i = k := by
    apply halone.only
    rw [pending_eq hget]
    exact List.mem_append_right _ left
  obtain rfl : m = i := halone.only m (List.mem_append_left _ hqueued)
  rw [hI.unqueued hget hwhole] at hqueued
  cases hqueued

theorem busy_of_hub (hfrom : FromTasks w) {a : HubAction} (h : HubMoved w a w') (hI : Law w)
    {i : Nat} {task : Tasks.Task} {entry : UnacknowledgedClientData}
    (hget : w'.tasks[i]? = some task) (hwhole : task.prog = task.spec.run)
    (htwo : twoPhase entry = true) (hspec : task.spec = entry.toAcknowledge) :
    entry ∈ w'.hub.clientData := by
  cases h with
  | @intro input message taken hub outputs htakes hmove =>
    have htasks := tasks_of_takes htakes hub outputs
    have hhub := (applyOutputs_grown { taken with hub := hub } message outputs).hub
    rw [hhub]
    rw [htasks] at hget
    by_cases hi : i < w.tasks.length
    · rw [List.getElem?_append_left hi] at hget
      have hmem := hI.busy i task entry hget hwhole htwo hspec
      refine entry_stays hmove hmem ?_
      rintro rfl
      cases htakes with
      | hubMsg htake => exact transmits_no_more hfrom hI hmem htwo htake hget hspec hwhole
    · rw [List.getElem?_append_right (Nat.le_of_not_lt hi), List.getElem?_map] at hget
      obtain ⟨spec, hstarted, rfl⟩ := Option.map_eq_some_iff.mp hget
      have hspec' : spec = entry.toAcknowledge := hspec
      obtain ⟨other, hother, _, hsame⟩ := started_for hmove (List.mem_of_getElem? hstarted)
        (hspec' ▸ recoverId_mem_run entry)
      have hmem := List.mem_of_getElem? hstarted
      rw [hsame, List.mem_singleton, hspec'] at hmem
      exact toAcknowledge_inj hmem ▸ hother

theorem busy_of_outside (htrack : OnTrack w) (h : Moved w action w')
    (hhub : ∀ a, action ≠ .hub a) (hI : Law w) {i : Nat} {task' : Tasks.Task}
    {entry : UnacknowledgedClientData} (hget' : w'.tasks[i]? = some task')
    (hwhole : task'.prog = task'.spec.run) (htwo : twoPhase entry = true)
    (hspec' : task'.spec = entry.toAcknowledge) : entry ∈ w'.hub.clientData := by
  rw [(hub_of_moved h hhub).1]
  rcases task_before h hget' with ⟨task, hget, hspec, hsuffix⟩ | ⟨hnew, _⟩
  · refine hI.busy i task entry hget ?_ htwo (hspec ▸ hspec')
    have short := (htrack i task hget).length_le
    have long := hsuffix.length_le
    rw [hwhole, hspec] at long
    exact (htrack i task hget).eq_of_length (Nat.le_antisymm short long)
  · have := (List.getElem?_eq_some_iff.mp hget').1
    have := tasks_length_of_outside h hhub
    omega

/-- A resent entry's new task is the only one. -/
theorem alone_of_resend (hrouted : Routed w) {a : HubAction}
    (hok : resendsQuietId w (.hub a) = true) (h : HubMoved w a w') {taken : World} {message : Nat}
    (htakes : Takes w a .resend message taken) {next : Nat} {entry : UnacknowledgedClientData}
    (hat : At w.hub .Connected (.resending next)) (hget : w.hub.clientData[next]? = some entry)
    (htwo : twoPhase entry = true)
    (htasks : w'.tasks = w.tasks ++ [Task.init entry.toAcknowledge])
    (hlog : w'.log = .started w.tasks.length entry.toAcknowledge :: w.log) :
    Alone w' w.tasks.length entry := by
  refine alone_of_started hrouted h htasks ?_ ?_
  · rw [hlog, current, List.takeWhile_cons]
    exact List.mem_cons_self
  · intro k hk hmem
    have hmem' := (pending_inside h hk).subset hmem
    cases htakes
    simp only [resendsQuietId, hat.position, hget, htwo, Bool.not_true, Bool.false_or,
      List.all_eq_true, List.mem_range] at hok
    have := hok k hk
    simp [hmem'] at this

/-- The task that the step starts for an entry is the only one that is at work for it. -/
theorem sole_of_started (hrouted : Routed w) (hfrom : FromTasks w) {a : HubAction}
    (hquiet : handsOutQuietId w (.hub a) = true) (hresend : resendsQuietId w (.hub a) = true)
    {input : HubInput} {message : Nat} {taken : World} {hub : Hub} {outputs : List Output}
    (htakes : Takes w a input message taken) (hmove : Move w.keepAliveId w.hub input hub outputs)
    (hstep : w.stepHub a =
      some (World.applyOutputs message { taken with hub := hub } outputs)) (hI : Law w)
    {entry : UnacknowledgedClientData} (htwo : twoPhase entry = true)
    (hspecs : startedSpecs outputs = [entry.toAcknowledge]) :
    Sole (World.applyOutputs message { taken with hub := hub } outputs) w.tasks.length entry := by
  have hmoved := hubMoved_of_step hstep
  have htasks := tasks_of_takes htakes hub outputs
  have hhub := (applyOutputs_grown { taken with hub := hub } message outputs).hub
  rw [hspecs] at htasks
  refine ⟨?_, Task.init entry.toAcknowledge, ?_, rfl⟩
  swap
  · rw [htasks, List.getElem?_append_right (Nat.le_refl _), Nat.sub_self]
    rfl
  cases hmove with
  | accept hat hid hpop hfresh =>
    obtain rfl := toAcknowledge_inj (List.cons.inj hspecs).1
    have hdata := takesId_of_grown hat htakes hstep (congrArg Hub.clientData hhub)
    refine alone_of_accept hrouted hquiet hmoved htakes hpop hdata htasks ?_
    cases htakes
    rfl
  | @recoverRel packetId found packet hat hfind hget =>
    have hrel : .PubRel packet.packetId packet.id packet.protocol = entry :=
      toAcknowledge_inj (List.cons.inj hspecs).1
    subst hrel
    obtain ⟨i, halone, _⟩ := hI.alone _ (List.mem_of_getElem? hget) rfl
    have hid : packet.packetId = packetId := found_packetId hfind hget
    subst hid
    refine alone_of_recoverRel hrouted hfrom hmoved htakes halone htasks ?_
    cases htakes
    exact ⟨_, rfl⟩
  | resendEntry hat hget =>
    obtain rfl := toAcknowledge_inj (List.cons.inj hspecs).1
    refine alone_of_resend hrouted hresend hmoved htakes hat hget htwo htasks ?_
    cases htakes
    rfl
  | publishQoS0 hat => cases entry <;> cases hspecs
  | rxAccept hat hfree hspec =>
    rcases hspec with ⟨_, rfl⟩ | ⟨_, rfl⟩ <;> cases entry <;> cases hspecs
  | _ => cases hspecs

theorem sole_of_hub (hrouted : Routed w) (hfrom : FromTasks w) (hids : IdsConserved w'.hub)
    {a : HubAction} (hquiet : handsOutQuietId w (.hub a) = true)
    (hresend : resendsQuietId w (.hub a) = true) (hstep : w.stepHub a = some w') (hI : Law w)
    {entry : UnacknowledgedClientData} (hentry : entry ∈ w'.hub.clientData)
    (htwo : twoPhase entry = true) : ∃ i, Sole w' i entry := by
  have hmoved := hubMoved_of_step hstep
  cases hubMoved_of_step hstep with
  | @intro input message taken hub outputs htakes hmove =>
    obtain ⟨events, hlog, hinside⟩ := log_of_takes htakes hub outputs
    have htasks := tasks_of_takes htakes hub outputs
    rw [(applyOutputs_grown { taken with hub := hub } message outputs).hub] at hentry hids
    by_cases hspecs : startedSpecs outputs = [entry.toAcknowledge]
    · exact ⟨w.tasks.length, sole_of_started hrouted hfrom hquiet hresend htakes hmove hstep hI
        htwo hspecs⟩
    · obtain ⟨i, halone, task, hget, hspec⟩ := hI.alone entry (entry_kept hmove hentry hspecs) htwo
      obtain ⟨task', hget', hspec'⟩ := spec_of_moved (.hub hmoved) hget
      refine ⟨i, alone_of_hub hrouted hmoved htasks hlog hinside ?_ ?_ halone, task', hget',
        hspec'.trans hspec⟩
      · intro spec hspec hrecovers
        obtain ⟨other, hother, hid, hsame⟩ := started_for hmove hspec hrecovers
        rw [entry_unique hids hother hentry hid] at hsame
        exact hspecs hsame
      · intro other hother hid
        cases hmove with
        | accept hat hid' hpop hfresh =>
          have heq := by simpa using hother
          subst heq
          have hmem := List.mem_append_right w.hub.clientData (List.mem_singleton_self other)
          rw [entry_unique hids hmem hentry hid] at hspecs
          exact hspecs rfl
        | _ => simp at hother

/-- What a run of such steps keeps of hub and tasks. -/
structure Apart (w : World) : Prop where
  routed : Routed w
  ids : IdsConserved w.hub
  fromTasks : FromTasks w
  track : OnTrack w
  law : Law w

theorem apart_of_step (hok : keepsApart w action) (hstep : w.step action = some w')
    (hI : Apart w) : Apart w' := by
  have h := moved_of_step hstep
  have after := Handshake.background_of_moved h ⟨hI.routed, hI.ids⟩
  refine ⟨after.routed, after.ids, fromTasks_of_moved h hI.fromTasks,
    onTrack_of_moved h hI.track, ⟨?_, ?_, ?_⟩⟩
  · intro entry hentry htwo
    rcases hub_or_not h with ⟨a, rfl, _⟩ | notHub
    · exact sole_of_hub hI.routed hI.fromTasks after.ids hok.2.1 hok.2.2.1 hstep hI.law hentry
        htwo
    · rw [(hub_of_moved h notHub).1] at hentry
      obtain ⟨i, halone, task, hget, hspec⟩ := hI.law.alone entry hentry htwo
      obtain ⟨task', hget', hspec'⟩ := spec_of_moved h hget
      exact ⟨i, alone_of_outside hI.routed h notHub halone, task', hget', hspec'.trans hspec⟩
  · exact fun i task hget => bounded_of_moved hI.routed h hI.law.bounded hget
  · intro i task entry hget hwhole htwo hspec
    rcases hub_or_not h with ⟨a, rfl, hmoved⟩ | notHub
    · exact busy_of_hub hI.fromTasks hmoved hI.law hget hwhole htwo hspec
    · exact busy_of_outside hI.track h notHub hI.law hget hwhole htwo hspec

/-! ## Packets on their way to a connection -/

/-- What a task has on its way to a live connection belongs to the send that it waits for. -/
def Awaited (w : World) : Prop :=
  ∀ e ∈ w.bus, ∀ n packet receipt, e.receiver = .network n → w.networkLive n = true →
    e.event = .data packet receipt → packet = .PingReq ∨
      ∃ (i : Nat) (task : Tasks.Task) (instr : Instr) (rest : List Instr), e.sender = .task i ∧
        w.tasks[i]? = some task ∧ task.phase = .sending receipt ∧ task.prog = instr :: rest ∧
        packet ∈ Handover.packets instr

/-- A receipt whose data is on its way to a live connection is neither signalled nor lost. -/
theorem open_of_coming (hsignals : Signals w) {e : Envelope} (he : e ∈ w.bus) {n receipt : Nat}
    {packet : Outgoing} (hreceiver : e.receiver = .network n) (hlive : w.networkLive n = true)
    (hevent : e.event = .data packet receipt) :
    w.receiptDone receipt = false ∧ w.receiptLost receipt = false := by
  have travels : 0 < w.bus.countP (carries receipt) :=
    List.countP_pos_iff.mpr ⟨e, he, by simp [carries, hevent]⟩
  have known : receipt < w.receipts.length := by
    by_contra hnot
    have := hsignals.known receipt (Nat.le_of_not_lt hnot)
    omega
  have hcount : w.receipts[receipt]? = some w.receipts[receipt] := List.getElem?_eq_getElem known
  have once := hsignals.once receipt
  have getD : w.receipts.getD receipt 0 = w.receipts[receipt] := by simp [List.getD, hcount]
  rw [signals, getD] at once
  have zero : w.receipts[receipt]? = some 0 := by
    rw [hcount]
    exact congrArg some (by omega)
  refine ⟨by simp [World.receiptDone, zero], kept_iff.mpr (.inr ⟨zero, e, he, ?_⟩)⟩
  exact holds_of_data hreceiver hevent hlive

theorem awaited_of_send (htrack : OnTrack w) (h : Moved w action w') {packet : Outgoing}
    (hsends : Handover.Sends w action packet) {e : Envelope} {receipt : Nat}
    (hfresh : Handover.Fresh w (speaker action) packet receipt e) :
    packet = .PingReq ∨
      ∃ (i : Nat) (task : Tasks.Task) (instr : Instr) (rest : List Instr), e.sender = .task i ∧
        w'.tasks[i]? = some task ∧ task.phase = .sending receipt ∧ task.prog = instr :: rest ∧
        packet ∈ Handover.packets instr := by
  cases hsends with
  | ping hget => exact .inl rfl
  | @task i task a packet hget hsends =>
    right
    obtain ⟨instr, rest, hprog, hhead⟩ := Handover.sends_head hsends
    have hpacket : packet ∈ Handover.packets instr := by
      rcases hhead with ⟨_, rfl | ⟨_, _, rfl⟩⟩ | ⟨_, _, _, rfl⟩ <;> simp [Handover.packets]
    cases h with
    | task hget' hmoved =>
      cases hget.symm.trans hget'
      cases Handover.taskStep_of_moved (htrack i task hget) hmoved with
      | sent other hsends' hw =>
        cases hsends.symm.trans hsends'
        refine ⟨i, { task with phase := .sending w.receipts.length }, instr, rest, hfresh.sender,
          ?_, ?_, hprog, hpacket⟩
        · rw [hw]
          exact List.getElem?_set_self (List.getElem?_eq_some_iff.mp hget).1
        · rw [hfresh.receipt]
      | waits _ hnone => cases hsends.symm.trans hnone
      | left _ hnone => cases hsends.symm.trans hnone
      | same hnone => cases hsends.symm.trans hnone

theorem awaited_of_moved (hsignals : Signals w) (haddressed : Writes.Addressed w)
    (htrack : OnTrack w) (h : Moved w action w') (hI : Awaited w) : Awaited w' := by
  intro e he n packet receipt hreceiver hlive' hevent
  rcases Handover.data_of_moved h he hevent with hold | ⟨hsends, hfresh, _⟩
  · obtain ⟨m, hm, hsame⟩ := haddressed e hold packet receipt hevent
    cases hreceiver.symm.trans hsame
    have hlive := live_before h hm hlive'
    obtain ⟨undone, kept⟩ := open_of_coming hsignals hold hreceiver hlive hevent
    rcases hI e hold n packet receipt hreceiver hlive hevent with hping |
      ⟨i, task, instr, rest, hsender, hget, hphase, hprog, hpacket⟩
    · exact .inl hping
    · refine .inr ⟨i, task, instr, rest, hsender, ?_, hphase, hprog, hpacket⟩
      by_cases hown : ∃ a, action = .task i a
      · obtain ⟨a, rfl⟩ := hown
        cases h with
        | task hget' hmoved =>
          cases hget.symm.trans hget'
          cases hmoved with
          | transmitted hphase' hprog' hdone =>
            cases hphase.symm.trans hphase'
            cases undone.symm.trans hdone
          | sent hphase' hprog' hdone =>
            cases hphase.symm.trans hphase'
            cases undone.symm.trans hdone
          | died hphase' hlost =>
            cases hphase.symm.trans hphase'
            cases kept.symm.trans hlost
          | sendFirst hphase' hprog' => cases hphase.symm.trans hphase'
          | sendOnly hphase' hprog' => cases hphase.symm.trans hphase'
          | dispatch hphase' hprog' => cases hphase.symm.trans hphase'
          | txToUser hphase' hprog' => cases hphase.symm.trans hphase'
          | acked hphase' hprog' htake hrel => cases hphase.symm.trans hphase'
          | skipped hphase' hprog' htake hrel => cases hphase.symm.trans hphase'
          | sendAgain hphase' hprog' => cases hphase.symm.trans hphase'
      · have hother : ∀ a, action ≠ .task i a := fun a ha => hown ⟨a, ha⟩
        rcases hub_or_not h with ⟨a, rfl, hmoved⟩ | notHub
        · obtain ⟨specs, htasks⟩ := tasks_of_hub hmoved
          rw [htasks, List.getElem?_append_left (List.getElem?_eq_some_iff.mp hget).1]
          exact hget
        · exact (task_of_other h notHub hother).trans hget
  · exact awaited_of_send htrack h hsends hfresh

/-- Behind its first await no task sends what the receiver of a publish heeds. -/
theorem tail_silent {spec : TaskSpec} {instr : Instr} {packet : Outgoing}
    (hinstr : instr ∈ spec.run.tail) (hpacket : packet ∈ Handover.packets instr)
    (p : PacketId) : signal p packet = none := by
  cases spec with
  | PublishRxQos2 packetId protocol =>
    simp only [TaskSpec.run, List.tail_cons, List.mem_cons, List.not_mem_nil, or_false] at hinstr
    rcases hinstr with rfl | rfl | rfl
    · cases hpacket
    · rw [List.mem_singleton.mp hpacket]
      rfl
    · cases hpacket
  | _ =>
    simp only [TaskSpec.run, List.tail_cons, List.mem_cons, List.not_mem_nil, or_false] at hinstr
    (try casesm* _ ∨ _) <;> subst hinstr <;> cases hpacket

/-- A PUBLISH or PUBREL under `p` is sent by the first await of a QoS 2 entry's task. -/
theorem signal_of_await {spec : TaskSpec} {prog rest : List Instr} {instr : Instr}
    {packet : Outgoing} {p : PacketId} {s : Signal Publish} (hsuffix : prog <:+ spec.run)
    (hprog : prog = instr :: rest) (hpacket : packet ∈ Handover.packets instr)
    (hsignal : signal p packet = some s) :
    prog = spec.run ∧
      ((∃ trace, spec = .PublishQos2 trace ∧ trace.packetId = p ∧ s = .publish (original trace)) ∨
        ∃ id protocol, spec = .PublishQos2Rel p id protocol ∧ s = .release) := by
  have whole : prog = spec.run := by
    obtain ⟨front, hfront⟩ := hsuffix
    cases front with
    | nil => exact hfront
    | cons head front =>
      have behind : instr ∈ spec.run.tail := by
        rw [← hfront, hprog]
        exact List.mem_append_right _ List.mem_cons_self
      cases (tail_silent behind hpacket p).symm.trans hsignal
  refine ⟨whole, ?_⟩
  have head : spec.run.head? = some instr := by
    rw [← whole, hprog]
    rfl
  cases spec with
  | PublishQos2 trace =>
    left
    obtain rfl := Option.some.inj head
    have both : trace.packetId = p ∧ Signal.publish (original trace) = s := by
      rcases List.mem_cons.mp hpacket with rfl | hdup
      · simpa [signal, original, Publish.new] using hsignal
      · rw [List.mem_singleton.mp hdup] at hsignal
        simpa [signal, original, Publish.new] using hsignal
    exact ⟨trace, rfl, both.1, both.2.symm⟩
  | PublishQos2Rel packetId id protocol =>
    right
    obtain rfl := Option.some.inj head
    have both : packetId = p ∧ Signal.release = s := by
      rcases List.mem_cons.mp hpacket with rfl | hdup
      · simpa [signal] using hsignal
      · rw [List.mem_singleton.mp hdup] at hsignal
        simpa [signal] using hsignal
    exact ⟨id, protocol, by rw [both.1], both.2.symm⟩
  | _ =>
    exfalso
    obtain rfl := Option.some.inj head
    simp only [Handover.packets, transmitPublish, List.mem_cons, List.not_mem_nil, or_false]
      at hpacket
    (try casesm* _ ∨ _) <;> subst hpacket <;> simp [signal, Publish.new] at hsignal

/-- What comes to a live connection under `p` is the PUBLISH or PUBREL of the entry. -/
theorem entry_of_coming (hawaited : Awaited w) (htrack : OnTrack w) (hI : Law w) {e : Envelope}
    (he : e ∈ w.bus) {n receipt : Nat} {packet : Outgoing} (hreceiver : e.receiver = .network n)
    (hlive : w.networkLive n = true) (hevent : e.event = .data packet receipt) {p : PacketId}
    {s : Signal Publish} (hsignal : signal p packet = some s) :
    (∃ trace, .PublishQoS2 trace ∈ w.hub.clientData ∧ trace.packetId = p ∧
        s = .publish (original trace)) ∨
      ∃ id protocol, .PubRel p id protocol ∈ w.hub.clientData ∧ s = .release := by
  rcases hawaited e he n packet receipt hreceiver hlive hevent with rfl |
    ⟨i, task, instr, rest, _, hget, _, hprog, hpacket⟩
  · cases hsignal
  · obtain ⟨whole, ⟨trace, hspec, hid, hs⟩ | ⟨id, protocol, hspec, hs⟩⟩ :=
      signal_of_await (htrack i task hget) hprog hpacket hsignal
    · exact .inl ⟨trace, hI.busy i task (.PublishQoS2 trace) hget whole rfl hspec, hid, hs⟩
    · exact .inr ⟨id, protocol, hI.busy i task (.PubRel p id protocol) hget whole rfl hspec, hs⟩

end Steps

/-! ## What comes to the broker -/

/-- What was written and may still be read. -/
def readable (w : World) : List Outgoing :=
  ((w.networks.map Network.toBroker).drop (reached w.log)).flatten

/-- The signals under packet id `p` that the broker has read. -/
def signalsRead (p : PacketId) (w : World) : List (Signal Publish) :=
  (received w.log).filterMap (signal p)

/-- The signals under `p` that it may still read. -/
def signalsLeft (p : PacketId) (w : World) : List (Signal Publish) :=
  (readable w).filterMap (signal p)

def flow (p : PacketId) (w : World) : List (Signal Publish) := signalsRead p w ++ signalsLeft p w

/-- Only the connection that was started last is live, and the broker reads one that there is. -/
structure Latest (w : World) : Prop where
  live : ∀ n, w.networkLive n = true → n + 1 = w.networks.length
  bound : reached w.log = 0 ∨ reached w.log < w.networks.length

/-- The broker reads on, losing what older connections still held, or a packet that was on
its way to a live connection is written behind all others. -/
inductive Flows (w w' : World) : Prop where
  | same (hreceived : received w'.log = received w.log) (hreadable : readable w' = readable w)
  | read (packet : Outgoing) (rest : List Outgoing)
      (hfront : (packet :: rest).Sublist (readable w))
      (hreceived : received w'.log = received w.log ++ [packet]) (hreadable : readable w' = rest)
  | write (packet : Outgoing)
      (hcoming : packet = .Disconnect ∨ ∃ e ∈ w.bus, ∃ n receipt, e.receiver = .network n ∧
        w.networkLive n = true ∧ e.event = .data packet receipt)
      (hreceived : received w'.log = received w.log)
      (hreadable : readable w' = readable w ++ [packet])

/-- What becomes of the signals under `p`: one is read, one is written, or some are lost. -/
inductive Carried (p : PacketId) (w w' : World) : Prop where
  | less (hread : signalsRead p w' = signalsRead p w)
      (hleft : (signalsLeft p w').Sublist (signalsLeft p w))
  | read (s : Signal Publish) (hread : signalsRead p w' = signalsRead p w ++ [s])
      (hfront : (s :: signalsLeft p w').Sublist (signalsLeft p w))
  | write (packet : Outgoing) (s : Signal Publish) (hsignal : signal p packet = some s)
      (hcoming : ∃ e ∈ w.bus, ∃ n receipt, e.receiver = .network n ∧ w.networkLive n = true ∧
        e.event = .data packet receipt)
      (hread : signalsRead p w' = signalsRead p w)
      (hleft : signalsLeft p w' = signalsLeft p w ++ [s])

section Flow

variable {w w' : World} {action : Action} {p : PacketId}

theorem received_append {events log : List Event} (h : ∀ event ∈ events, reading event = none) :
    received (events ++ log) = received log := by
  have none : events.reverse.filterMap reading = [] :=
    List.filterMap_eq_nil_iff.mpr fun event hmem => h event (List.mem_reverse.mp hmem)
  rw [received, List.reverse_append, List.filterMap_append, none, List.append_nil, ← received]

theorem reached_append {events log : List Event} (h : ∀ event ∈ events, reading event = none) :
    reached (events ++ log) = reached log := by
  have none : events.findSome? reading = none := List.findSome?_eq_none_iff.mpr h
  rw [reached, List.findSome?_append, none, Option.none_or, ← reached]

theorem received_got (n : Nat) (packet : Outgoing) (log : List Event) :
    received (.brokerGot n packet :: log) = received log ++ [packet] := by
  rw [received, List.reverse_cons, List.filterMap_append, List.map_append]
  rfl

/-- A step that the broker reads nothing in, and that writes nothing. -/
theorem flow_of_quiet (events : List Event) (hlog : w'.log = events ++ w.log)
    (hevents : ∀ event ∈ events, reading event = none)
    (hwires : w'.networks.map Network.toBroker = w.networks.map Network.toBroker) :
    received w'.log = received w.log ∧ readable w' = readable w := by
  constructor
  · rw [hlog, received_append hevents]
  · rw [readable, hwires, hlog, reached_append hevents, ← readable]

theorem Flows.quiet (events : List Event) (hlog : w'.log = events ++ w.log)
    (hevents : ∀ event ∈ events, reading event = none)
    (hwires : w'.networks.map Network.toBroker = w.networks.map Network.toBroker) :
    Flows w w' :=
  .same (flow_of_quiet events hlog hevents hwires).1 (flow_of_quiet events hlog hevents hwires).2

theorem wires_set {n : Nat} {network network' : Network} (hget : w.networks[n]? = some network)
    (hsame : network'.toBroker = network.toBroker) :
    (w.networks.set n network').map Network.toBroker = w.networks.map Network.toBroker := by
  obtain ⟨hn, rfl⟩ := List.getElem?_eq_some_iff.mp hget
  rw [List.map_set, hsame]
  have bound : n < (w.networks.map Network.toBroker).length := by simpa using hn
  have same : (w.networks.map Network.toBroker)[n] = w.networks[n].toBroker := List.getElem_map _
  rw [← same]
  exact List.set_getElem_self _

theorem flow_of_brokerSend {n : Nat} {packet : Packet} {message : Nat}
    (h : Moved w (.broker n (.send packet message)) w') :
    received w'.log = received w.log ∧ readable w' = readable w := by
  cases h with
  | brokerSend hget =>
    exact flow_of_quiet [.brokerSent n packet message] rfl
      (fun event hmem => List.mem_singleton.mp hmem ▸ rfl) (wires_set hget rfl)

/-- What is written on the last connection comes behind everything else. -/
theorem readable_write {networks : List Network} {n : Nat}
    {network : Network} (hget : networks[n]? = some network) (hlast : n + 1 = networks.length)
    {k : Nat} (hk : k ≤ n) (packets : List Outgoing) (state : NetworkState) :
    (((networks.set n
        { network with state := state, toBroker := network.toBroker ++ packets }).map
      Network.toBroker).drop k).flatten =
      ((networks.map Network.toBroker).drop k).flatten ++ packets := by
  obtain ⟨hn, hnetwork⟩ := List.getElem?_eq_some_iff.mp hget
  have split : networks = networks.take n ++ [network] := by
    rw [← hnetwork, List.take_append_getElem]
    exact (List.take_of_length_le (Nat.le_of_eq hlast.symm)).symm
  have length : (networks.take n).length = n := List.length_take_of_le (Nat.le_of_lt hn)
  have written : networks.set n
      { network with state := state, toBroker := network.toBroker ++ packets } =
        networks.take n ++
          [{ network with state := state, toBroker := network.toBroker ++ packets }] := by
    conv_lhs => rw [split]
    rw [List.set_append_right _ _ (Nat.le_of_eq length), length, Nat.sub_self]
    rfl
  have before : k ≤ ((networks.take n).map Network.toBroker).length := by
    rw [List.length_map, length]
    exact hk
  rw [written]
  conv_rhs => rw [split]
  rw [List.map_append, List.map_append, List.drop_append_of_le_length before,
    List.drop_append_of_le_length before, List.flatten_append, List.flatten_append]
  simp

theorem reading_inside {first message : Nat} {outputs : List Output} {event : Event}
    (h : Inside first message outputs event) : reading event = none := by
  cases h <;> rfl

theorem flow_of_hub {a : HubAction} (h : HubMoved w a w') :
    received w'.log = received w.log ∧ readable w' = readable w := by
  have moved := h
  cases h with
  | @intro input message taken hub outputs htakes hmove =>
    obtain ⟨events, hlog, hinside⟩ := log_of_takes htakes hub outputs
    have quiet : ∀ event ∈ events, reading event = none :=
      fun event hmem => reading_inside (hinside event hmem)
    refine ⟨by rw [hlog, received_append quiet], ?_⟩
    rw [readable, readable, hlog, reached_append quiet]
    rcases networks_of_hub moved with hsame | ⟨hadded, _⟩
    · rw [hsame]
    · rw [hadded, List.map_append, List.drop_append, List.flatten_append]
      have nothing : (List.drop (reached w.log - (w.networks.map Network.toBroker).length)
          ([Network.init].map Network.toBroker)).flatten = [] := by
        rw [List.flatten_eq_nil_iff]
        intro wire hmem
        exact List.mem_singleton.mp (List.mem_of_mem_drop hmem)
      rw [nothing, List.append_nil]

/-- Of a live connection everything that is written may still be read. -/
theorem Latest.reached_le (hI : Latest w) {n : Nat} {network : Network}
    (hget : w.networks[n]? = some network) (hlive : network.live = true) :
    reached w.log ≤ n ∧ n + 1 = w.networks.length := by
  have last := hI.live n (networkLive_iff.mpr ⟨network, hget, hlive⟩)
  rcases hI.bound with hzero | hlt
  · exact ⟨by omega, last⟩
  · exact ⟨by omega, last⟩

theorem flows_of_network (hI : Latest w) {n : Nat} {network : Network} {a : NetworkAction}
    (hget : w.networks[n]? = some network) (h : NetworkMoved w n network a w') : Flows w w' := by
  have quiet (hlog : w'.log = w.log) {after : Network}
      (hnetworks : w'.networks = w.networks.set n after)
      (hsame : after.toBroker = network.toBroker) : Flows w w' := by
    refine .quiet [] hlog (fun _ hmem => absurd hmem List.not_mem_nil) ?_
    rw [hnetworks, wires_set hget hsame]
  have writes {packet : Outgoing} {state : NetworkState} (hlive : network.live = true)
      (hlog : w'.log = w.log)
      (hnetworks : w'.networks = w.networks.set n
        { network with state := state, toBroker := network.toBroker ++ [packet] })
      (hcoming : packet = .Disconnect ∨ ∃ e ∈ w.bus, ∃ n receipt, e.receiver = .network n ∧
        w.networkLive n = true ∧ e.event = .data packet receipt) : Flows w w' := by
    obtain ⟨hreached, hlast⟩ := hI.reached_le hget hlive
    refine .write packet hcoming (congrArg received hlog) ?_
    rw [readable, hnetworks, hlog, readable_write hget hlast hreached, ← readable]
  cases h with
  | @read packet message rest hstate hfrom => cases packet <;> exact quiet rfl rfl rfl
  | @write j sender packet receipt message rest hstate htake =>
    have hlive : network.live = true := by simp [Network.live, hstate]
    refine writes hlive rfl rfl
      (.inr ⟨_, PairFifo.mem_of_take htake, n, receipt, rfl, ?_, rfl⟩)
    exact networkLive_iff.mpr ⟨network, hget, hlive⟩
  | writeDisconnect hstate =>
    exact writes (by simp [Network.live, hstate]) rfl rfl (.inl rfl)
  | _ => exact quiet rfl rfl rfl

theorem flows_of_read (hok : readsOn w (.broker n .recv) = true) {network : Network}
    {packet : Outgoing} {rest : List Outgoing} (hget : w.networks[n]? = some network)
    (hto : network.toBroker = packet :: rest) :
    Flows w ((w.record (.brokerGot n packet)).setNetwork n { network with toBroker := rest }) := by
  have hreached : reached w.log ≤ n := of_decide_eq_true hok
  obtain ⟨hn, hnetwork⟩ := List.getElem?_eq_some_iff.mp hget
  have wire : (w.networks.map Network.toBroker).drop n =
      (packet :: rest) :: (w.networks.map Network.toBroker).drop (n + 1) := by
    rw [List.drop_eq_getElem_cons (by simpa using hn), List.getElem_map, hnetwork, hto]
  have after : ((w.networks.set n { network with toBroker := rest }).map Network.toBroker).drop n =
      rest :: (w.networks.map Network.toBroker).drop (n + 1) := by
    rw [List.map_set, List.drop_set, if_neg (Nat.lt_irrefl n), Nat.sub_self, wire]
    rfl
  refine .read packet (rest ++ ((w.networks.map Network.toBroker).drop (n + 1)).flatten) ?_
    (received_got n packet w.log) ?_
  · have split : (w.networks.map Network.toBroker).drop n =
        ((w.networks.map Network.toBroker).drop (reached w.log)).drop (n - reached w.log) := by
      rw [List.drop_drop]
      congr 1
      omega
    have suffix : ((w.networks.map Network.toBroker).drop n).flatten <:+ readable w := by
      rw [split, readable]
      obtain ⟨front, hfront⟩ := List.drop_suffix (n - reached w.log)
        ((w.networks.map Network.toBroker).drop (reached w.log))
      refine ⟨front.flatten, ?_⟩
      conv_rhs => rw [← hfront]
      exact List.flatten_append.symm
    rw [wire] at suffix
    exact suffix.sublist
  · have now : reached (.brokerGot n packet :: w.log) = n := rfl
    change (((w.networks.set n { network with toBroker := rest }).map Network.toBroker).drop
      (reached (.brokerGot n packet :: w.log))).flatten = _
    rw [now, after]
    rfl

theorem flows_of_moved (hok : readsOn w action = true) (hI : Latest w)
    (h : Moved w action w') : Flows w w' := by
  have quiet (events : List Event) (hlog : w'.log = events ++ w.log)
      (hevents : ∀ event ∈ events, reading event = none) (hnetworks : w'.networks = w.networks) :
      Flows w w' := .quiet events hlog hevents (congrArg _ hnetworks)
  have none : ∀ event ∈ ([] : List Event), reading event = none :=
    fun _ hmem => absurd hmem List.not_mem_nil
  have one {event : Event} (hevent : reading event = Option.none) :
      ∀ event' ∈ [event], reading event' = Option.none :=
    fun event' hmem => List.mem_singleton.mp hmem ▸ hevent
  cases h with
  | hub h => exact .same (flow_of_hub h).1 (flow_of_hub h).2
  | task hget h =>
    cases h with
    | txToUser hphase hprog => exact quiet [_] rfl (one rfl) rfl
    | acked hphase hprog htake hrel => exact quiet [_] rfl (one rfl) rfl
    | _ => exact quiet [] rfl none rfl
  | ping hget h => cases h <;> exact quiet [] rfl none rfl
  | network hget h => exact flows_of_network hI hget h
  | brokerRecv hget hto => exact flows_of_read hok hget hto
  | brokerSend hget =>
    obtain ⟨hreceived, hreadable⟩ := flow_of_brokerSend (.brokerSend hget)
    exact .same hreceived hreadable
  | _ => exact quiet [] rfl none rfl

theorem signalsRead_same (h : received w'.log = received w.log) :
    signalsRead p w' = signalsRead p w := by
  rw [signalsRead, h, ← signalsRead]

theorem signalsLeft_same (h : readable w' = readable w) : signalsLeft p w' = signalsLeft p w := by
  rw [signalsLeft, h, ← signalsLeft]

theorem filterMap_signal (packets : List Outgoing) (packet : Outgoing) :
    (packets ++ [packet]).filterMap (signal p) =
      packets.filterMap (signal p) ++ (signal p packet).toList := by
  rw [List.filterMap_append]
  cases hsignal : signal p packet <;> simp [hsignal]

/-- Of the packets only the signals under `p` matter to it. -/
theorem carried_of_flows (h : Flows w w') (p : PacketId) : Carried p w w' := by
  cases h with
  | same hreceived hreadable =>
    exact .less (signalsRead_same hreceived) (signalsLeft_same hreadable ▸ List.Sublist.refl _)
  | read packet rest hfront hreceived hreadable =>
    have now : signalsRead p w' = signalsRead p w ++ (signal p packet).toList := by
      rw [signalsRead, hreceived, filterMap_signal, ← signalsRead]
    have kept := hfront.filterMap (signal p)
    rw [← hreadable, List.filterMap_cons] at kept
    cases hsignal : signal p packet with
    | none =>
      rw [hsignal] at now kept
      exact .less (now.trans (List.append_nil _)) kept
    | some s =>
      rw [hsignal] at now kept
      exact .read s now kept
  | write packet hcoming hreceived hreadable =>
    have now : signalsLeft p w' = signalsLeft p w ++ (signal p packet).toList := by
      rw [signalsLeft, hreadable, filterMap_signal, ← signalsLeft]
    cases hsignal : signal p packet with
    | none =>
      rw [hsignal, Option.toList_none, List.append_nil] at now
      exact .less (signalsRead_same hreceived) (now ▸ List.Sublist.refl _)
    | some s =>
      rw [hsignal] at now
      rcases hcoming with rfl | hcoming
      · cases hsignal
      · exact .write packet s hsignal hcoming (signalsRead_same hreceived) now

theorem latest_of_moved (hone : OneLive w') (h : Moved w action w') (hI : Latest w) :
    Latest w' := by
  constructor
  · intro n hlive
    rcases hub_or_not h with ⟨a, rfl, hmoved⟩ | notHub
    · rcases networks_of_hub hmoved with hsame | ⟨hadded, _⟩
      · rw [hsame]
        refine hI.live n ?_
        rw [World.networkLive, ← hsame, ← World.networkLive]
        exact hlive
      · have fresh : w'.networkLive w.networks.length = true := by
          simp [World.networkLive, hadded, Network.live, Network.init]
        have hlength : w'.networks.length = w.networks.length + 1 := by
          rw [hadded, List.length_append, List.length_singleton]
        rw [hone n (lt_of_networkLive hlive) _ (lt_of_networkLive fresh) hlive fresh, hlength]
    · have hlength := networks_length_of_moved h notHub
      rw [hlength]
      exact hI.live n (live_before h (hlength ▸ lt_of_networkLive hlive) hlive)
  · have more := networks_length_le h
    have kept (hsame : reached w'.log = reached w.log) :
        reached w'.log = 0 ∨ reached w'.log < w'.networks.length := by
      rw [hsame]
      exact hI.bound.imp_right (Nat.lt_of_lt_of_le · more)
    rcases hub_or_not h with ⟨a, rfl, hmoved⟩ | notHub
    · cases hmoved with
      | @intro input message taken hub outputs htakes hmove =>
        obtain ⟨events, hlog, hinside⟩ := log_of_takes htakes hub outputs
        refine kept ?_
        rw [hlog, reached_append fun event hmem => reading_inside (hinside event hmem)]
    · cases h with
      | hub h => exact absurd rfl (notHub _)
      | task hget h =>
        cases h <;> exact kept rfl
      | ping hget h => cases h <;> exact kept rfl
      | network hget h =>
        cases h with
        | @read packet => cases packet <;> exact kept rfl
        | _ => exact kept rfl
      | brokerRecv hget hto =>
        exact .inr (Nat.lt_of_lt_of_le (List.getElem?_eq_some_iff.mp hget).1 more)
      | _ => exact kept rfl

end Flow

/-! ## What is handed on -/

/-- How the signals under `p` stand to the requests that were taken in under it. -/
structure Stage (p : PacketId) (w : World) : Prop where
  publishing : ∀ trace, .PublishQoS2 trace ∈ w.hub.clientData → trace.packetId = p →
    ∃ before, asked p w.log = before ++ [original trace] ∧
      Publishing before (original trace) (flow p w)
  releasing : ∀ id protocol, .PubRel p id protocol ∈ w.hub.clientData →
    ∃ before message, asked p w.log = before ++ [message] ∧
      Releasing before message (flow p w)
  covers : Covers (asked p w.log) (flow p w)

section Stages

variable {w w' : World} {action : Action} {p : PacketId}

theorem asked_append {events log : List Event} (h : ∀ event ∈ events, requestOf p event = none) :
    asked p (events ++ log) = asked p log := by
  have none : events.reverse.filterMap (requestOf p) = [] :=
    List.filterMap_eq_nil_iff.mpr fun event hmem => h event (List.mem_reverse.mp hmem)
  rw [asked, List.reverse_append, List.filterMap_append, none, List.append_nil, ← asked]

theorem asked_cons (p : PacketId) (event : Event) (log : List Event) :
    asked p (event :: log) = asked p log ++ (requestOf p event).toList := by
  rw [asked, List.reverse_cons, List.filterMap_append, ← asked]
  cases hrequest : requestOf p event <;> simp [hrequest]

theorem Stage.sublist (hI : Stage p w) (hdata : w'.hub.clientData = w.hub.clientData)
    (hasked : asked p w'.log = asked p w.log) (hflow : (flow p w').Sublist (flow p w)) :
    Stage p w' := by
  refine ⟨?_, ?_, ?_⟩
  · rw [hdata, hasked]
    intro trace hmem hid
    obtain ⟨before, hbefore, hpublishing⟩ := hI.publishing trace hmem hid
    exact ⟨before, hbefore, hpublishing.sublist hflow⟩
  · rw [hdata, hasked]
    intro id protocol hmem
    obtain ⟨before, message, hbefore, hreleasing⟩ := hI.releasing id protocol hmem
    exact ⟨before, message, hbefore, hreleasing.sublist hflow⟩
  · rw [hasked]
    exact hI.covers.sublist hflow

/-- Outside the hub no request is taken in, and the entries stay. -/
theorem entries_of_outside (h : Moved w action w') (hhub : ∀ a, action ≠ .hub a) :
    w'.hub.clientData = w.hub.clientData ∧ asked p w'.log = asked p w.log := by
  obtain ⟨events, hlog, houtside⟩ := log_outside h hhub
  constructor
  · rw [(hub_of_moved h hhub).1]
  · rw [hlog]
    exact asked_append fun event hmem => by cases houtside event hmem <;> rfl

/-- The PUBLISH of the entry is written once more. -/
theorem Stage.publish (hI : Stage p w) (hids : IdsConserved w.hub)
    (hdata : w'.hub.clientData = w.hub.clientData) (hasked : asked p w'.log = asked p w.log)
    {trace : TracePublishQos .ExactlyOnce} (hmem : .PublishQoS2 trace ∈ w.hub.clientData)
    (hid : trace.packetId = p) (hadded : flow p w' = flow p w ++ [.publish (original trace)]) :
    Stage p w' := by
  obtain ⟨before, hbefore, hpublishing⟩ := hI.publishing trace hmem hid
  have hnow : Publishing before (original trace) (flow p w') := hadded ▸ hpublishing.snoc
  refine ⟨?_, ?_, ?_⟩
  · rw [hdata, hasked]
    intro other hother hsame
    cases entry_unique hids hmem hother (hid.trans hsame.symm)
    exact ⟨before, hbefore, hnow⟩
  · rw [hdata]
    intro id protocol hother
    cases entry_unique hids hmem hother hid
  · rw [hasked, hbefore]
    exact hnow.covers

/-- The PUBREL of the entry is written once more. -/
theorem Stage.release (hI : Stage p w) (hids : IdsConserved w.hub)
    (hdata : w'.hub.clientData = w.hub.clientData) (hasked : asked p w'.log = asked p w.log)
    {id : Nat} {protocol : Protocol} (hmem : .PubRel p id protocol ∈ w.hub.clientData)
    (hadded : flow p w' = flow p w ++ [.release]) : Stage p w' := by
  obtain ⟨before, message, hbefore, hreleasing⟩ := hI.releasing id protocol hmem
  have hnow : Releasing before message (flow p w') := hadded ▸ hreleasing.snoc
  refine ⟨?_, ?_, ?_⟩
  · rw [hdata]
    intro other hother hsame
    cases entry_unique hids hmem hother hsame.symm
  · rw [hasked]
    intro _ _ _
    exact ⟨before, message, hbefore, hnow⟩
  · rw [hasked, hbefore]
    exact hnow.covers

theorem stage_of_outside (hids : IdsConserved w.hub) (hok : readsOn w action = true)
    (hlatest : Latest w) (hawaited : Awaited w) (htrack : OnTrack w) (hlaw : Law w)
    (h : Moved w action w') (hhub : ∀ a, action ≠ .hub a) (hI : Stage p w) : Stage p w' := by
  obtain ⟨hdata, hasked⟩ := entries_of_outside (p := p) h hhub
  cases carried_of_flows (flows_of_moved hok hlatest h) p with
  | less hread hleft =>
    refine hI.sublist hdata hasked ?_
    rw [flow, hread]
    exact hleft.append_left _
  | read s hread hfront =>
    refine hI.sublist hdata hasked ?_
    rw [flow, hread, List.append_assoc]
    exact hfront.append_left _
  | write packet s hsignal hcoming hread hleft =>
    obtain ⟨e, he, n, receipt, hreceiver, hlive, hevent⟩ := hcoming
    have hadded : flow p w' = flow p w ++ [s] := by
      rw [flow, hread, hleft, ← List.append_assoc, ← flow]
    rcases entry_of_coming hawaited htrack hlaw he hreceiver hlive hevent hsignal with
      ⟨trace, hmem, hid, rfl⟩ | ⟨id, protocol, hmem, rfl⟩
    · exact hI.publish hids hdata hasked hmem hid hadded
    · exact hI.release hids hdata hasked hmem hadded

theorem Stage.accept {trace : TracePublishQos .ExactlyOnce} (hI : Stage trace.packetId w)
    (hunused : ∀ entry ∈ w.hub.clientData, entry.packetId ≠ trace.packetId)
    (hdata : w'.hub.clientData = w.hub.clientData ++ [.PublishQoS2 trace])
    (hasked : asked trace.packetId w'.log = asked trace.packetId w.log ++ [original trace])
    (hflow : flow trace.packetId w' = flow trace.packetId w) : Stage trace.packetId w' := by
  have began := Publishing.begin hI.covers (original trace)
  refine ⟨?_, ?_, ?_⟩
  · rw [hdata, hflow]
    intro other hmem hid
    rcases List.mem_append.mp hmem with hold | hnew
    · exact absurd hid (hunused _ hold)
    · cases List.mem_singleton.mp hnew
      exact ⟨_, hasked, began⟩
  · rw [hdata]
    intro id protocol hmem
    rcases List.mem_append.mp hmem with hold | hnew
    · exact absurd rfl (hunused _ hold)
    · cases List.mem_singleton.mp hnew
  · rw [hflow, hasked]
    exact began.covers

/-- What a step of the hub does to the QoS 2 entry under `p`. -/
inductive Phases (p : PacketId) (w w' : World) : Prop where
  | kept (hasked : asked p w'.log = asked p w.log)
      (hentries : ∀ entry, twoPhase entry = true → entry.packetId = p →
        (entry ∈ w'.hub.clientData ↔ entry ∈ w.hub.clientData))
  | accepted (trace : TracePublishQos .ExactlyOnce) (hid : trace.packetId = p)
      (hunused : ∀ entry ∈ w.hub.clientData, entry.packetId ≠ p)
      (hdata : w'.hub.clientData = w.hub.clientData ++ [.PublishQoS2 trace])
      (htasks : w'.tasks = w.tasks ++ [Task.init (.PublishQos2 trace)])
      (hasked : asked p w'.log = asked p w.log ++ [original trace])
  | released (trace : TracePublishQos .ExactlyOnce) (hid : trace.packetId = p)
      (hbefore : .PublishQoS2 trace ∈ w.hub.clientData)
      (hafter : .PubRel p trace.id trace.protocol ∈ w'.hub.clientData)
      (htasks : w'.tasks = w.tasks ++ [Task.init (.PublishQos2Rel p trace.id trace.protocol)])
      (htook : ∃ j sender message rest, PairFifo.take Envelope.channel w.bus j =
        some (⟨sender, .hub, .hubMsg (.RecoverId p), message⟩, rest))
      (hasked : asked p w'.log = asked p w.log)
  | closed (id : Nat) (protocol : Protocol) (hbefore : .PubRel p id protocol ∈ w.hub.clientData)
      (hnone : ∀ entry ∈ w'.hub.clientData, entry.packetId ≠ p)
      (htook : ∃ j sender message rest, PairFifo.take Envelope.channel w.bus j =
        some (⟨sender, .hub, .hubMsg (.RecoverId p), message⟩, rest))
      (hasked : asked p w'.log = asked p w.log)

theorem unasked_of_inside {first message : Nat} {outputs : List Output} {event : Event}
    (h : Inside first message outputs event)
    (hnone : ∀ trace, .accepted (.PublishQoS2 trace) ∈ outputs → trace.packetId ≠ p) :
    requestOf p event = none := by
  cases h with
  | @accepted entry hout =>
    cases entry with
    | PublishQoS2 trace => exact if_neg (hnone trace hout)
    | _ => rfl
  | _ => rfl

/-- A removed entry leaves none under its packet id. -/
theorem none_of_removed {hub hub' : Hub} (hids : IdsConserved hub)
    {index : Nat} {entry : UnacknowledgedClientData} (hget : hub.clientData[index]? = some entry)
    (hdata : hub'.clientData = hub.clientData.eraseIdx index) :
    ∀ other ∈ hub'.clientData, other.packetId ≠ entry.packetId := by
  intro other hother hsame
  rw [hdata] at hother
  obtain ⟨k, hne, hk⟩ := List.mem_eraseIdx_iff_getElem?.mp hother
  exact hne (index_unique hids hk hget hsame)

section phases

variable {a : HubAction} {input : HubInput} {message : Nat} {taken : World}

theorem unasked_of_takes (htakes : Takes w a input message taken) (hub : Hub)
    {outputs : List Output}
    (hnone : ∀ trace, .accepted (.PublishQoS2 trace) ∈ outputs → trace.packetId ≠ p) :
    asked p (World.applyOutputs message { taken with hub := hub } outputs).log = asked p w.log := by
  obtain ⟨events, hlog, hinside⟩ := log_of_takes htakes hub outputs
  rw [hlog]
  exact asked_append fun event hmem => unasked_of_inside (hinside event hmem) hnone

theorem clientData_of_outputs (w : World) (message : Nat) (outputs : List Output) :
    (World.applyOutputs message w outputs).hub.clientData = w.hub.clientData :=
  congrArg Hub.clientData (applyOutputs_grown w message outputs).hub

/-- A step that leaves the QoS 2 entries under `p` as they are, and takes in none. -/
theorem phases_of_kept (htakes : Takes w a input message taken) {hub : Hub} {outputs : List Output}
    (hnone : ∀ trace, .accepted (.PublishQoS2 trace) ∈ outputs → trace.packetId ≠ p)
    (hentries : ∀ entry, twoPhase entry = true → entry.packetId = p →
      (entry ∈ hub.clientData ↔ entry ∈ w.hub.clientData)) :
    Phases p w (World.applyOutputs message { taken with hub := hub } outputs) := by
  refine .kept (unasked_of_takes htakes hub hnone) ?_
  rw [clientData_of_outputs]
  exact hentries

/-- A request of another kind, or under another id, leaves the QoS 2 entries under `p`. -/
theorem mem_of_accept {entries : List UnacknowledgedClientData} {added : UnacknowledgedClientData}
    (hfresh : ∀ packetId id protocol, added ≠ .PubRel packetId id protocol)
    (hother : ∀ trace, added = .PublishQoS2 trace → trace.packetId ≠ p)
    {entry : UnacknowledgedClientData} (htwo : twoPhase entry = true) (hid : entry.packetId = p) :
    entry ∈ entries ++ [added] ↔ entry ∈ entries := by
  refine ⟨fun hmem => ?_, fun hmem => List.mem_append_left _ hmem⟩
  rcases List.mem_append.mp hmem with hold | hnew
  · exact hold
  · obtain rfl := List.mem_singleton.mp hnew
    cases entry with
    | PublishQoS2 trace => exact absurd hid (hother trace rfl)
    | PubRel packetId id protocol => exact absurd rfl (hfresh packetId id protocol)
    | _ => cases htwo

theorem phases_of_accept (hids : IdsConserved w.hub) {data : ClientData}
    {entry : UnacknowledgedClientData} {pool : BoundedRing.Ring PacketId poolCapacity}
    (htakes : Takes w a (.clientData data) message taken)
    (hpop : w.hub.pool.pop = some (entry.packetId, pool))
    (hfresh : ∀ packetId id protocol, entry ≠ .PubRel packetId id protocol) :
    Phases p w (World.applyOutputs message
      { taken with
        hub := { w.hub with pool := pool, clientData := w.hub.clientData ++ [entry] } }
      [.accepted entry, .start entry.toAcknowledge]) := by
  by_cases hours : ∃ trace, entry = .PublishQoS2 trace ∧ trace.packetId = p
  · obtain ⟨trace, rfl, rfl⟩ := hours
    refine .accepted trace rfl (unused_of_pop hids hpop) (clientData_of_outputs _ _ _)
      (tasks_of_takes htakes _ _) ?_
    cases htakes with
    | clientData htake =>
      change asked trace.packetId (.started _ _ :: .accepted (.PublishQoS2 trace) ::
        .requested data :: w.log) = _
      rw [asked_cons, asked_cons, asked_cons]
      simp [requestOf]
  · have hother : ∀ trace, entry = .PublishQoS2 trace → trace.packetId ≠ p :=
      fun trace heq hsame => hours ⟨trace, heq, hsame⟩
    refine phases_of_kept htakes ?_ fun other => mem_of_accept hfresh hother
    intro trace hmem
    have heq := by simpa using hmem
    exact hother trace heq.symm

/-- A `RecoverId` under another id removes no entry under `p`. -/
theorem mem_of_recover {hub : Hub} {outputs : List Output} {packetId : PacketId}
    (hmove : Move w.keepAliveId w.hub (.hubMsg (.RecoverId packetId)) hub outputs)
    (hother : packetId ≠ p) {entry : UnacknowledgedClientData} (hid : entry.packetId = p)
    (hold : entry ∈ hub.clientData → entry ∈ w.hub.clientData) :
    entry ∈ hub.clientData ↔ entry ∈ w.hub.clientData := by
  refine ⟨hold, fun hmem => entry_stays hmove hmem ?_⟩
  rintro ⟨⟩
  exact hother hid

theorem phases_of_recoverRel {packetId : PacketId} {index : Nat}
    {packet : TracePublishQos .ExactlyOnce}
    (htakes : Takes w a (.hubMsg (.RecoverId packetId)) message taken)
    (hat : At w.hub .Connected .loop)
    (hfind : w.hub.clientData.findIdx? (fun obj => obj.packetId = packetId) = some index)
    (hget : w.hub.clientData[index]? = some (.PublishQoS2 packet)) :
    Phases p w (World.applyOutputs message
      { taken with
        hub := { w.hub with
          clientData :=
            w.hub.clientData.set index (.PubRel packet.packetId packet.id packet.protocol) } }
      [.start (.PublishQos2Rel packet.packetId packet.id packet.protocol)]) := by
  have hpacket : packet.packetId = packetId := found_packetId hfind hget
  have hindex := (List.getElem?_eq_some_iff.mp hget).1
  by_cases hours : packetId = p
  · obtain rfl := hours
    obtain rfl := hpacket
    have htasks := tasks_of_takes htakes
    cases htakes with
    | hubMsg htake =>
      refine .released packet rfl (List.mem_of_getElem? hget) ?_ (htasks _ _) ⟨_, _, _, _, htake⟩
        (unasked_of_takes (.hubMsg htake) _ (by simp))
      rw [clientData_of_outputs]
      exact List.mem_iff_getElem?.mpr ⟨index, List.getElem?_set_self hindex⟩
  · refine phases_of_kept htakes (by simp) fun other _ hsame =>
      mem_of_recover (.recoverRel hat hfind hget) hours hsame fun hmem => ?_
    rcases List.mem_or_eq_of_mem_set hmem with hold | rfl
    · exact hold
    · exact absurd (hpacket.symm.trans hsame) hours

theorem phases_of_recoverDone (hids : IdsConserved w.hub) {packetId : PacketId} {index : Nat}
    {found : UnacknowledgedClientData} {pool : BoundedRing.Ring PacketId poolCapacity}
    (htakes : Takes w a (.hubMsg (.RecoverId packetId)) message taken)
    (hat : At w.hub .Connected .loop)
    (hfind : w.hub.clientData.findIdx? (fun obj => obj.packetId = packetId) = some index)
    (hget : w.hub.clientData[index]? = some found) (hdone : found.acknowledge.2 = true)
    (hpush : w.hub.pool.push packetId = some pool ∨
      w.hub.pool.push packetId = none ∧ pool = w.hub.pool) :
    Phases p w (World.applyOutputs message
      { taken with
        hub := { w.hub with
          clientData := w.hub.clientData.eraseIdx index
          drawing := true
          pool := pool } }
      [.fetchAdd]) := by
  have hfound : found.packetId = packetId := found_packetId hfind hget
  have hmem := List.mem_of_getElem? hget
  by_cases hours : packetId = p
  · obtain rfl := hours
    cases found with
    | PubRel id' id protocol =>
      obtain rfl : id' = packetId := hfound
      cases htakes with
      | hubMsg htake =>
        exact .closed id protocol hmem (none_of_removed hids hget (clientData_of_outputs _ _ _))
          ⟨_, _, _, _, htake⟩ (unasked_of_takes (.hubMsg htake) _ (by simp))
    | PublishQoS2 trace => cases hdone
    | _ =>
      refine phases_of_kept htakes (by simp) fun other htwo hsame =>
        ⟨List.mem_of_mem_eraseIdx, fun hother => ?_⟩
      cases entry_unique hids hother hmem (hsame.trans hfound.symm)
      cases htwo
  · exact phases_of_kept htakes (by simp) fun other _ hsame =>
      mem_of_recover (.recoverDone hat hfind hget hdone hpush) hours hsame
        List.mem_of_mem_eraseIdx

end phases

theorem phases_of_hub (hids : IdsConserved w.hub) {a : HubAction} (h : HubMoved w a w')
    (p : PacketId) : Phases p w w' := by
  cases h with
  | @intro input message taken hub outputs htakes hmove =>
    cases hmove with
    | accept hat hid hpop hfresh => exact phases_of_accept hids htakes hpop hfresh
    | recoverRel hat hfind hget => exact phases_of_recoverRel htakes hat hfind hget
    | recoverDone hat hfind hget hdone hpush =>
      exact phases_of_recoverDone hids htakes hat hfind hget hdone hpush
    | _ => exact phases_of_kept htakes (by simp) fun _ _ _ => Iff.rfl

theorem stage_of_hub (hids : IdsConserved w.hub) (hids' : IdsConserved w'.hub) {a : HubAction}
    (h : HubMoved w a w') (hI : Stage p w) : Stage p w' := by
  obtain ⟨hreceived, hreadable⟩ := flow_of_hub h
  have hflow : flow p w' = flow p w := by
    rw [flow, signalsRead_same hreceived, signalsLeft_same hreadable, ← flow]
  cases phases_of_hub hids h p with
  | kept hasked hentries =>
    refine ⟨?_, ?_, ?_⟩
    · rw [hasked, hflow]
      exact fun trace hmem hid =>
        hI.publishing trace ((hentries (.PublishQoS2 trace) rfl hid).mp hmem) hid
    · rw [hasked, hflow]
      exact fun id protocol hmem =>
        hI.releasing id protocol ((hentries (.PubRel p id protocol) rfl rfl).mp hmem)
    · rw [hasked, hflow]
      exact hI.covers
  | accepted trace hid hunused hdata _ hasked =>
    subst hid
    exact hI.accept hunused hdata hasked hflow
  | released trace hid hbefore hafter _ _ hasked =>
    obtain ⟨before, hlast, hpublishing⟩ := hI.publishing trace hbefore hid
    refine ⟨?_, ?_, ?_⟩
    · intro other hother hsame
      cases entry_unique hids' hafter hother hsame.symm
    · rw [hasked, hflow]
      intro id protocol hother
      exact ⟨before, original trace, hlast, .begin hpublishing⟩
    · rw [hasked, hflow]
      exact hI.covers
  | closed id protocol hbefore hnone _ hasked =>
    refine ⟨fun trace hmem hid => absurd hid (hnone _ hmem), fun _ _ hmem => ?_, ?_⟩
    · exact absurd rfl (hnone _ hmem)
    · rw [hasked, hflow]
      exact hI.covers

/-- All that a run of such steps keeps. -/
structure Standing (w : World) : Prop where
  apart : Apart w
  latest : Latest w
  awaited : Awaited w
  stage : ∀ p, Stage p w

theorem standing_init (options : MqttOptions) (protocol : Protocol) :
    Standing (.init options protocol) where
  apart := by
    refine ⟨⟨?_, ?_⟩, initial_conserved options protocol, ?_, ?_, ⟨?_, ?_, ?_⟩⟩
    · exact fun _ he => absurd he List.not_mem_nil
    · exact fun _ he => absurd he List.not_mem_nil
    · exact fun _ he => absurd he List.not_mem_nil
    · intro i task hget
      cases hget
    · exact fun _ hentry => absurd hentry List.not_mem_nil
    · intro i task hget
      cases hget
    · intro i task entry hget
      cases hget
  latest := by
    refine ⟨?_, .inl rfl⟩
    intro n hlive
    cases hlive
  awaited := fun _ he => absurd he List.not_mem_nil
  stage := fun _ => ⟨fun _ hmem => absurd hmem List.not_mem_nil,
    fun _ _ hmem => absurd hmem List.not_mem_nil, Covers.nil _⟩

theorem standing_of_step (hone : OneLive w') (hsignals : Signals w)
    (haddressed : Writes.Addressed w) (hok : keepsApart w action)
    (hstep : w.step action = some w') (hI : Standing w) : Standing w' := by
  have h := moved_of_step hstep
  have hapart := apart_of_step hok hstep hI.apart
  refine ⟨hapart, latest_of_moved hone h hI.latest,
    awaited_of_moved hsignals haddressed hI.apart.track h hI.awaited, fun p => ?_⟩
  rcases hub_or_not h with ⟨a, rfl, hmoved⟩ | notHub
  · exact stage_of_hub hI.apart.ids hapart.ids hmoved (hI.stage p)
  · exact stage_of_outside hI.apart.ids hok.2.2.2 hI.latest hI.awaited hI.apart.track
      hI.apart.law h notHub (hI.stage p)

theorem oneLive_of_apart (hok : keepsApart w action) (hstep : w.step action = some w') :
    OneLive w' := by
  simpa [keepsOneLive, hstep] using hok.1

theorem reachable_standing {options : MqttOptions} {protocol : Protocol}
    (h : Reachable World.step keepsApart (.init options protocol) w) : Standing w := by
  refine h.invariant (standing_init options protocol) ?_
  intro s action s' hreach ih hok hstep
  have background := Orphans.reachable_background (hreach.mono fun _ _ hok => hok.1)
  exact standing_of_step (oneLive_of_apart hok hstep) background.signals
    (Writes.reachable_addressed hreach) hok hstep ih

end Stages

/-- In every run with one connection and, for each QoS 2 request, one task at a time, and
with any broker: what a receiver of QoS 2 hands on of the packets that it reads is, under
each packet id, a part of the requests that the hub took in under it, in that order. No
request is handed on twice, whatever is sent again, lost or acknowledged. -/
theorem handed_on_in_order {options : MqttOptions} {protocol : Protocol} {w : World}
    (h : Reachable World.step keepsApart (.init options protocol) w) (p : PacketId) :
    (handsOn false (signalsRead p w)).Sublist (asked p w.log) :=
  ((reachable_standing h).stage p).covers _ (List.sublist_append_left _ _)

/-- The PUBLISH is read, sent again after a timeout, and once more on the next connection. -/
def publishedAgain : List Action :=
  [.hub (.connect 0), .network 0 (.connected false), .hub (.connecting 0), .hub .load,
    .hub .resend,
    .request (.PublishQoS2 (.init .ExactlyOnce "a" [] false .V4 7)), .hub (.recv 1),
    .task 0 .run, .network 0 (.take 1 none), .task 0 .receipt, .broker 0 .recv,
    .task 0 .timeout, .network 0 (.readErr "read 0 byte from network"), .task 0 .receiptErr,
    .hub (.network 2), .hub .disconnect, .hub (.connect 0), .network 1 (.connected false),
    .hub (.connecting 3), .hub .load, .hub .resend, .hub .resend,
    .task 1 .run, .network 1 (.take 4 none), .task 1 .receipt, .broker 1 .recv]

theorem published_again_handed_on_once :
    ∃ w : World, (received w.log).length = 2 ∧
      (handsOn false (signalsRead 1 w)).Sublist (asked 1 w.log) := by
  obtain ⟨w, h, hat⟩ : ∃ w : World, Reachable World.step keepsApart (.init ⟨60, true⟩ .V4) w ∧
      (received w.log).length = 2 :=
    exists_of_guardedRun publishedAgain (by decide +kernel)
  exact ⟨w, hat, handed_on_in_order h 1⟩

/-- The PUBREC comes, and its connection breaks before the hub takes the `RecoverId`. The
resend loop starts a task for the PUBLISH all the same, and the `RecoverId` one for the
PUBREL, which overtakes it. -/
def overtakenByPubRel : List Action :=
  [.hub (.connect 0), .network 0 (.connected false), .hub (.connecting 0), .hub .load,
    .hub .resend,
    .request (.PublishQoS2 (.init .ExactlyOnce "a" [] false .V4 7)), .hub (.recv 1),
    .task 0 .run, .network 0 (.take 1 none), .task 0 .receipt, .broker 0 .recv,
    .broker 0 (.send (.Ack (.PubRec 1)) 0), .network 0 .read, .task 0 (.ack 1), .task 0 .run,
    .network 0 (.readErr "read 0 byte from network"),
    .hub (.network 2), .hub .disconnect, .hub (.connect 0), .network 1 (.connected false),
    .hub (.connecting 3), .hub .load, .hub .resend, .hub .resend, .hub (.recv 1),
    .task 2 .run, .network 1 (.take 3 none), .task 2 .receipt, .broker 1 .recv,
    .task 1 .run, .network 1 (.take 3 none), .task 1 .receipt, .broker 1 .recv]

/-- While a `RecoverId` of the entry is under way a resend makes for a second delivery, be
there one connection at a time and no packet id handed out too early. -/
example :
    ∃ w : World, Reachable World.step
        (fun w a => keepsOneLive w a = true ∧ handsOutQuietId w a = true ∧ readsOn w a = true)
        (.init ⟨60, true⟩ .V4) w ∧
      ((asked 1 w.log).length = 1 ∧
        (handsOn false (signalsRead 1 w)).length = 2) :=
  exists_of_guardedRun overtakenByPubRel (by decide +kernel)

end HandedOn
