import ForMqttClient.Handshake
import ForMqttClient.Orphans
import ForMqttClient.Requests

/-!
# Whose `RecoverId` the hub acts on

The task of a QoS1 publish sends `RecoverId` twice. The second one meets no
entry, unless its packet id was handed out again in between. On one connection,
and while no id is handed out that a `RecoverId` is still to come for, the hub
acts only on the `RecoverId` of the entry's own task.
-/

namespace StaleRecovers

open MqttData TaskHub HubSteps PacketIds Tasks System SystemSteps TaskRuns GuardedRuns Handshake

def connectSuccess : Event → Bool
  | .user (.ConnectSuccess _) => true
  | _ => false

/-- The hub connects once. -/
def connectsOnce (w : World) : Action → Bool
  | .hub (.connecting j) =>
    match w.receive .hubNetwork j with
    | some (⟨_, _, .networkEvent (.Connected _), _⟩, _) => !w.log.any connectSuccess
    | _ => true
  | _ => true

/-- The request is given a packet id. -/
def takesId : ClientData → Bool
  | .PublishQoS0 _ => false
  | _ => true

/-- No `RecoverId` is still to come for a packet id that is handed out. -/
def handsOutQuietId (w : World) : Action → Bool
  | .hub (.recv j) =>
    match w.receive .hub j with
    | some (⟨_, _, .clientData data, _⟩, _) =>
      match w.hub.pool.pop with
      | some (p, _) =>
        !takesId data ||
          (List.range w.tasks.length).all (fun i => !(pending w i).contains (.RecoverId p))
      | none => true
    | _ => true
  | _ => true

/-- The acknowledgement that the task of the entry waits for. -/
def Confirms (entry : UnacknowledgedClientData) (ack : Ack) : Prop :=
  entry.toAcknowledge.rx = some ack.type ∧ ack.packetId = entry.packetId

/-- The sender is the task that was started for the entry as it stands, and has
received its acknowledgement since the request was taken in. -/
def OwnRecover (w : World) (sender : Worker) (entry : UnacknowledgedClientData) : Prop :=
  ∃ i, sender = .task i ∧ .started i entry.toAcknowledge ∈ current entry.packetId w.log ∧
    ∃ ack, Confirms entry ack ∧ .acked i ack ∈ current entry.packetId w.log

/-- Task `i` is the only one that can send `RecoverId` for the entry, in the
first phase of QoS2 only once, and it has its acknowledgement when it does. -/
structure Alone (w : World) (i : Nat) (entry : UnacknowledgedClientData) : Prop where
  started : .started i entry.toAcknowledge ∈ current entry.packetId w.log
  present : i < w.tasks.length
  only : ∀ k, .RecoverId entry.packetId ∈ pending w k → k = i
  once : (∃ packet, entry = .PublishQoS2 packet) →
    (pending w i).count (.RecoverId entry.packetId) ≤ 1
  confirmed : Unacked w i entry.toAcknowledge ∨
    ∃ ack, Confirms entry ack ∧ .acked i ack ∈ current entry.packetId w.log

/-- The hub has not connected yet, or holds entries whose tasks are alone; and
its resend loop finds nothing. -/
structure Law (w : World) : Prop where
  early : w.log.any connectSuccess = false →
    w.hub.clientData = [] ∧ w.hub.state ≠ .Connected
  resends : ∀ next, w.hub.position = .resending next → w.hub.clientData = []
  alone : w.hub.state = .Connected → ∀ entry ∈ w.hub.clientData, ∃ i, Alone w i entry

section Steps

variable {w w' : World} {action : Action} {i : Nat} {entry : UnacknowledgedClientData}

theorem run_toAcknowledge (entry : UnacknowledgedClientData) :
    ∃ data dupData rest type,
      entry.toAcknowledge.run = .transmit data dupData entry.packetId :: rest ∧
        entry.toAcknowledge.rx = some type := by
  cases entry <;> exact ⟨_, _, _, _, rfl, rfl⟩

/-- A `RecoverId` in the run of a task is for the entry that the task works for. -/
theorem recoverId_of_run {spec : TaskSpec} {p : PacketId}
    (h : .RecoverId p ∈ toDispatch spec.run) :
    ∃ entry : UnacknowledgedClientData, spec = entry.toAcknowledge ∧ entry.packetId = p := by
  cases spec with
  | PublishQos1 trace =>
    refine ⟨.PublishQoS1 trace, rfl, ?_⟩
    simpa [toDispatch, TaskSpec.run, transmitPublish, UnacknowledgedClientData.packetId, eq_comm]
      using h
  | PublishQos2 trace =>
    refine ⟨.PublishQoS2 trace, rfl, ?_⟩
    simpa [toDispatch, TaskSpec.run, transmitPublish, UnacknowledgedClientData.packetId, eq_comm]
      using h
  | PublishQos2Rel packetId id protocol =>
    refine ⟨.PubRel packetId id protocol, rfl, ?_⟩
    simpa [toDispatch, TaskSpec.run, UnacknowledgedClientData.packetId, eq_comm] using h
  | Subscribe trace =>
    refine ⟨.Subscribe trace, rfl, ?_⟩
    simpa [toDispatch, TaskSpec.run, UnacknowledgedClientData.packetId, eq_comm] using h
  | Unsubscribe trace =>
    refine ⟨.Unsubscribe trace, rfl, ?_⟩
    simpa [toDispatch, TaskSpec.run, UnacknowledgedClientData.packetId, eq_comm] using h
  | PublishQos0 trace => simp [toDispatch, TaskSpec.run] at h
  | PublishRxQos1 packetId protocol => simp [toDispatch, TaskSpec.run] at h
  | PublishRxQos2 packetId protocol => simp [toDispatch, TaskSpec.run] at h

/-- Outside the hub a task at most loses what it was to send. -/
theorem pending_outside (h : Moved w action w') (hhub : ∀ a, action ≠ .hub a) (k : Nat) :
    (pending w' k).Sublist (pending w k) := by
  by_cases htask : ∃ a, action = .task k a
  · obtain ⟨a, rfl⟩ := htask
    cases h with
    | task hget hmoved =>
      rcases pending_of_taskMoved hget hmoved with hsame | ⟨_, _, _, hqueued⟩
      · rw [hsame]
      · rw [hqueued, pending]
        exact List.sublist_append_left _ _
  · rw [pending_of_other h hhub (fun a ha => htask ⟨a, ha⟩)]

theorem pending_inside {a : HubAction} (h : HubMoved w a w') {k : Nat} (hk : k < w.tasks.length) :
    (pending w' k).Sublist (pending w k) := by
  rw [pending_of_hub h hk]
  exact List.sublist_append_right _ _

/-- What a task has to send that a step of the hub has started. -/
theorem pending_of_started (hrouted : Routed w) {a : HubAction} (h : HubMoved w a w')
    {specs : List TaskSpec} (htasks : w'.tasks = w.tasks ++ specs.map Task.init) {k : Nat}
    (hk : w.tasks.length ≤ k) {msg : HubMsg} (hmem : msg ∈ pending w' k) :
    ∃ spec, specs[k - w.tasks.length]? = some spec ∧ msg ∈ toDispatch spec.run := by
  rw [pending, queuedFrom_of_started hrouted h hk, List.nil_append, htasks,
    List.getElem?_append_right hk, List.getElem?_map] at hmem
  cases hget : specs[k - w.tasks.length]? with
  | none =>
    rw [hget] at hmem
    cases hmem
  | some spec =>
    rw [hget] at hmem
    exact ⟨spec, rfl, hmem⟩

/-- A task stays alone when no new `RecoverId` for the entry comes up. -/
theorem Alone.carry (hI : Alone w i entry) (hlength : w.tasks.length ≤ w'.tasks.length)
    {events : List Event} (hlog : w'.log = events ++ w.log)
    (hquiet : ∀ event ∈ events, requestUnder entry.packetId event = none)
    (hpending : ∀ k, .RecoverId entry.packetId ∈ pending w' k →
      .RecoverId entry.packetId ∈ pending w k)
    (hsublist : (pending w' i).Sublist (pending w i))
    (hconfirmed : Unacked w i entry.toAcknowledge → Unacked w' i entry.toAcknowledge ∨
      ∃ ack, Confirms entry ack ∧ .acked i ack ∈ events) : Alone w' i entry := by
  have hcurrent : current entry.packetId w'.log = events ++ current entry.packetId w.log := by
    rw [hlog]
    exact current_append hquiet
  refine ⟨?_, by have := hI.present; omega, ?_, ?_, ?_⟩
  · rw [hcurrent]
    exact List.mem_append_right _ hI.started
  · exact fun k hk => hI.only k (hpending k hk)
  · exact fun htwo => Nat.le_trans (hsublist.count_le _) (hI.once htwo)
  · rw [hcurrent]
    rcases hI.confirmed with hwaits | ⟨ack, hack, hacked⟩
    · rcases hconfirmed hwaits with hwaits' | ⟨ack, hack, hacked⟩
      · exact .inl hwaits'
      · exact .inr ⟨ack, hack, List.mem_append_left _ hacked⟩
    · exact .inr ⟨ack, hack, List.mem_append_right _ hacked⟩

theorem alone_of_outside (hrouted : Routed w) (h : Moved w action w')
    (hhub : ∀ a, action ≠ .hub a) (hI : Alone w i entry) : Alone w' i entry := by
  obtain ⟨events, hlog, houtside⟩ := log_outside h hhub
  refine hI.carry (tasks_length_le h) hlog ?_ ?_ (pending_outside h hhub i) ?_
  · exact fun event hevent => quiet_of_outside (houtside event hevent) _
  · exact fun k hk => (pending_outside h hhub k).subset hk
  · intro hwaits
    obtain ⟨data, dupData, rest, type, hrun, hrx⟩ := run_toAcknowledge entry
    rcases unacked_of_outside hrouted h hhub hlog hrun hrx hwaits with
      hwaits' | ⟨ack, htype, hpacketId, hacked⟩
    · exact .inl hwaits'
    · exact .inr ⟨ack, ⟨htype ▸ hrx, hpacketId⟩, hacked⟩

/-- A step of the hub that is about other packet ids. -/
theorem alone_of_hub (hrouted : Routed w) {a : HubAction} (h : HubMoved w a w')
    {message : Nat} {outputs : List Output} {events : List Event}
    (htasks : w'.tasks = w.tasks ++ (startedSpecs outputs).map Task.init)
    (hlog : w'.log = events ++ w.log)
    (hinside : ∀ event ∈ events, Inside w.tasks.length message outputs event)
    (hstarted : ∀ spec ∈ startedSpecs outputs, .RecoverId entry.packetId ∉ toDispatch spec.run)
    (haccepted : ∀ other, .accepted other ∈ outputs → other.packetId ≠ entry.packetId)
    (hI : Alone w i entry) : Alone w' i entry := by
  refine hI.carry (tasks_length_le (.hub h)) hlog ?_ ?_ (pending_inside h hI.present) ?_
  · intro event hevent
    cases hinside event hevent with
    | accepted hmem => exact if_neg (haccepted _ hmem)
    | _ => rfl
  · intro k hk
    by_cases hlt : k < w.tasks.length
    · exact (pending_inside h hlt).subset hk
    · obtain ⟨spec, hget, hmem⟩ := pending_of_started hrouted h htasks (by omega) hk
      exact absurd hmem (hstarted spec (List.mem_of_getElem? hget))
  · exact fun hwaits => .inl (unacked_of_hub h hwaits)

/-- A task that was just started for the entry, when no other has a `RecoverId` for it. -/
theorem alone_of_started (hrouted : Routed w) {a : HubAction} (h : HubMoved w a w')
    (htasks : w'.tasks = w.tasks ++ [Task.init entry.toAcknowledge])
    (hstarted : .started w.tasks.length entry.toAcknowledge ∈ current entry.packetId w'.log)
    (hnone : ∀ k < w.tasks.length, .RecoverId entry.packetId ∉ pending w' k) :
    Alone w' w.tasks.length entry := by
  have hget : w'.tasks[w.tasks.length]? = some (.init entry.toAcknowledge) := by
    rw [htasks]
    simp
  have specs : w'.tasks = w.tasks ++ [entry.toAcknowledge].map Task.init := htasks
  refine ⟨hstarted, (List.getElem?_eq_some_iff.mp hget).1, ?_, ?_, ?_⟩
  · intro k hk
    by_cases hlt : k < w.tasks.length
    · exact absurd hk (hnone k hlt)
    · obtain ⟨spec, hspec, _⟩ := pending_of_started hrouted h specs (by omega) hk
      have := (List.getElem?_eq_some_iff.mp hspec).1
      simp at this
      omega
  · rintro ⟨packet, rfl⟩
    rw [pending_eq hget, queuedFrom_of_started hrouted h (Nat.le_refl _)]
    exact List.count_le_length
  · exact .inl (unacked_of_started hrouted h (Nat.le_refl _) hget)

/-- A step that takes no `RecoverId` for an entry neither takes in a request
under its packet id nor starts a task for it, unless it resends. -/
theorem other_ids (hids : IdsConserved w.hub) {input : HubInput} {hub : Hub}
    {outputs : List Output} (h : Move w.keepAliveId w.hub input hub outputs)
    (hresends : ∀ next, w.hub.position = .resending next → w.hub.clientData = [])
    (hmem : entry ∈ w.hub.clientData) (hinput : input ≠ .hubMsg (.RecoverId entry.packetId)) :
    (∀ spec ∈ startedSpecs outputs, .RecoverId entry.packetId ∉ toDispatch spec.run) ∧
      ∀ other, .accepted other ∈ outputs → other.packetId ≠ entry.packetId := by
  have apart {other : UnacknowledgedClientData} (hne : other.packetId ≠ entry.packetId) :
      .RecoverId entry.packetId ∉ toDispatch other.toAcknowledge.run := by
    intro hrun
    obtain ⟨found, hfound, hid⟩ := recoverId_of_run hrun
    apply hne
    rw [← hid]
    cases other <;> cases found <;> cases hfound <;> rfl
  cases h with
  | @accept data other pool hat hid hpop hfresh =>
    have hne := (unused_of_pop hids hpop entry hmem).symm
    constructor
    · intro spec hspec
      rw [List.mem_singleton.mp hspec]
      exact apart hne
    · intro found hfound
      have : found = other := by simpa using hfound
      rwa [this]
  | @recoverRel packetId index packet hat hfind hget =>
    have hne : (UnacknowledgedClientData.PubRel packet.packetId packet.id packet.protocol).packetId ≠
        entry.packetId := by
      have hid : packet.packetId = packetId := found_packetId hfind hget
      rintro (heq : packet.packetId = entry.packetId)
      apply hinput
      rw [← heq, hid]
    constructor
    · intro spec hspec
      rw [List.mem_singleton.mp hspec]
      exact apart hne
    · simp
  | resendEntry hat hget =>
    rw [hresends _ hat.position] at hmem
    cases hmem
  | publishQoS0 hat =>
    constructor
    · intro spec hspec
      rw [List.mem_singleton.mp hspec]
      simp [toDispatch, TaskSpec.run]
    · simp
  | @rxAccept publish packetId protocol spec hat hfree hspec =>
    constructor
    · intro spec' hmem'
      rw [List.mem_singleton.mp hmem']
      rcases hspec with ⟨_, rfl⟩ | ⟨_, rfl⟩ <;> simp [toDispatch, TaskSpec.run]
    · simp
  | _ => exact ⟨by simp [startedSpecs], by simp⟩

/-! ### The law, one field at a time -/

theorem any_of_suffix {older log : List Event} (h : older <:+ log)
    (hnone : log.any connectSuccess = false) : older.any connectSuccess = false := by
  obtain ⟨newer, rfl⟩ := h
  rw [List.any_append, Bool.or_eq_false_iff] at hnone
  exact hnone.2

/-- When the hub connects, it has not connected before. -/
theorem first_connect {j message : Nat} {sender : Worker} {sessionPresent : Bool}
    {rest : List Envelope} (hok : connectsOnce w (.hub (.connecting j)) = true)
    (htake : PairFifo.take Envelope.channel w.bus j =
      some (⟨sender, .hubNetwork, .networkEvent (.Connected sessionPresent), message⟩, rest)) :
    w.log.any connectSuccess = false := by
  simpa only [connectsOnce, receive_of_take htake, Bool.not_eq_true'] using hok

theorem early_of_hub {a : HubAction} (h : HubMoved w a w') (hI : Law w)
    (hnone : w'.log.any connectSuccess = false) :
    w'.hub.clientData = [] ∧ w'.hub.state ≠ .Connected := by
  obtain ⟨hdata, hstate⟩ := hI.early (any_of_suffix (log_grows (.hub h)) hnone)
  cases h with
  | @intro input message taken hub outputs htakes hmove =>
    have hawaits := hmove.awaits
    rw [(applyOutputs_grown { taken with hub := hub } message outputs).hub]
    cases input with
    | load =>
      cases hmove
      exact ⟨hdata, hstate⟩
    | connect commands => cases hmove <;> exact ⟨hdata, by simp [At.state hawaits]⟩
    | connecting event =>
      cases hmove with
      | connected hat =>
        have success : true = false := hnone
        cases success
      | turnErr hat => exact ⟨hdata, hstate⟩
      | turnFail hat _ => exact ⟨hdata, hstate⟩
      | turnDisconnect hat _ => exact ⟨hdata, hstate⟩
      | giveUpFail hat _ => exact ⟨hdata, by simp⟩
      | giveUpDisconnect hat _ => exact ⟨hdata, by simp⟩
    | disconnect =>
      cases hmove with
      | disconnect hat hnext => exact ⟨hdata, by rcases hnext with rfl | rfl <;> simp⟩
    | resend =>
      obtain ⟨next, hat⟩ := hawaits
      exact absurd hat.state hstate
    | command command => exact absurd (At.state hawaits) hstate
    | network event => exact absurd (At.state hawaits) hstate
    | clientData data => exact absurd (At.state hawaits) hstate
    | hubMsg msg => exact absurd (At.state hawaits) hstate

theorem resends_of_hub {a : HubAction} (hok : connectsOnce w (.hub a) = true)
    (h : HubMoved w a w') (hI : Law w) {next : Nat} (hpos : w'.hub.position = .resending next) :
    w'.hub.clientData = [] := by
  cases h with
  | @intro input message taken hub outputs htakes hmove =>
    have hhub := (applyOutputs_grown { taken with hub := hub } message outputs).hub
    rw [hhub] at hpos ⊢
    have loop {position : RunPosition} (hat : w.hub.position = .loop)
        (hsame : position = w.hub.position) (hpos : position = .resending next) :
        hub.clientData = [] := by
      rw [hsame, hat] at hpos
      cases hpos
    cases hmove with
    | connected hat =>
      cases htakes with
      | connecting htake => exact (hI.early (first_connect hok htake)).1
    | load hdraw => exact hI.resends next hpos
    | resendEntry hat _ => exact hI.resends _ hat.position
    | startNetwork hat => cases hpos
    | turnErr hat => cases hpos
    | turnFail hat _ => cases hpos
    | turnDisconnect hat _ => cases hpos
    | giveUpFail hat _ => cases hpos
    | giveUpDisconnect hat _ => cases hpos
    | resendEnd hat _ => cases hpos
    | _ => exact loop (At.position (by assumption)) rfl hpos

/-- Whoever has a `RecoverId` under way is a task. -/
def FromTasks (w : World) : Prop :=
  ∀ e ∈ w.bus, ∀ p, e.event = .hubMsg (.RecoverId p) → ∃ i, e.sender = .task i

theorem fromTasks_of_moved (h : Moved w action w') (hI : FromTasks w) : FromTasks w' := by
  intro e he p hevent
  rcases mem_bus_of_moved h he with hmem | hnew
  · exact hI e hmem p hevent
  · cases hnew with
    | task hget hphase hprog => exact ⟨_, rfl⟩
    | _ => cases hevent

theorem pending_of_take {j message : Nat} {p : PacketId} {rest : List Envelope}
    (htake : PairFifo.take Envelope.channel w.bus j =
      some (⟨.task i, .hub, .hubMsg (.RecoverId p), message⟩, rest)) :
    .RecoverId p ∈ queuedFrom w.bus i := by
  rw [queuedFrom_take htake]
  exact List.mem_cons_self

/-- The `RecoverId` that the hub takes for an entry is the entry's own. -/
theorem own_of_alone (hfrom : FromTasks w) (hI : ∃ i, Alone w i entry) {j message : Nat}
    {sender : Worker} {rest : List Envelope}
    (htake : PairFifo.take Envelope.channel w.bus j =
      some (⟨sender, .hub, .hubMsg (.RecoverId entry.packetId), message⟩, rest)) :
    OwnRecover w sender entry := by
  obtain ⟨i, halone⟩ := hI
  obtain ⟨k, hsender⟩ := hfrom _ (PairFifo.mem_of_take htake) entry.packetId rfl
  cases hsender
  have hqueued := pending_of_take htake
  obtain rfl : k = i := halone.only k (List.mem_append_left _ hqueued)
  refine ⟨k, rfl, halone.started, ?_⟩
  rcases halone.confirmed with hwaits | hacked
  · rw [hwaits.1] at hqueued
    cases hqueued
  · exact hacked

/-- A request taken in under an id that no `RecoverId` is still to come for. -/
theorem alone_of_accept (hrouted : Routed w) {a : HubAction}
    (hok : handsOutQuietId w (.hub a) = true) (h : HubMoved w a w') {data : ClientData}
    {message : Nat} {taken : World} {pool : BoundedRing.Ring PacketId poolCapacity}
    (htakes : Takes w a (.clientData data) message taken)
    (hpop : w.hub.pool.pop = some (entry.packetId, pool)) (hdata : takesId data = true)
    (htasks : w'.tasks = w.tasks ++ [Task.init entry.toAcknowledge])
    (hlog : w'.log = .started w.tasks.length entry.toAcknowledge :: .accepted entry ::
      .requested data :: w.log) : Alone w' w.tasks.length entry := by
  refine alone_of_started hrouted h htasks ?_ ?_
  · rw [hlog, current, List.takeWhile_cons]
    exact List.mem_cons_self
  · intro k hk hmem
    have hmem' := (pending_inside h hk).subset hmem
    cases htakes with
    | clientData htake =>
      simp only [handsOutQuietId, receive_of_take htake, hpop, hdata, Bool.not_true,
        Bool.false_or, List.all_eq_true, List.mem_range] at hok
      have := hok k hk
      simp [hmem'] at this

/-- A QoS0 publish adds no entry. -/
theorem takesId_of_grown {a : HubAction} {data : ClientData} {message : Nat} {taken : World}
    (hat : At w.hub .Connected .loop) (htakes : Takes w a (.clientData data) message taken)
    (h : w.stepHub a = some w') (hgrown : w'.hub.clientData = w.hub.clientData ++ [entry]) :
    takesId data = true := by
  cases data with
  | PublishQoS0 packet =>
    cases htakes with
    | @clientData j sender _ _ rest htake =>
      simp only [World.stepHub, receive_of_take htake] at h
      obtain ⟨outcome, hstep, hhub⟩ := hub_of_runHub h
      have kept : outcome.hub = w.hub := by
        simp only [World.record, Hub.step, hat.draw, hat.state, hat.position, Bool.false_eq_true,
          if_false, Option.some.injEq, Hub.dealClientDataWhenConnected] at hstep
        rw [← hstep]
      have := congrArg List.length hgrown
      rw [hhub, kept, List.length_append] at this
      simp at this
  | _ => rfl

theorem toAcknowledge_inj {other : UnacknowledgedClientData}
    (h : other.toAcknowledge = entry.toAcknowledge) : other = entry := by
  cases other <;> cases entry <;> cases h <;> rfl

/-- The PUBREC's `RecoverId` was the last one of the first phase. -/
theorem alone_of_recoverRel (hrouted : Routed w) (hfrom : FromTasks w) {a : HubAction}
    (h : HubMoved w a w') {packet : TracePublishQos .ExactlyOnce} {message : Nat} {taken : World}
    (htakes : Takes w a (.hubMsg (.RecoverId packet.packetId)) message taken)
    (hI : Alone w i (.PublishQoS2 packet))
    (htasks : w'.tasks = w.tasks ++
      [Task.init (.PublishQos2Rel packet.packetId packet.id packet.protocol)])
    (hlog : ∃ sender, w'.log =
      .started w.tasks.length (.PublishQos2Rel packet.packetId packet.id packet.protocol) ::
        .hubTook sender (.RecoverId packet.packetId) :: w.log) :
    Alone w' w.tasks.length (.PubRel packet.packetId packet.id packet.protocol) := by
  refine alone_of_started hrouted h htasks ?_ ?_
  · obtain ⟨sender, hlog⟩ := hlog
    rw [hlog, current, List.takeWhile_cons]
    exact List.mem_cons_self
  · intro k hk hmem
    have hmem' : .RecoverId packet.packetId ∈ pending w k := (pending_inside h hk).subset hmem
    obtain rfl : k = i := hI.only k hmem'
    cases htakes with
    | @hubMsg j sender msg message rest htake =>
      obtain ⟨m, hsender⟩ := hfrom _ (PairFifo.mem_of_take htake) packet.packetId rfl
      cases hsender
      obtain rfl : m = k := hI.only m (List.mem_append_left _ (pending_of_take htake))
      have hsplit := pending_of_hub h hk
      rw [takenFrom_of_take htake, if_pos rfl] at hsplit
      have honce : (pending w m).count (.RecoverId packet.packetId) ≤ 1 := hI.once ⟨packet, rfl⟩
      rw [hsplit, List.count_append, List.count_singleton_self] at honce
      have hpos := List.count_pos_iff.mpr hmem
      have : (pending w' m).count (.RecoverId packet.packetId) = 0 := by omega
      have hpos' : 0 < (pending w' m).count (.RecoverId packet.packetId) := hpos
      omega

theorem law_of_hub (hrouted : Routed w) (hids : IdsConserved w.hub) (hfrom : FromTasks w)
    {a : HubAction} (honce : connectsOnce w (.hub a) = true)
    (hquiet : handsOutQuietId w (.hub a) = true) (hstep : w.stepHub a = some w') (hI : Law w) :
    Law w' := by
  have h := hubMoved_of_step hstep
  refine ⟨early_of_hub h hI, fun next => resends_of_hub honce h hI, ?_⟩
  intro hconnected entry hentry
  have hmoved := h
  cases h with
  | @intro input message taken hub outputs htakes hmove =>
    obtain ⟨events, hlog, hinside⟩ := log_of_takes htakes hub outputs
    have htasks := tasks_of_takes htakes hub outputs
    have hhub := (applyOutputs_grown { taken with hub := hub } message outputs).hub
    have hnext := fun next => @resends_of_hub w _ a honce hmoved hI next
    rw [hhub] at hconnected hentry hnext
    obtain ⟨index, hindex⟩ := List.getElem?_of_mem hentry
    have hpassed : ∀ next, hub.position = .resending next → index < next := by
      intro next hpos
      rw [hnext next hpos] at hentry
      cases hentry
    rcases Orphans.entry_before hids hmove hconnected hindex hpassed with
      ⟨hstate, hinput, k, hk, _⟩ | hspecs
    · have hmem := List.mem_of_getElem? hk
      obtain ⟨i, halone⟩ := hI.alone hstate entry hmem
      obtain ⟨hstarted, haccepted⟩ := other_ids hids hmove hI.resends hmem hinput
      exact ⟨i, alone_of_hub hrouted hmoved htasks hlog hinside hstarted haccepted halone⟩
    · rw [hspecs] at htasks
      refine ⟨w.tasks.length, ?_⟩
      cases hmove with
      | @accept data other pool hat hid hpop hfresh =>
        obtain rfl := toAcknowledge_inj (List.cons.inj hspecs).1
        have hdata := takesId_of_grown hat htakes hstep (congrArg Hub.clientData hhub)
        refine alone_of_accept hrouted hquiet hmoved htakes hpop hdata htasks ?_
        cases htakes
        rfl
      | @recoverRel packetId found packet hat hfind hget =>
        have hrel : .PubRel packet.packetId packet.id packet.protocol = entry :=
          toAcknowledge_inj (List.cons.inj hspecs).1
        subst hrel
        obtain ⟨i, halone⟩ := hI.alone hat.state _ (List.mem_of_getElem? hget)
        have hid : packet.packetId = packetId := found_packetId hfind hget
        subst hid
        refine alone_of_recoverRel hrouted hfrom hmoved htakes halone htasks ?_
        cases htakes
        exact ⟨_, rfl⟩
      | @resendEntry next other hat hget =>
        rw [hI.resends next hat.position] at hget
        cases hget
      | publishQoS0 hat => cases entry <;> cases hspecs
      | @rxAccept publish packetId protocol spec hat hfree hspec =>
        rcases hspec with ⟨_, rfl⟩ | ⟨_, rfl⟩ <;> cases entry <;> cases hspecs
      | _ => cases hspecs

/-- What the run keeps beside the law. -/
structure Background (w : World) : Prop where
  routed : Routed w
  ids : IdsConserved w.hub
  fromTasks : FromTasks w
  law : Law w

theorem law_of_outside (hrouted : Routed w) (h : Moved w action w') (hhub : ∀ a, action ≠ .hub a)
    (hI : Law w) : Law w' := by
  have hub := (hub_of_moved h hhub).1
  constructor
  · intro hnone
    rw [hub]
    exact hI.early (any_of_suffix (log_grows h) hnone)
  · rw [hub]
    exact hI.resends
  · rw [hub]
    intro hconnected entry hentry
    obtain ⟨i, halone⟩ := hI.alone hconnected entry hentry
    exact ⟨i, alone_of_outside hrouted h hhub halone⟩

theorem background_of_step (honce : connectsOnce w action = true)
    (hquiet : handsOutQuietId w action = true) (hstep : w.step action = some w')
    (hI : Background w) : Background w' := by
  have h := moved_of_step hstep
  have handshake := Handshake.background_of_moved h ⟨hI.routed, hI.ids⟩
  refine ⟨handshake.routed, handshake.ids, fromTasks_of_moved h hI.fromTasks, ?_⟩
  rcases hub_or_not h with ⟨a, rfl, _⟩ | notHub
  · exact law_of_hub hI.routed hI.ids hI.fromTasks honce hquiet hstep hI.law
  · exact law_of_outside hI.routed h notHub hI.law

theorem reachable_background {options : MqttOptions} {protocol : Protocol}
    (h : Reachable World.step
      (fun w a => connectsOnce w a = true ∧ handsOutQuietId w a = true)
      (.init options protocol) w) : Background w := by
  refine h.invariant ⟨⟨?_, ?_⟩, initial_conserved options protocol, ?_, ⟨?_, ?_, ?_⟩⟩ ?_
  · intro e he
    cases he
  · intro e he
    cases he
  · intro e he
    cases he
  · exact fun _ => ⟨rfl, by simp [World.init, Hub.init]⟩
  · exact fun _ _ => rfl
  · rintro ⟨⟩
  · intro w action w' _ ih hok hstep
    exact background_of_step hok.1 hok.2 hstep ih

end Steps

/-- The law at one state: the entry that a `RecoverId` meets is its sender's own. -/
def MeetsOwnEntry (w : World) : Prop :=
  ∀ j sender p message rest w', PairFifo.take Envelope.channel w.bus j =
      some (⟨sender, .hub, .hubMsg (.RecoverId p), message⟩, rest) →
    w.step (.hub (.recv j)) = some w' →
    ∀ entry ∈ w.hub.clientData, entry.packetId = p → OwnRecover w sender entry

/-- In every run on one connection in which no packet id is handed out that a
`RecoverId` is still to come for: an entry that a `RecoverId` meets is the one
that the sending task was started for, and that task has been acknowledged. -/
theorem recover_meets_own_entry {options : MqttOptions} {protocol : Protocol} {w : World}
    (h : Reachable World.step
      (fun w a => connectsOnce w a = true ∧ handsOutQuietId w a = true)
      (.init options protocol) w) : MeetsOwnEntry w := by
  intro j sender p message rest w' htake hstep entry hmem hid
  subst hid
  have hI := reachable_background h
  have hstate : w.hub.state = .Connected := by
    have hmoved : HubMoved w (.recv j) w' := hubMoved_of_step hstep
    cases hmoved with
    | @intro input message taken hub outputs htakes hmove =>
      cases htakes with
      | clientData htake' => cases htake.symm.trans htake'
      | hubMsg htake' =>
        cases htake.symm.trans htake'
        exact At.state hmove.awaits
  exact own_of_alone hI.fromTasks (hI.law.alone hstate entry hmem) htake

/-! ## A packet id that is handed out too early -/

/-- One connection, and a broker that acknowledges what it has got once. -/
def singleConnection (w : World) (action : Action) : Prop :=
  connectsOnce w action = true ∧ brokerAnswers w action = true

instance (w : World) (action : Action) : Decidable (singleConnection w action) :=
  inferInstanceAs (Decidable (_ ∧ _))

/-- The user makes a request and the hub takes it in. -/
theorem accepted_run {start w : World} (h : Reachable World.step singleConnection start w)
    (hat : At w.hub .Connected .loop) (hfree : ∀ e ∈ w.bus, e.channel ≠ (.client, .hub))
    (data : ClientData) (entry : UnacknowledgedClientData) {p : PacketId}
    {pool : BoundedRing.Ring PacketId poolCapacity} (hpop : w.hub.pool.pop = some (p, pool))
    (hentry : Requests.requestEntry p data = some entry) :
    ∃ w', Reachable World.step singleConnection start w' ∧ w'.bus = w.bus ∧
      w'.hub = { w.hub with pool := pool, clientData := w.hub.clientData ++ [entry] } ∧
      w'.tasks = w.tasks ++ [Task.init entry.toAcknowledge] ∧
      w'.log = .started w.tasks.length entry.toAcknowledge :: .accepted entry ::
        .requested data :: w.log := by
  have hdeal := Requests.accepted_outcome hpop hentry
  have requested : Reachable World.step singleConnection start
      (w.dispatch .client (.clientData data) 0) :=
    .next (a := .request data) h ⟨rfl, rfl⟩ rfl
  have htake : PairFifo.take Envelope.channel (w.dispatch .client (.clientData data) 0).bus
      w.bus.length = some (⟨.client, .hub, .clientData data, 0⟩, w.bus) :=
    PairFifo.take_snoc hfree
  have hstep : w.hub.step w.keepAliveId (.clientData data) =
      some (w.hub.dealClientDataWhenConnected data) := by
    simp [Hub.step, hat.draw, hat.state, hat.position]
  have taken : (w.dispatch .client (.clientData data) 0).step (.hub (.recv w.bus.length)) =
      some (World.applyOutputs 0
        { ({ w with log := .requested data :: w.log } : World) with
          hub := { w.hub with pool := pool, clientData := w.hub.clientData ++ [entry] } }
        [.accepted entry, .start entry.toAcknowledge]) := by
    simp only [World.step, World.stepHub, receive_of_take htake]
    simp only [World.runHub, World.record, World.dispatch, hstep, hdeal]
  exact ⟨_, .next (a := .hub (.recv w.bus.length)) requested ⟨rfl, rfl⟩ taken, rfl, rfl, rfl, rfl⟩

/-- A request for the rest of the pool. -/
def filler : ClientData := .Subscribe ⟨0, .V4 0 []⟩

/-- Requests use up the pool; the queues stay as they are. -/
theorem pool_used_up {start w : World} (h : Reachable World.step singleConnection start w)
    (hat : At w.hub .Connected .loop) (hfree : ∀ e ∈ w.bus, e.channel ≠ (.client, .hub)) :
    ∃ w', Reachable World.step singleConnection start w' ∧ At w'.hub .Connected .loop ∧
      w'.hub.pool.items = [] ∧ w'.bus = w.bus ∧ w.hub.clientData <+: w'.hub.clientData ∧
      w.tasks <+: w'.tasks := by
  generalize hlength : w.hub.pool.items.length = n
  induction n generalizing w with
  | zero =>
    exact ⟨w, h, hat, List.length_eq_zero_iff.mp hlength, rfl, List.prefix_rfl, List.prefix_rfl⟩
  | succ n ih =>
    cases hpop : w.hub.pool.pop with
    | none =>
      rw [BoundedRing.Ring.pop_eq_none.mp hpop] at hlength
      cases hlength
    | some popped =>
      obtain ⟨p, pool⟩ := popped
      obtain ⟨w₁, h₁, hbus, hhub, htasks, _⟩ :=
        accepted_run h hat hfree filler (.Subscribe ⟨0, .V4 p []⟩) hpop rfl
      have hat₁ : At w₁.hub .Connected .loop := by
        rw [hhub]
        exact ⟨hat.draw, hat.state, hat.position⟩
      have hitems : w₁.hub.pool.items.length = n := by
        have hpool : w₁.hub.pool = pool := congrArg Hub.pool hhub
        rw [BoundedRing.Ring.pop_eq_some hpop, List.length_cons] at hlength
        rw [hpool]
        omega
      obtain ⟨w', h', hat', hempty, hbus', hdata', htasks'⟩ := ih h₁ hat₁ (hbus ▸ hfree) hitems
      refine ⟨w', h', hat', hempty, hbus'.trans hbus, ?_, ?_⟩
      · refine List.IsPrefix.trans ?_ hdata'
        rw [hhub]
        exact List.prefix_append _ _
      · refine List.IsPrefix.trans ?_ htasks'
        rw [htasks]
        exact List.prefix_append _ _

/-- The hub completes its first entry when the pool is empty. -/
theorem recovered_run {start w : World} (h : Reachable World.step singleConnection start w)
    (hat : At w.hub .Connected .loop) {j message : Nat} {sender : Worker} {p : PacketId}
    {rest : List Envelope} (htake : PairFifo.take Envelope.channel w.bus j =
      some (⟨sender, .hub, .hubMsg (.RecoverId p), message⟩, rest))
    {entry : UnacknowledgedClientData} {more : List UnacknowledgedClientData}
    (hdata : w.hub.clientData = entry :: more) (hid : entry.packetId = p)
    (hdone : entry.acknowledge.2 = true) (hempty : w.hub.pool.items = []) :
    ∃ w', Reachable World.step singleConnection start w' ∧ At w'.hub .Connected .loop ∧
      w'.bus = rest ∧ (∃ pool, w'.hub.pool.pop = some (p, pool)) ∧ w'.tasks = w.tasks := by
  have hfind : w.hub.clientData.findIdx? (fun obj => obj.packetId = p) = some 0 := by
    simp [hdata, List.findIdx?_cons, hid]
  have hget : w.hub.clientData[0]? = some entry := by simp [hdata]
  have hroom : w.hub.pool.items.length < poolCapacity := by simp [hempty, poolCapacity]
  have hpush : w.hub.pool.push p = some ⟨w.hub.pool.items ++ [p],
      BoundedRing.length_snoc_le hroom p⟩ := by
    rw [BoundedRing.Ring.push, dif_pos hroom]
  have hstep : w.hub.step w.keepAliveId (.hubMsg (.RecoverId p)) = some (w.hub.recoverId p) := by
    simp [Hub.step, hat.draw, hat.state, hat.position, Hub.dealHubMsg]
  have recovered : ∃ w', w.step (.hub (.recv j)) = some w' ∧ w'.hub.drawing = true ∧
      w'.hub.state = .Connected ∧ w'.hub.position = .loop ∧ w'.bus = rest ∧
      w'.hub.pool.items = [p] ∧ w'.tasks = w.tasks := by
    simp only [World.step, World.stepHub, receive_of_take htake]
    simp only [World.runHub, World.record, hstep, Hub.recoverId, hfind, hget, hdone, if_true,
      hpush]
    refine ⟨_, rfl, rfl, hat.state, hat.position, rfl, ?_, rfl⟩
    have appended : w.hub.pool.items ++ [p] = [p] := by rw [hempty, List.nil_append]
    exact appended
  obtain ⟨w₁, hrecovered, hdraw, hstate, hpos, hbus, hitems, htasks⟩ := recovered
  have h₁ : Reachable World.step singleConnection start w₁ :=
    .next (a := .hub (.recv j)) h ⟨rfl, rfl⟩ hrecovered
  have loaded : ∃ w', w₁.step (.hub .load) = some w' ∧ w'.hub = { w₁.hub with drawing := false } ∧
      w'.bus = w₁.bus ∧ w'.tasks = w₁.tasks := by
    simp only [World.step, World.stepHub, World.runHub, Hub.step, hdraw, if_true]
    exact ⟨_, rfl, rfl, rfl, rfl⟩
  obtain ⟨w₂, hloaded, hhub, hbus', htasks'⟩ := loaded
  refine ⟨w₂, .next (a := .hub .load) h₁ ⟨rfl, rfl⟩ hloaded, ?_, hbus'.trans hbus, ?_,
    htasks'.trans htasks⟩
  · rw [hhub]
    exact ⟨rfl, hstate, hpos⟩
  · have hpool : w₂.hub.pool = w₁.hub.pool := by rw [hhub]
    rw [hpool]
    cases hpop : w₁.hub.pool.pop with
    | none =>
      rw [BoundedRing.Ring.pop_eq_none.mp hpop] at hitems
      cases hitems
    | some popped =>
      obtain ⟨q, pool⟩ := popped
      have := BoundedRing.Ring.pop_eq_some hpop
      rw [hitems] at this
      exact ⟨pool, by rw [(List.cons.inj this).1]⟩

theorem recv_enabled {w : World} (hat : At w.hub .Connected .loop) {j message : Nat}
    {sender : Worker} {msg : HubMsg} {rest : List Envelope}
    (htake : PairFifo.take Envelope.channel w.bus j =
      some (⟨sender, .hub, .hubMsg msg, message⟩, rest)) :
    ∃ w', w.step (.hub (.recv j)) = some w' := by
  have hstep : w.hub.step w.keepAliveId (.hubMsg msg) =
      some (w.hub.dealHubMsg w.keepAliveId msg) := by
    simp [Hub.step, hat.draw, hat.state, hat.position]
  simp only [World.step, World.stepHub, receive_of_take htake]
  simp only [World.runHub, World.record, hstep]
  exact ⟨_, rfl⟩

/-- A QoS1 publish is acknowledged, and both `RecoverId`s of its task wait. -/
def acknowledged : List Action :=
  [.hub (.connect 0), .network 0 (.connected false), .hub (.connecting 0), .hub .load,
    .hub .resend, .request (.PublishQoS1 (.init .AtLeastOnce "a" [] false .V4 7)), .hub (.recv 1),
    .task 0 .run, .network 0 (.take 1 none), .task 0 .receipt, .broker 0 .recv,
    .broker 0 (.send (.Ack (.PubAck 1)) 0), .network 0 .read, .task 0 (.ack 1), .task 0 .run,
    .task 0 .run]

/-- The pool is used up while both `RecoverId`s wait. The first one frees packet
id 1, which goes to a new request, and the second one meets the new entry. -/
theorem second_recover_meets_new_entry :
    ∃ w, Reachable World.step singleConnection (.init ⟨60, true⟩ .V4) w ∧ ¬ MeetsOwnEntry w := by
  obtain ⟨w, h, hdraw, hstate, hpos, hbus, hdata, htasks⟩ :
      ∃ w, Reachable World.step singleConnection (.init ⟨60, true⟩ .V4) w ∧
        (w.hub.drawing = false ∧ w.hub.state = .Connected ∧ w.hub.position = .loop ∧
          w.bus = [⟨.hub, .client, .mqtt (.ConnectSuccess false), 0⟩,
            ⟨.task 0, .hub, .hubMsg (.RecoverId 1), 0⟩,
            ⟨.task 0, .hub, .hubMsg (.RecoverId 1), 0⟩] ∧
          w.hub.clientData = [.PublishQoS1 ⟨.V4, 7, "a", 1, [], false⟩] ∧ w.tasks.length = 1) :=
    exists_of_guardedRun acknowledged (by decide +kernel)
  have hfree : ∀ e ∈ w.bus, e.channel ≠ (.client, .hub) := by
    rw [hbus]
    decide
  obtain ⟨w₁, h₁, hat₁, hempty, hbus₁, ⟨more, hdata₁⟩, ⟨others, htasks₁⟩⟩ :=
    pool_used_up h ⟨hdraw, hstate, hpos⟩ hfree
  rw [hbus] at hbus₁
  rw [hdata] at hdata₁
  have htake₁ : PairFifo.take Envelope.channel w₁.bus 1 =
      some (⟨.task 0, .hub, .hubMsg (.RecoverId 1), 0⟩,
        [⟨.hub, .client, .mqtt (.ConnectSuccess false), 0⟩,
          ⟨.task 0, .hub, .hubMsg (.RecoverId 1), 0⟩]) := by
    rw [hbus₁]
    rfl
  obtain ⟨w₂, h₂, hat₂, hbus₂, ⟨pool, hpop⟩, htasks₂⟩ :=
    recovered_run h₁ hat₁ htake₁ hdata₁.symm rfl rfl hempty
  obtain ⟨w₃, h₃, hbus₃, hhub₃, htasks₃, hlog₃⟩ :=
    accepted_run h₂ hat₂ (by rw [hbus₂]; decide) filler (.Subscribe ⟨0, .V4 1 []⟩) hpop rfl
  refine ⟨w₃, h₃, ?_⟩
  intro hlaw
  have htake₃ : PairFifo.take Envelope.channel w₃.bus 1 =
      some (⟨.task 0, .hub, .hubMsg (.RecoverId 1), 0⟩,
        [⟨.hub, .client, .mqtt (.ConnectSuccess false), 0⟩]) := by
    rw [hbus₃, hbus₂]
    rfl
  have hat₃ : At w₃.hub .Connected .loop := by
    rw [hhub₃]
    exact ⟨hat₂.draw, hat₂.state, hat₂.position⟩
  obtain ⟨w', hstep⟩ := recv_enabled hat₃ htake₃
  have hmem : .Subscribe ⟨0, .V4 1 []⟩ ∈ w₃.hub.clientData := by
    rw [hhub₃]
    exact List.mem_append_right _ List.mem_cons_self
  obtain ⟨i, hsender, hstarted, _⟩ := hlaw _ _ _ _ _ _ htake₃ hstep _ hmem rfl
  cases hsender
  rw [hlog₃] at hstarted
  have hzero : 0 = w₂.tasks.length := by
    simpa [current, requestUnder, UnacknowledgedClientData.packetId, TraceSubscribe.packetId,
      Subscribe.packetId] using hstarted
  have hlength := congrArg List.length htasks₁
  rw [List.length_append, htasks] at hlength
  rw [htasks₂] at hzero
  omega

/-- The law where the first `RecoverId` of the QoS1 publish waits for the hub. -/
theorem recover_meets_own_entry_of_publish :
    ∃ w, guardedRun World.step
        (fun w a => connectsOnce w a = true ∧ handsOutQuietId w a = true) (.init ⟨60, true⟩ .V4)
        acknowledged = some w ∧ MeetsOwnEntry w :=
  end_of_guardedRun _ (by decide +kernel) (fun _ h => recover_meets_own_entry h)

end StaleRecovers
